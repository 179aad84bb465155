import GoProtocols.Ftp.Gate

/-!
# A second login

A connection on which somebody logs in after somebody else, and a new connection with the same login.

* `Oblivious`: what does not depend on the type of transfers and on the protection of data
  connections. Every command is so (`dispatch_oblivious`): the session stores the two and never
  looks at them.
* `loginIsolated_iff`: so the old connection behaves like a new one exactly if no rename, no offset and
  no data channel are left over.
-/

namespace Ftp

open Go

variable {W : Type} {β : Type} (k : State W → State W × β) (cfg : Config W) (c : Control W)
  (st : State W)

/-! ## Specification -/

/-- What is seen of a connection from outside. -/
structure View (W : Type) where
  world : W
  calls : List FsCall
  replies : List Reply
  dataSent : List Bytes
  isOpen : Bool

def Control.view : View W :=
  { world := c.state.world, calls := c.state.calls, replies := c.state.replies
    dataSent := c.state.dataSent, isOpen := c.isOpen }

def State.withSession (s : Session) : State W := { st with session := s }

/-- After any login that succeeds, a connection with the session `s` goes on as a new connection
does after that login. -/
def LoginIsolated [UnicodeTables] (s : Session) : Prop :=
  ∀ (W : Type) (cfg : Config W) (st : State W) (userLine passLine name pass : Bytes),
    commandOf userLine = some (.USER, name) → commandOf passLine = some (.PASS, pass) →
      let old := conversation cfg { state := st.withSession s }
      let new := conversation cfg { state := st.withSession {} }
      (old.after [userLine, passLine]).state.session.logged = true →
        ∀ lines, (old.after (userLine :: passLine :: lines)).view =
          (new.after (userLine :: passLine :: lines)).view

/-! ## What nothing depends on -/

def State.plain : State W :=
  st.withSession { st.session with type_ := lit "A", dataTLS := false }

def hide (r : State W × β) : State W × β := (r.1.plain, r.2)

def Oblivious : Prop := ∀ st, hide (k st.plain) = hide (k st)

section
variable {cfg : Config W} (st : State W) (s : Session) (r : Reply)
  (call : User → Bytes → FsCall) (method : User → Bytes → Bytes → Ask W (Except Bytes Unit))
  (arg : Bytes) {k}

theorem Oblivious.congr (h : Oblivious k) {st st' : State W} (heq : st.plain = st'.plain) :
    hide (k st) = hide (k st') := by
  rw [← h st, heq, h st']

theorem reply_withSession :
    (st.withSession s).reply cfg r = ((st.reply cfg r).1.withSession s, (st.reply cfg r).2) := by
  have hworld : (st.withSession s).world = st.world := rfl
  simp only [State.reply, hworld]
  split <;> rfl

theorem reply_plain : st.plain.reply cfg r = ((st.reply cfg r).1.plain, (st.reply cfg r).2) := by
  rw [State.plain, reply_withSession, State.plain, reply_session]

theorem oblivious_reply : Oblivious fun st : State W => st.reply cfg r := by
  intro st
  simp only [reply_plain]
  rfl

theorem oblivious_dropped (e : Except Stop Unit) :
    Oblivious fun st : State W => (((st.reply cfg r).1, e) : Res W) := by
  intro st
  simp only [reply_plain]
  rfl

theorem Oblivious.withTarget {k : Bytes → State W → Res W} (hk : ∀ target, Oblivious (k target))
    (arg : Bytes) : Oblivious fun st => withTarget cfg st arg k := by
  intro st
  simp only [Ftp.withTarget, State.ask, State.plain, State.withSession]
  cases (cfg.filesystem.resolve st.session.auth st.session.cwd arg st.world).1 with
  | error e => exact oblivious_reply _ { st with world := _, calls := _ }
  | ok target => exact hk target { st with world := _, calls := _ }

theorem oblivious_acceptData :
    acceptData cfg st.plain = ((acceptData cfg st).1, (acceptData cfg st).2.plain) := by
  have hpassive : st.plain.session.passive = st.session.passive := rfl
  unfold acceptData
  rw [hpassive]
  repeat' split
  all_goals rfl

theorem Oblivious.withData {k : Bytes → State W → Res W} (hk : ∀ data, Oblivious (k data)) :
    Oblivious fun st => withData cfg st k := by
  intro st
  simp only [Ftp.withData, oblivious_acceptData]
  cases acceptData cfg st with
  | mk r st' =>
    cases r with
    | error e => exact oblivious_reply _ st'
    | ok data =>
      simp only [reply_plain]
      cases st'.reply cfg (newReply codeDataOpen (lit "Opening data connection")) with
      | mk st'' r =>
        cases r with
        | error e => rfl
        | ok u => exact hk data st''

/-! ### Commands -/

theorem oblivious_cwd2 : Oblivious fun st => cwd2 cfg st arg := by
  refine Oblivious.withTarget (fun target st => ?_) arg
  simp only [State.ask, State.plain, State.withSession]
  cases (cfg.filesystem.stat st.session.auth target st.world).1 with
  | error e => exact oblivious_reply _ { st with world := _, calls := _ }
  | ok stat =>
    dsimp only
    split
    · exact oblivious_reply _ { st with world := _, calls := _, session.cwd := target }
    · exact oblivious_reply _ { st with world := _, calls := _ }

theorem oblivious_passiveReply (announce : Bytes → Reply) :
    Oblivious fun st => passiveReply cfg st announce := by
  intro st
  have hworld : st.plain.world = st.world := rfl
  simp only [passiveReply, hworld]
  split <;> exact (oblivious_reply _).congr rfl

theorem oblivious_listTarget (target : Bytes) : Oblivious (listTarget cfg target) := by
  intro st
  simp only [listTarget, State.ask, State.plain, State.withSession]
  cases (cfg.filesystem.list st.session.auth target st.world).1 with
  | error e => exact oblivious_reply _ { st with world := _, calls := _ }
  | ok entries =>
    refine Oblivious.withData (fun _ st' => ?_) { st with world := _, calls := _ }
    exact (oblivious_reply _).congr rfl

theorem oblivious_list : Oblivious fun st => list cfg st arg := by
  intro st
  simp only [list]
  split
  · exact oblivious_listTarget _ st
  · exact Oblivious.withTarget oblivious_listTarget arg st

theorem oblivious_retr : Oblivious fun st => retr cfg st arg := by
  refine Oblivious.withTarget (fun target => Oblivious.withData fun data st => ?_) arg
  simp only [State.ask, State.plain, State.withSession]
  cases (cfg.filesystem.sendFile st.session.auth target st.session.rest st.world).1 with
  | mk sent r =>
    cases r with
    | error e => exact (oblivious_dropped _ _).congr rfl
    | ok u => exact (oblivious_reply _).congr rfl

theorem oblivious_upload : Oblivious fun st => upload cfg call method st arg := by
  refine Oblivious.withTarget (fun target => Oblivious.withData fun data st => ?_) arg
  simp only [State.ask, State.plain, State.withSession]
  cases (method st.session.auth target data st.world).1 with
  | error e => exact (oblivious_dropped _ _).congr rfl
  | ok u => exact (oblivious_reply _).congr rfl

theorem oblivious_askTarget {α : Type} (method : User → Bytes → Ask W (Except Bytes α))
    (done : Bytes → α → Reply) (arg : Bytes) :
    Oblivious fun st => askTarget cfg call method done st arg := by
  refine Oblivious.withTarget (fun target st => ?_) arg
  simp only [State.ask, State.plain, State.withSession]
  cases (method st.session.auth target st.world).1 with
  | error e | ok u => exact (oblivious_reply _).congr rfl

theorem oblivious_rnto : Oblivious fun st => rnto cfg st arg := by
  intro st
  have hrename : st.plain.session.renameTo = st.session.renameTo := rfl
  simp only [rnto, hrename]
  split
  · exact oblivious_reply _ st
  · refine Oblivious.withTarget (fun target st => ?_) arg st
    simp only [State.ask, State.plain, State.withSession]
    cases (cfg.filesystem.rename st.session.auth st.session.renameTo target st.world).1 with
    | error e | ok u => exact (oblivious_reply _).congr rfl

theorem oblivious_handlePASS : Oblivious fun st => handlePASS cfg st arg := by
  intro st
  have huser : st.plain.session.user = st.session.user := rfl
  have hworld : st.plain.world = st.world := rfl
  simp only [handlePASS, huser, hworld]
  repeat' split
  all_goals exact (oblivious_reply _).congr rfl

/-- **No command depends on the type or the protection.** -/
theorem dispatch_oblivious [UnicodeTables] (c : Command) :
    Oblivious fun st => dispatch cfg st c := by
  intro st
  have hlogged : st.plain.session.logged = st.session.logged := rfl
  have hcwd : st.plain.session.cwd = st.session.cwd := rfl
  simp only [dispatch, hlogged]
  split
  · rfl
  · cases verbOf c.name with
    | USER => exact (oblivious_reply _).congr rfl
    | PASS => exact oblivious_handlePASS c.arg st
    | QUIT => exact oblivious_dropped _ _ st
    | CWD | CDUP => exact oblivious_cwd2 _ st
    | TYPE | REST | PROT | PORT | EPRT =>
      simp only [type2, rest2, prot, port, eprt]
      repeat' split
      all_goals exact (oblivious_reply _).congr rfl
    | PASV | EPSV => exact oblivious_passiveReply _ st
    | LIST | NLST => exact oblivious_list c.arg st
    | RETR => exact oblivious_retr c.arg st
    | STOR | APPE => exact oblivious_upload _ _ c.arg st
    | DELE | RMD | MKD | SIZE | MDTM => exact oblivious_askTarget _ _ _ c.arg st
    | RNFR =>
      refine Oblivious.withTarget (fun target st => ?_) c.arg st
      exact (oblivious_reply _).congr rfl
    | RNTO => exact oblivious_rnto c.arg st
    | _ => exact oblivious_reply _ st

/-! ### Lines -/

theorem oblivious_last :
    Oblivious fun st : State W =>
      match st.reply cfg r with
      | (st, .ok _) => (st, true)
      | (st, .error _) => (st, false) := by
  intro st
  simp only [reply_plain]
  cases st.reply cfg r with
  | mk st' r => cases r <;> rfl

theorem report_congr {r r' : Res W} (h : hide r = hide r') :
    hide (report cfg r) = hide (report cfg r') := by
  obtain ⟨st, e⟩ := r
  obtain ⟨st', e'⟩ := r'
  obtain ⟨hst, rfl⟩ := Prod.mk.inj h
  cases e with
  | ok u => exact Prod.ext hst rfl
  | error stop =>
    cases stop with
    | quit => exact Prod.ext hst rfl
    | err e => exact (oblivious_last (newReply codeNotLoggedInReq e)).congr hst

theorem serveLine_oblivious [UnicodeTables] (cfg : Config W) (line : Bytes) :
    Oblivious fun st => serveLine cfg st line := by
  intro st
  simp only [serveLine]
  cases parse line with
  | error e => exact oblivious_last _ st
  | ok c => exact report_congr (dispatch_oblivious c st)

def Control.Alike (c' : Control W) : Prop := c.state.plain = c'.state.plain ∧ c.isOpen = c'.isOpen

theorem Control.Alike.view {c c' : Control W} (h : c.Alike c') : c.view = c'.view := by
  have hplain (c : Control W) : c.view = Control.view { c with state := c.state.plain } := rfl
  rw [hplain c, hplain c', h.1, h.2]

theorem Control.Alike.step [UnicodeTables] {c c' : Control W} (h : c.Alike c') (line : Bytes) :
    (c.step cfg line).Alike (c'.step cfg line) := by
  have hline := (serveLine_oblivious cfg line).congr h.1
  obtain ⟨hstate, hopen⟩ := Prod.mk.inj hline
  unfold Control.step
  rw [← h.2]
  split
  · exact ⟨hstate, hopen⟩
  · exact h

theorem Control.Alike.after [UnicodeTables] {c c' : Control W} (h : c.Alike c')
    (lines : List Bytes) :
    ((conversation cfg c).after lines).Alike ((conversation cfg c').after lines) := by
  induction lines using List.reverseRecOn with
  | nil => exact h
  | append_singleton lines line ih =>
    rw [System.after_concat, System.after_concat]
    exact ih.step line

/-! ## A login -/

theorem report_withSession (r : Res W) (s : Session) :
    report cfg (r.1.withSession s, r.2) = ((report cfg r).1.withSession s, (report cfg r).2) := by
  obtain ⟨st, e⟩ := r
  cases e with
  | ok u => rfl
  | error stop =>
    cases stop with
    | quit => rfl
    | err e =>
      simp only [report, reply_withSession]
      cases st.reply cfg (newReply codeNotLoggedInReq e) with
      | mk st' r => cases r <;> rfl

/-- The session after `USER`. -/
def Session.named (name : Bytes) : Session :=
  { s with user := name, auth := {}, logged := false }

/-- The session after a `PASS` that has succeeded. -/
def Session.entered (u : User) : Session :=
  { s with auth := u, logged := true, cwd := lit "/" }

def welcome (cfg : Config W) : Reply :=
  newReply codeLoginOK
    (if cfg.welcomeMessage = [] then lit "Login successful" else cfg.welcomeMessage)

theorem handlePASS_withSession {s : Session} {name pass : Bytes} {u : User}
    (hname : s.user = name) (hne : name ≠ [])
    (hok : (cfg.authenticate name pass st.world).1 = .ok u) :
    handlePASS cfg (st.withSession s) pass =
      (State.withSession { st with world := (cfg.authenticate name pass st.world).2 }
        (s.entered u)).reply cfg (welcome cfg) := by
  have huser : (st.withSession s).session.user = name := hname
  have hworld : (st.withSession s).world = st.world := rfl
  have hauth : cfg.authenticate name pass st.world =
    (.ok u, (cfg.authenticate name pass st.world).2) := Prod.ext hok rfl
  rw [handlePASS, huser, hworld, if_neg hne]
  generalize (cfg.authenticate name pass st.world).2 = world at hauth
  rw [hauth]
  rfl

section
variable [UnicodeTables] {userLine passLine name pass : Bytes} {st} {s}

theorem serveLine_USER_withSession (cfg : Config W) (h : commandOf userLine = some (.USER, name))
    (st : State W) (s : Session) :
    let r := report cfg (st.reply cfg (newReply codeUserOK (lit "Password required")))
    serveLine cfg (st.withSession s) userLine = (r.1.withSession (s.named name), r.2) := by
  intro r
  rw [serveLine_USER cfg h, ← report_withSession, ← reply_withSession]
  rfl

theorem serveLine_PASS_withSession (h : commandOf passLine = some (.PASS, pass)) (st : State W)
    (hname : s.user = name) (hne : name ≠ []) {u : User}
    (hok : (cfg.authenticate name pass st.world).1 = .ok u) :
    let st' := { st with world := (cfg.authenticate name pass st.world).2 }
    let r := report cfg (st'.reply cfg (welcome cfg))
    serveLine cfg (st.withSession s) passLine = (r.1.withSession (s.entered u), r.2) := by
  intro st' r
  rw [serveLine_PASS cfg h, handlePASS_withSession st hname hne hok, reply_withSession,
    report_withSession]

/-- **What a login that succeeds does, whatever the session was before.** -/
theorem login_run (huser : commandOf userLine = some (.USER, name))
    (hpass : commandOf passLine = some (.PASS, pass))
    (hlogged : ((conversation cfg { state := st.withSession s }).after
      [userLine, passLine]).state.session.logged = true) :
    ∃ (st' : State W) (isOpen : Bool) (u : User), ∀ s',
      (conversation cfg { state := st.withSession s' }).after [userLine, passLine] =
        { state := st'.withSession ((s'.named name).entered u), isOpen } := by
  have hfirst (s' : Session) := serveLine_USER_withSession cfg huser st s'
  generalize report cfg (st.reply cfg (newReply codeUserOK (lit "Password required"))) = r at hfirst
  obtain ⟨st₁, isOpen⟩ := r
  have hafter (s' : Session) :
      (conversation cfg { state := st.withSession s' }).after [userLine, passLine] =
        Control.step cfg { state := st₁.withSession (s'.named name), isOpen } passLine := by
    have hstep : Control.step cfg { state := st.withSession s' } userLine =
        { state := (serveLine cfg (st.withSession s') userLine).1
          isOpen := (serveLine cfg (st.withSession s') userLine).2 } := rfl
    rw [hfirst s'] at hstep
    exact congrArg (Control.step cfg · passLine) hstep
  rw [hafter s] at hlogged
  cases isOpen with
  | false => cases hlogged
  | true =>
    obtain ⟨-, hcases⟩ := handlePASS_cases cfg (st₁.withSession (s.named name)) pass
    rw [Control.step, if_pos rfl, serveLine_PASS cfg hpass, report_session] at hlogged
    rcases hcases with hsame | ⟨u, hne, hok, -⟩
    · rw [hsame] at hlogged
      cases hlogged
    · have hserve (s' : Session) := serveLine_PASS_withSession hpass st₁
        (show (s'.named name).user = name from rfl) hne hok
      exact ⟨_, _, u, fun s' => by rw [hafter s', Control.step, if_pos rfl, hserve s']⟩

end

end

/-! ## The condition -/

/-- Nothing of the session is left that a login does not set. -/
structure Session.Clean (s : Session) : Prop where
  renameTo : s.renameTo = []
  rest : s.rest = 0
  passive : s.passive = none

theorem Session.Clean.plain {s : Session} (h : s.Clean) (st : State W) (name : Bytes) (u : User) :
    (st.withSession ((s.named name).entered u)).plain =
      (st.withSession ((({} : Session).named name).entered u)).plain := by
  simp [State.plain, State.withSession, Session.named, Session.entered, h.renameTo, h.rest,
    h.passive]

section
variable [UnicodeTables]

theorem after_login (userLine passLine : Bytes) (lines : List Bytes) :
    (conversation cfg c).after (userLine :: passLine :: lines) =
      (conversation cfg ((conversation cfg c).after [userLine, passLine])).after lines := rfl

theorem Session.Clean.loginIsolated {s : Session} (h : s.Clean) : LoginIsolated s := by
  intro W cfg st userLine passLine name pass huser hpass old new hlogged lines
  obtain ⟨st', isOpen, u, hrun⟩ := login_run huser hpass hlogged
  have halike : (old.after [userLine, passLine]).Alike (new.after [userLine, passLine]) := by
    rw [hrun s, hrun {}]
    exact ⟨h.plain st' name u, rfl⟩
  show (old.after (userLine :: passLine :: lines)).view = _
  rw [after_login, after_login]
  exact (halike.after lines).view

end

/-! ### What is left makes a difference -/

/-- A server that lets everybody in, with a filesystem and a network on which everything succeeds. -/
def liberal : Config Unit where
  banner := []
  welcomeMessage := []
  passivePortStart := 0
  passivePortEnd := 0
  authenticate user _ w := (.ok { name := user }, w)
  filesystem :=
    { resolve := fun _ _ arg w => (.ok arg, w)
      stat := fun _ _ w => (.ok {}, w)
      list := fun _ _ w => (.ok [], w)
      mkdir := fun _ _ w => (.ok (), w)
      remove := fun _ _ w => (.ok (), w)
      rename := fun _ _ _ w => (.ok (), w)
      sendFile := fun _ _ _ w => (([], .ok ()), w)
      recvFile := fun _ _ _ w => (.ok (), w)
      appendFile := fun _ _ _ w => (.ok (), w) }
  net :=
    { listen := fun _ w => (.ok [], w), accept := fun _ w => (.ok [], w)
      dial := fun _ w => (.ok [], w), write := fun _ w => (.ok (), w) }

/-- The state after a login on that server, by `u`. -/
def entered (s : Session) : State Unit :=
  { world := ()
    session := (s.named (lit "u")).entered { name := lit "u" }
    replies := [newReply codeUserOK (lit "Password required"), welcome liberal] }

section
variable [UnicodeTables] {s : Session}

theorem liberal_login (s : Session) (lines : List Bytes) :
    (conversation liberal { state := State.withSession { world := () } s }).after
        (lit "USER u" :: lit "PASS p" :: lines) =
      (conversation liberal { state := entered s }).after lines := by
  have huser : commandOf (lit "USER u") = some (.USER, lit "u") := rfl
  have hpass : commandOf (lit "PASS p") = some (.PASS, lit "p") := rfl
  have hfirst := serveLine_USER_withSession liberal huser { world := () } s
  have hsecond := serveLine_PASS_withSession hpass
    { world := (), replies := [newReply codeUserOK (lit "Password required")] }
    (show (s.named (lit "u")).user = lit "u" from rfl) (by decide)
    (show (liberal.authenticate (lit "u") (lit "p") ()).1 = .ok { name := lit "u" } from rfl)
  exact (after_served liberal hfirst _).trans (after_served liberal hsecond _)

theorem LoginIsolated.view_entered (h : LoginIsolated s) (lines : List Bytes) :
    ((conversation liberal { state := entered s }).after lines).view =
      ((conversation liberal { state := entered {} }).after lines).view := by
  have hsame := h Unit liberal { world := () } (lit "USER u") (lit "PASS p") (lit "u") (lit "p") rfl
    rfl (by rw [liberal_login]; rfl) lines
  rwa [liberal_login, liberal_login] at hsame

/-- `RNTO` alone: the filesystem is asked only if there is a source. -/
theorem LoginIsolated.renameTo (h : LoginIsolated s) : s.renameTo = [] := by
  by_contra hne
  have hline : serveLine liberal (entered s) (lit "RNTO y") =
      report liberal (rnto liberal (entered s) (lit "y")) := rfl
  have hold : ((conversation liberal { state := entered s }).after [lit "RNTO y"]).view.calls =
      [.resolve { name := lit "u" } (lit "/") (lit "y"),
        .rename { name := lit "u" } s.renameTo (lit "y")] := by
    show (serveLine liberal (entered s) (lit "RNTO y")).1.calls = _
    have hsource : (entered s).session.renameTo ≠ [] := hne
    rw [hline, report_calls, rnto, if_neg hsource]
    rfl
  rw [h.view_entered] at hold
  cases hold

/-- `LIST` alone: without a data channel the reply says so. -/
theorem LoginIsolated.passive (h : LoginIsolated s) : s.passive = none := by
  have hreplies (s : Session) :
      ((conversation liberal { state := entered s }).after [lit "LIST"]).view.replies =
        (report liberal (listTarget liberal (lit "/") (entered s))).1.replies := rfl
  have hnew : (report liberal (listTarget liberal (lit "/") (entered {}))).1.replies =
      (entered {}).replies ++ [newReply codeCantOpenData (lit "no data channel set up")] := rfl
  have hsame := congrArg View.replies (h.view_entered [lit "LIST"])
  rw [hreplies, hreplies, hnew] at hsame
  obtain ⟨user, auth, logged, cwd, renameTo, rest, type_, passive, dataTLS⟩ := s
  cases passive with
  | none => rfl
  | some p =>
    obtain ⟨ln, remote⟩ := p
    cases ln with
    | some ln => cases hsame
    | none =>
      cases remote with
      | nil | cons b remote => cases hsame

theorem LoginIsolated.rest (h : LoginIsolated s) : s.rest = 0 := by
  have hcalls (s : Session) : ((conversation liberal { state := entered s }).after
      [lit "PORT 1,2,3,4,5,6", lit "RETR f"]).view.calls =
        [.resolve { name := lit "u" } (lit "/") (lit "f"),
          .sendFile { name := lit "u" } (lit "f") s.rest] := by
    have hport : serveLine liberal (entered s) (lit "PORT 1,2,3,4,5,6") =
        ({ entered s with
            session.passive := some { remote := lit "1.2.3.4:1286" }
            replies := (entered s).replies ++ [newReply 200 (lit "PORT command successful")] },
          true) := rfl
    rw [after_served liberal hport]
    rfl
  have hsame := congrArg View.calls (h.view_entered [lit "PORT 1,2,3,4,5,6", lit "RETR f"])
  rw [hcalls, hcalls] at hsame
  injection hsame with _ htail
  injection htail with hsend _
  injection hsend

theorem loginIsolated_iff (s : Session) :
    LoginIsolated s ↔ s.renameTo = [] ∧ s.rest = 0 ∧ s.passive = none :=
  ⟨fun h => ⟨h.renameTo, h.rest, h.passive⟩,
    fun ⟨hrename, hrest, hpassive⟩ => Session.Clean.loginIsolated ⟨hrename, hrest, hpassive⟩⟩

end

section
attribute [local instance] asciiTables

/-- `a` names the source of a rename, `b` logs in on the same connection, and `RNTO` renames that
file; on a new connection it is out of sequence. -/
theorem not_loginIsolated_rename :
    let past := [lit "USER a", lit "PASS p", lit "RNFR x"]
    let later := [lit "USER b", lit "PASS p", lit "RNTO y"]
    let earlier := (conversation liberal (accepted liberal ())).after past
    ¬ LoginIsolated earlier.state.session ∧
      ((conversation liberal earlier).after later).state.calls = earlier.state.calls ++
        [.resolve { name := lit "b" } (lit "/") (lit "y"),
          .rename { name := lit "b" } (lit "x") (lit "y")] ∧
      ((conversation liberal (accepted liberal ())).after later).state.calls = [] := by
  intro past later earlier
  refine ⟨fun h => ?_, rfl, rfl⟩
  have hsource : earlier.state.session.renameTo = lit "x" := rfl
  rw [h.renameTo] at hsource
  exact absurd hsource (by decide)

end

end Ftp
