import GoProtocols.Ftp.Proof.Acts

/-!
# The gate of the login

Every call on the filesystem is made by a command that `dispatch` lets through only after a login,
and with the user of that login (`Acts`). Along a connection that user is one
that the authenticator has returned for the last name given (`Granted`): `authentication_gate`.
-/

namespace Ftp

open Go List

variable {W : Type} {pass : Bytes} {st : State W}

/-! ## Specification -/

/-- The line is not a `USER` command. -/
def NotUSER [UnicodeTables] (line : Bytes) : Prop := ∀ name, commandOf line ≠ some (.USER, name)

/-- The authenticator has returned the user for the name of the last `USER` of the lines, and a
password sent after it. -/
def Granted [UnicodeTables] (cfg : Config W) (world : W) (lines : List Bytes) (u : User) : Prop :=
  ∃ before userLine between passLine after name pass,
    lines = before ++ userLine :: (between ++ passLine :: after) ∧
      commandOf userLine = some (.USER, name) ∧ commandOf passLine = some (.PASS, pass) ∧
      (∀ line ∈ between ++ passLine :: after, NotUSER line) ∧
      let sent := before ++ userLine :: between
      (cfg.authenticate name pass
        ((conversation cfg (accepted cfg world)).after sent).state.world).1 = .ok u

/-- What a line does to the login, and what it does with it. -/
structure Gated [UnicodeTables] (cfg : Config W) (world : W) (lines : List Bytes) (st : State W)
    (line : Bytes) (st' : State W) : Prop where
  /-- Calls are made for a user that was granted, while that user is logged in. -/
  calls : ∃ made, st'.calls = st.calls ++ made ∧ ∀ call ∈ made, st.session.logged = true ∧
    st'.session.logged = true ∧ call.user = st.session.auth ∧ call.user = st'.session.auth ∧
      Granted cfg world lines call.user
  /-- `USER` ends the login. -/
  user : ∀ name, commandOf line = some (.USER, name) →
    st'.session.logged = false ∧ st'.session.auth = {}
  /-- A `PASS` that fails changes nothing. -/
  pass : ∀ pass, commandOf line = some (.PASS, pass) →
    (st.session.user = [] ∨
      ∃ e, (cfg.authenticate st.session.user pass st.world).1 = .error e) →
        st'.session = st.session

/-! ## Connections -/

section
variable [UnicodeTables] {cfg : Config W} {world : W} {lines : List Bytes} {line : Bytes} {u : User}
  {name : Bytes}

theorem Granted.concat (h : Granted cfg world lines u) (hline : NotUSER line) :
    Granted cfg world (lines ++ [line]) u := by
  obtain ⟨before, userLine, between, passLine, after, name, pass, rfl, huser, hpass, hnot, hok⟩ := h
  refine ⟨before, userLine, between, passLine, after ++ [line], name, pass, by simp, huser, hpass,
    ?_, hok⟩
  rw [← cons_append, ← append_assoc]
  exact forall_mem_append.2 ⟨hnot, forall_mem_singleton.2 hline⟩

/-- The name is that of the last `USER` of the lines. -/
def LastUSER (lines : List Bytes) (name : Bytes) : Prop :=
  ∃ before userLine after, lines = before ++ userLine :: after ∧
    commandOf userLine = some (.USER, name) ∧ ∀ line ∈ after, NotUSER line

theorem LastUSER.concat (h : LastUSER lines name) (hline : NotUSER line) :
    LastUSER (lines ++ [line]) name := by
  obtain ⟨before, userLine, after, rfl, huser, hnot⟩ := h
  exact ⟨before, userLine, after ++ [line], by simp, huser,
    forall_mem_append.2 ⟨hnot, forall_mem_singleton.2 hline⟩⟩

/-- The login of an open connection is that of its lines. -/
structure Established (cfg : Config W) (world : W) (lines : List Bytes) (s : Session) : Prop where
  user : s.user ≠ [] → LastUSER lines s.user
  auth : s.logged = true → Granted cfg world lines s.auth

theorem Established.concat {s : Session} (h : Established cfg world lines s)
    (hline : NotUSER line) : Established cfg world (lines ++ [line]) s :=
  ⟨fun hne => (h.user hne).concat hline, fun hl => (h.auth hl).concat hline⟩

theorem Acts.gated {st' : State W} (h : Acts cfg st st')
    (hest : Established cfg world lines st.session) (huser : NotUSER line)
    (hpass : ∀ pass, commandOf line ≠ some (.PASS, pass)) : Gated cfg world lines st line st' := by
  obtain ⟨made, hmade, hall⟩ := h.calls
  refine ⟨⟨made, hmade, fun call hcall => ?_⟩, fun name hname => absurd hname (huser name),
    fun pass hp => absurd hp (hpass pass)⟩
  obtain ⟨hl, hauth, -⟩ := hall call hcall
  exact ⟨hl, h.logged.trans hl, hauth, hauth.trans h.auth.symm, hauth ▸ hest.auth hl⟩

theorem notUSER_of_PASS (h : commandOf line = some (.PASS, pass)) : NotUSER line :=
  fun name hname => by simp [h] at hname

theorem established_USER (hname : commandOf line = some (.USER, name)) (st : State W) :
    Established cfg world (lines ++ [line]) (serveLine cfg st line).1.session ∧
      Gated cfg world lines st line (serveLine cfg st line).1 := by
  have hsession : (serveLine cfg st line).1.session =
      { st.session with user := name, auth := {}, logged := false } := by
    rw [serveLine_USER cfg hname, report_session, handleUSER, reply_session]
  have hcalls : (serveLine cfg st line).1.calls = st.calls := by
    rw [serveLine_USER cfg hname, report_calls, handleUSER, reply_calls]
  have hpass : ∀ pass, commandOf line ≠ some (.PASS, pass) := fun pass hp => by simp [hname] at hp
  rw [hsession]
  refine ⟨⟨fun _ => ⟨lines, line, [], rfl, hname, nofun⟩, nofun⟩,
    ⟨[], by simp [hcalls], nofun⟩, fun _ _ => by simp [hsession],
    fun pass hp => absurd hp (hpass pass)⟩

theorem established_PASS (hpass : commandOf line = some (.PASS, pass))
    (hst : st = ((conversation cfg (accepted cfg world)).after lines).state)
    (h : Established cfg world lines st.session) :
    Established cfg world (lines ++ [line]) (serveLine cfg st line).1.session ∧
      Gated cfg world lines st line (serveLine cfg st line).1 := by
  have hnot := notUSER_of_PASS hpass
  obtain ⟨hcalls, hcases⟩ := handlePASS_cases cfg st pass
  rw [← report_calls cfg, ← serveLine_PASS cfg hpass] at hcalls
  rw [← report_session cfg, ← serveLine_PASS cfg hpass] at hcases
  have hmade : (serveLine cfg st line).1.calls = st.calls ++ [] := by rw [hcalls, append_nil]
  rcases hcases with hsame | ⟨u, hne, hok, hnew⟩
  · exact ⟨hsame ▸ h.concat hnot, ⟨[], hmade, nofun⟩, fun name hname => absurd hname (hnot name),
      fun _ _ _ => hsame⟩
  · refine ⟨⟨fun _ => ?_, fun _ => ?_⟩, ⟨[], hmade, nofun⟩,
      fun name hname => absurd hname (hnot name), fun pass' hpass' hfails => ?_⟩
    · rw [hnew]
      exact (h.user hne).concat hnot
    · obtain ⟨before, userLine, after, hlines, huser, hafter⟩ := h.user hne
      rw [hnew]
      refine ⟨before, userLine, after, line, [], st.session.user, pass, by simp [hlines], huser,
        hpass, forall_mem_append.2 ⟨hafter, forall_mem_singleton.2 hnot⟩, ?_⟩
      dsimp only
      rw [← hlines, ← hst]
      exact hok
    · obtain rfl : pass = pass' := by simpa [hpass] using hpass'
      rcases hfails with hnil | ⟨e, he⟩
      · exact absurd hnil hne
      · cases hok.symm.trans he

theorem Established.step (hst : st = ((conversation cfg (accepted cfg world)).after lines).state)
    (h : Established cfg world lines st.session) (line : Bytes) :
    Established cfg world (lines ++ [line]) (serveLine cfg st line).1.session ∧
      Gated cfg world lines st line (serveLine cfg st line).1 := by
  by_cases huser : NotUSER line
  · by_cases hpass : ∃ pass, commandOf line = some (.PASS, pass)
    · obtain ⟨pass, hpass⟩ := hpass
      exact established_PASS hpass hst h
    · have hpass : ∀ pass, commandOf line ≠ some (.PASS, pass) := fun pass hp => hpass ⟨pass, hp⟩
      have hacts : Acts cfg st (serveLine cfg st line).1 := serveLine_acts huser hpass
      refine ⟨⟨fun hne => ?_, fun hl => ?_⟩, hacts.gated h huser hpass⟩
      · rw [hacts.user] at hne ⊢
        exact (h.user hne).concat huser
      · rw [hacts.logged] at hl
        rw [hacts.auth]
        exact (h.auth hl).concat huser
  · obtain ⟨name, hname⟩ : ∃ name, commandOf line = some (.USER, name) := by
      simpa [NotUSER] using huser
    exact established_USER hname st

variable (cfg : Config W) (world : W) (lines : List Bytes)

theorem established (hopen : ((conversation cfg (accepted cfg world)).after lines).isOpen = true) :
    Established cfg world lines
      ((conversation cfg (accepted cfg world)).after lines).state.session := by
  induction lines using List.reverseRecOn with
  | nil =>
    rw [System.after_nil, conversation, accepted_session]
    exact ⟨fun hne => absurd rfl hne, by simp⟩
  | append_singleton lines line ih =>
    rw [System.after_concat] at hopen ⊢
    generalize hc : (conversation cfg (accepted cfg world)).after lines = c at ih hopen
    change (Control.step cfg c line).isOpen = true at hopen
    change Established cfg world _ (Control.step cfg c line).state.session
    cases hwas : c.isOpen with
    | false => simp [Control.step, hwas] at hopen
    | true =>
      rw [Control.step, if_pos hwas]
      exact ((ih hwas).step (by rw [hc]) line).1

/-- **Every line that is read passes the gate**: calls on the filesystem are made only during a
login, for the user that the authenticator returned for the last name given; `USER` ends a login, and
a `PASS` that fails changes none. -/
theorem authentication_gate :
    (conversation cfg (accepted cfg world)).Each
      (fun sent c line => c.isOpen = true →
        Gated cfg world sent c.state line (Control.step cfg c line).state) lines := by
  intro sent line _ hopen
  rw [Control.step, if_pos hopen]
  exact ((established cfg world sent hopen).step rfl line).2

end

end Ftp
