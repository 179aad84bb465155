import GoProtocols.Ftp.Control
import Mathlib.Logic.Relation

/-!
# What a command does

The commands other than `USER` and `PASS` are made of few moves (`dispatch_moves`), and what a move
keeps, they keep. `Acts` is so kept: they leave the login alone, call the filesystem during a login
and for its user only, and use no paths but those that the session has or that the filesystem
resolves for it (`State.Knows`).
-/

namespace Ftp

open Go List Relation

variable {W : Type}

/-- The paths that a command may use: the working directory, the path of a pending rename, and what
the filesystem resolves. -/
def State.Knows (cfg : Config W) (st : State W) (path : Bytes) : Prop :=
  path = st.session.cwd ∨ st.session.renameTo ≠ [] ∧ path = st.session.renameTo ∨
    ∃ arg w, (cfg.filesystem.resolve st.session.auth st.session.cwd arg w).1 = .ok path

structure Acts (cfg : Config W) (st st' : State W) : Prop where
  user : st'.session.user = st.session.user
  auth : st'.session.auth = st.session.auth
  logged : st'.session.logged = st.session.logged
  cwd : st.Knows cfg st'.session.cwd
  renameTo : st'.session.renameTo = [] ∨ st.Knows cfg st'.session.renameTo
  calls : ∃ made, st'.calls = st.calls ++ made ∧ ∀ call ∈ made,
    st.session.logged = true ∧ call.user = st.session.auth ∧ ∀ p ∈ call.paths, st.Knows cfg p

variable {cfg : Config W} {v : Verb} {st st' st'' : State W} {α : Type}
  {call : User → Bytes → FsCall} {a : α}

/-! ## Moves -/

/-- The offset of a file that is sent. -/
def FsCall.offset : FsCall → Option Int64
  | .sendFile _ _ offset => some offset
  | _ => none

/-- A call that a command begun in the state `st` may make. -/
structure Permitted (cfg : Config W) (st st' : State W) (call : FsCall) : Prop where
  logged : st.session.logged = true
  user : call.user = st'.session.auth
  paths : ∀ p ∈ call.paths, st.Knows cfg p
  offset : ∀ o ∈ call.offset, o = st'.session.rest

/-- One step of the command `v`, begun in the state `st`. -/
inductive Move (cfg : Config W) (v : Verb) (st st' : State W) : State W → Prop
  | reply (r : Reply) : Move cfg v st st' (st'.reply cfg r).1
  | ask {α : Type} {call : FsCall} (q : Ask W α) (h : Permitted cfg st st' call) :
      Move cfg v st st' (st'.ask call q).2
  | set (world : W) (dataSent : List Bytes) (type_ : Bytes) (dataTLS : Bool)
      (passive : Option PassiveListener) :
      Move cfg v st st' { st' with
        world, dataSent, session.type_ := type_, session.dataTLS := dataTLS
        session.passive := passive }
  | cwd {target : Bytes} (h : st.Knows cfg target) :
      Move cfg v st st' { st' with session.cwd := target }
  | renameTo {target : Bytes} (h : target = [] ∨ st.Knows cfg target) :
      Move cfg v st st' { st' with session.renameTo := target }
  | rest (offset : Int64) (h : v = .REST) :
      Move cfg v st st' { st' with session.rest := offset }
  | listen (world : W) (passive : Option PassiveListener) (h : v = .PASV ∨ v = .EPSV) :
      Move cfg v st st' { st' with
        world, listeners := st'.listeners + 1, session.passive := passive }

abbrev Moves (cfg : Config W) (v : Verb) (st : State W) : State W → Prop :=
  ReflTransGen (Move cfg v st) st

theorem moves_ask (h : Moves cfg v st st') {c : FsCall} {q : Ask W α}
    (he : st'.ask c q = (a, st'')) (hc : Permitted cfg st st' c) : Moves cfg v st st'' := by
  obtain rfl := congrArg Prod.snd he
  exact h.tail (.ask q hc)

theorem moves_acceptData (h : Moves cfg v st st') : Moves cfg v st (acceptData cfg st').2 := by
  unfold acceptData
  repeat' split
  all_goals exact .tail h (.set _ _ _ _ _)

theorem moves_withData (h : Moves cfg v st st') {k : Bytes → State W → Res W}
    (hk : ∀ data st'', Moves cfg v st st'' → Moves cfg v st (k data st'').1) :
    Moves cfg v st (withData cfg st' k).1 := by
  have hacc : Moves cfg v st (acceptData cfg st').2 := moves_acceptData h
  unfold withData
  split
  · rename_i e st'' he
    rw [he] at hacc
    exact .tail hacc (.reply _)
  · rename_i data st'' he
    rw [he] at hacc
    have hopen : Moves cfg v st (st''.reply cfg _).1 :=
      .tail hacc (.reply (newReply codeDataOpen (lit "Opening data connection")))
    split
    · rename_i st₃ e hr
      rwa [hr] at hopen
    · rename_i st₃ u hr
      rw [hr] at hopen
      exact hk data st₃ hopen

section
variable (hl : st.session.logged = true)
include hl

theorem moves_withTarget (arg : Bytes) {k : Bytes → State W → Res W}
    (hk : ∀ target st', st.Knows cfg target → Moves cfg v st st' → st'.session = st.session →
      Moves cfg v st (k target st').1) : Moves cfg v st (withTarget cfg st arg k).1 := by
  unfold withTarget
  split <;> rename_i he <;>
    have hask : Moves cfg v st _ := moves_ask .refl he ⟨hl, rfl, by simp [FsCall.paths], nofun⟩
  · exact .tail hask (.reply _)
  · have hsame := congrArg (fun q => State.session q.2) he.symm
    exact hk _ _ (.inr (.inr ⟨arg, st.world, congrArg Prod.fst he⟩)) hask hsame

theorem moves_ask_path (h : Moves cfg v st st') {path : Bytes} (hpath : st.Knows cfg path)
    {c : FsCall} {q : Ask W α} (he : st'.ask c q = (a, st''))
    (hc : c.user = st'.session.auth ∧ c.paths = [path] ∧ ∀ o ∈ c.offset, o = st'.session.rest) :
    Moves cfg v st st'' :=
  moves_ask h he ⟨hl, hc.1, by simpa [hc.2.1] using hpath, hc.2.2⟩

theorem cwd2_moves (arg : Bytes) : Moves cfg v st (cwd2 cfg st arg).1 := by
  refine moves_withTarget hl arg fun target st' htarget h' _ => ?_
  split <;> rename_i he <;> have hask := moves_ask_path hl h' htarget he ⟨rfl, rfl, nofun⟩
  · exact .tail hask (.reply _)
  · split
    · exact .tail (.tail hask (.cwd htarget)) (.reply _)
    · exact .tail hask (.reply _)

theorem listTarget_moves (h : Moves cfg v st st') {target : Bytes}
    (htarget : st.Knows cfg target) : Moves cfg v st (listTarget cfg target st').1 := by
  unfold listTarget
  split <;> rename_i he <;> have hask := moves_ask_path hl h htarget he ⟨rfl, rfl, nofun⟩
  · exact .tail hask (.reply _)
  · exact moves_withData hask fun data st₃ h₃ => .tail (.tail h₃ (.set _ _ _ _ _)) (.reply _)

theorem retr_moves (arg : Bytes) : Moves cfg v st (retr cfg st arg).1 := by
  refine moves_withTarget hl arg fun target st' htarget h' _ =>
    moves_withData h' fun data st'' h'' => ?_
  split <;> rename_i he <;>
    have hask := moves_ask_path hl h'' htarget he ⟨rfl, rfl, by simp [FsCall.offset]⟩ <;>
    exact .tail (.tail hask (.set _ _ _ _ _)) (.reply _)

section
variable (hcall : ∀ u p, (call u p).user = u ∧ (call u p).paths = [p] ∧ (call u p).offset = none)
include hcall

theorem upload_moves (method : User → Bytes → Bytes → Ask W (Except Bytes Unit)) (arg : Bytes) :
    Moves cfg v st (upload cfg call method st arg).1 := by
  refine moves_withTarget hl arg fun target st' htarget h' _ =>
    moves_withData h' fun data st'' h'' => ?_
  obtain ⟨huser, hpaths, hoffset⟩ := hcall st''.session.auth target
  split <;> rename_i he <;>
    exact .tail (moves_ask_path hl h'' htarget he ⟨huser, hpaths, by simp [hoffset]⟩) (.reply _)

theorem askTarget_moves (method : User → Bytes → Ask W (Except Bytes α))
    (done : Bytes → α → Reply) (arg : Bytes) :
    Moves cfg v st (askTarget cfg call method done st arg).1 := by
  refine moves_withTarget hl arg fun target st' htarget h' _ => ?_
  obtain ⟨huser, hpaths, hoffset⟩ := hcall st'.session.auth target
  split <;> rename_i he <;>
    exact .tail (moves_ask_path hl h' htarget he ⟨huser, hpaths, by simp [hoffset]⟩) (.reply _)

end

theorem rnto_moves (arg : Bytes) : Moves cfg v st (rnto cfg st arg).1 := by
  unfold rnto
  split
  · exact .single (.reply _)
  · rename_i hne
    refine moves_withTarget hl arg fun target st' htarget h' hsame => ?_
    have hpaths : ∀ p ∈ [st'.session.renameTo, target], st.Knows cfg p := by
      rw [hsame]
      exact forall_mem_cons.2 ⟨.inr (.inl ⟨hne, rfl⟩), forall_mem_singleton.2 htarget⟩
    split <;> rename_i he <;> have hask := moves_ask h' he ⟨hl, rfl, hpaths, nofun⟩
    · exact .tail hask (.reply _)
    · exact .tail (.tail hask (.renameTo (.inl rfl))) (.reply _)

end

/-- **Every command but `USER` and `PASS` is made of moves.** -/
theorem dispatch_moves [UnicodeTables] {c : Command} (huser : verbOf c.name ≠ .USER)
    (hpass : verbOf c.name ≠ .PASS) : Moves cfg (verbOf c.name) st (dispatch cfg st c).1 := by
  unfold dispatch
  split
  · exact .refl
  · rename_i hgate
    -- after the gate, what is not let through before a login has one
    have hl (hv : (verbOf c.name).beforeLogin = false) : st.session.logged = true := by
      by_contra hnot
      exact hgate ⟨by simpa using hnot, by simp [hv]⟩
    cases hv : verbOf c.name with
    | USER => exact absurd hv huser
    | PASS => exact absurd hv hpass
    | CWD | CDUP => exact cwd2_moves (hl (by rw [hv]; rfl)) _
    | TYPE | PORT | EPRT | PROT =>
      simp only [type2, port, eprt, prot]
      repeat' split
      all_goals exact .tail (.single (.set _ _ _ _ _)) (.reply _)
    | PASV | EPSV =>
      simp only [pasv, epsv, passiveReply]
      split
      · exact .tail (.single (.set _ _ _ _ _)) (.reply _)
      · exact .tail (.single (.listen _ _ (by simp))) (.reply _)
    | LIST | NLST =>
      have hlogged := hl (by rw [hv]; rfl)
      simp only [list]
      split
      · exact listTarget_moves hlogged .refl (.inl rfl)
      · exact moves_withTarget hlogged _ fun _ _ htarget h' _ => listTarget_moves hlogged h' htarget
    | RETR => exact retr_moves (hl (by rw [hv]; rfl)) c.arg
    | STOR | APPE => exact upload_moves (hl (by rw [hv]; rfl)) (fun _ _ => ⟨rfl, rfl, rfl⟩) _ c.arg
    | DELE | RMD | MKD | SIZE | MDTM =>
      exact askTarget_moves (hl (by rw [hv]; rfl)) (fun _ _ => ⟨rfl, rfl, rfl⟩) _ _ c.arg
    | RNFR =>
      exact moves_withTarget (hl (by rw [hv]; rfl)) c.arg fun _ _ htarget h' _ =>
        .tail (.tail h' (.renameTo (.inr htarget))) (.reply _)
    | RNTO => exact rnto_moves (hl (by rw [hv]; rfl)) c.arg
    | REST =>
      simp only [rest2]
      split
      · exact .single (.reply _)
      · exact .tail (.single (.rest _ rfl)) (.reply _)
    | _ => exact .single (.reply _)

/-! ## What moves keep -/


theorem Acts.refl (st : State W) : Acts cfg st st :=
  ⟨rfl, rfl, rfl, .inl rfl, or_iff_not_imp_left.2 fun h => .inr (.inl ⟨h, rfl⟩), [], by simp, by simp⟩

theorem Acts.reply (h : Acts cfg st st') (r : Reply) : Acts cfg st (st'.reply cfg r).1 := by
  unfold State.reply
  split <;> exact ⟨h.user, h.auth, h.logged, h.cwd, h.renameTo, h.calls⟩

theorem Move.acts (hm : Move cfg v st st' st'') (h : Acts cfg st st') : Acts cfg st st'' := by
  cases hm with
  | reply r => exact h.reply r
  | ask q hp =>
    obtain ⟨made, hmade, hall⟩ := h.calls
    refine { h with calls := ⟨made ++ [_], ?_, forall_mem_append.2 ⟨hall,
      forall_mem_singleton.2 ⟨hp.logged, hp.user.trans h.auth, hp.paths⟩⟩⟩ }
    rw [State.ask, hmade, append_assoc]
  | set | rest | listen => exact ⟨h.user, h.auth, h.logged, h.cwd, h.renameTo, h.calls⟩
  | cwd hk => exact { h with cwd := hk }
  | renameTo hk => exact { h with renameTo := hk }

/-- **Every command but `USER` and `PASS` leaves the login alone, and acts for its user only.** -/
theorem Moves.acts (h : Moves cfg v st st') : Acts cfg st st' := by
  induction h with
  | refl => exact .refl st
  | tail _ hm ih => exact hm.acts ih

/-! ## Lines -/

theorem handlePASS_cases (cfg : Config W) (st : State W) (pass : Bytes) :
    (handlePASS cfg st pass).1.calls = st.calls ∧
      ((handlePASS cfg st pass).1.session = st.session ∨
        ∃ u, st.session.user ≠ [] ∧
          (cfg.authenticate st.session.user pass st.world).1 = .ok u ∧
          (handlePASS cfg st pass).1.session =
            { st.session with auth := u, logged := true, cwd := lit "/" }) := by
  unfold handlePASS
  split
  · exact ⟨by simp, .inl (by simp)⟩
  · rename_i hne
    split
    · exact ⟨by simp, .inl (by simp)⟩
    · rename_i u world hauth
      exact ⟨by simp, .inr ⟨u, hne, congrArg Prod.fst hauth, by simp⟩⟩

theorem serveLine_acts [UnicodeTables] {line : Bytes}
    (huser : ∀ name, commandOf line ≠ some (.USER, name))
    (hpass : ∀ pass, commandOf line ≠ some (.PASS, pass)) :
    Acts cfg st (serveLine cfg st line).1 := by
  cases hcommand : commandOf line with
  | none =>
    rw [serveLine_none cfg hcommand]
    exact (Acts.refl st).reply _
  | some q =>
    obtain ⟨c, hv, -, hserve⟩ := serveLine_command cfg hcommand
    have hacts : Acts cfg st (dispatch cfg st c).1 := by
      refine Moves.acts (dispatch_moves (fun hc => huser q.2 ?_) fun hc => hpass q.2 ?_)
      · rw [hcommand, ← hc, hv]
      · rw [hcommand, ← hc, hv]
    rw [hserve]
    rcases report_eq cfg (dispatch cfg st c) with h | ⟨e, h⟩
    · rwa [h]
    · rw [h]
      exact hacts.reply e

end Ftp
