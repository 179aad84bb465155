import GoProtocols.Ftp.Transfer

/-!
# What a session holds on to

The restart offset and the passive listeners outlive the commands that they are for. Both are
touched by few commands (`Frame`), and none of these gives them up: a transfer leaves the offset to
the next one (`restart_iff`), and no listener is ever closed (`listeners_iff`). A command without an
argument acts on the working directory (`harmless_iff`).
-/

namespace Ftp

open Go List

variable {W : Type} {cfg : Config W} {st st' : State W}

/-! ## Commands that touch neither -/

/-- The offset and the listeners are the same, and files are sent from the offset. -/
structure Frame (st st' : State W) : Prop where
  rest : st'.session.rest = st.session.rest
  listeners : st'.listeners = st.listeners
  calls : ∃ made, st'.calls = st.calls ++ made ∧
    ∀ u path offset, .sendFile u path offset ∈ made → offset = st.session.rest

theorem Frame.refl (st : State W) : Frame st st := ⟨rfl, rfl, [], by simp, by simp⟩

theorem frame_reply {r : Reply} : Frame st (st'.reply cfg r).1 ↔ Frame st st' := by
  unfold State.reply
  split <;> exact ⟨fun h => ⟨h.rest, h.listeners, h.calls⟩, fun h => ⟨h.rest, h.listeners, h.calls⟩⟩

theorem Frame.reply (h : Frame st st') (r : Reply) : Frame st (st'.reply cfg r).1 := frame_reply.2 h

theorem Frame.of_eq {st'' : State W} (h : Frame st st')
    (hrest : st''.session.rest = st'.session.rest)
    (hlisteners : st''.listeners = st'.listeners) (hcalls : st''.calls = st'.calls) :
    Frame st st'' :=
  ⟨hrest.trans h.rest, hlisteners.trans h.listeners, hcalls ▸ h.calls⟩

theorem Move.frame {v : Verb} {st'' : State W} (hm : Move cfg v st st' st'') (hrest : v ≠ .REST)
    (hpasv : v ≠ .PASV) (hepsv : v ≠ .EPSV) (h : Frame st st') : Frame st st'' := by
  cases hm with
  | reply r => exact h.reply r
  | ask q hp =>
    obtain ⟨made, hmade, hall⟩ := h.calls
    refine ⟨h.rest, h.listeners, made ++ [_], by rw [State.ask, hmade, append_assoc], ?_⟩
    intro u path offset hmem
    rcases mem_append.1 hmem with hmem | hmem
    · exact hall u path offset hmem
    · exact (hp.offset offset (mem_singleton.1 hmem ▸ rfl)).trans h.rest
  | set | cwd | renameTo => exact h.of_eq rfl rfl rfl
  | rest _ hv => exact absurd hv hrest
  | listen _ _ hv => exact absurd hv (not_or.2 ⟨hpasv, hepsv⟩)

/-- **Every command but `REST`, `PASV` and `EPSV` leaves the offset and the listeners.** -/
theorem dispatch_frame [UnicodeTables] {c : Command} (hrest : verbOf c.name ≠ .REST)
    (hpasv : verbOf c.name ≠ .PASV) (hepsv : verbOf c.name ≠ .EPSV) :
    Frame st (dispatch cfg st c).1 := by
  by_cases hlogin : verbOf c.name = .USER ∨ verbOf c.name = .PASS
  · rw [dispatch, if_neg (by rcases hlogin with h | h <;> simp [h, Verb.beforeLogin])]
    rcases hlogin with h | h <;> rw [h]
    · exact frame_reply.2 ((Frame.refl st).of_eq rfl rfl rfl)
    · simp only [handlePASS]
      repeat' split
      all_goals exact frame_reply.2 ((Frame.refl st).of_eq rfl rfl rfl)
  · obtain ⟨huser, hpass⟩ := not_or.1 hlogin
    have hmoves : Moves cfg (verbOf c.name) st (dispatch cfg st c).1 := dispatch_moves huser hpass
    generalize (dispatch cfg st c).1 = st' at hmoves
    induction hmoves with
    | refl => exact .refl st
    | tail _ hm ih => exact hm.frame hrest hpasv hepsv ih

/-! ## Lines -/

@[simp] theorem reply_listeners (r : Reply) : (st.reply cfg r).1.listeners = st.listeners :=
  (frame_reply.2 (Frame.refl st)).listeners

@[simp] theorem report_listeners (r : Res W) : (report cfg r).1.listeners = r.1.listeners := by
  rcases report_eq cfg r with h | ⟨e, h⟩ <;> simp [h]

section
variable [UnicodeTables] {line : Bytes}

/-- The offset that a `REST` asks for. -/
def restOf (arg : Bytes) (old : Int64) : Int64 :=
  match parseInt (trimSpace arg) with
  | .ok n => Int64.ofInt n
  | .error _ => old

/-- The offset after a line. -/
def restAfter (st : State W) (line : Bytes) : Int64 :=
  match commandOf line with
  | some (.REST, arg) => if st.session.logged then restOf arg st.session.rest else st.session.rest
  | _ => st.session.rest

/-- The line opens a passive listener. -/
def Opens (cfg : Config W) (st : State W) (line : Bytes) : Prop :=
  st.session.logged = true ∧
    (∃ arg, commandOf line = some (.PASV, arg) ∨ commandOf line = some (.EPSV, arg)) ∧
    ∃ addr, (openPassive cfg st.world).1 = .ok addr

/-- What a line does to what the session holds. -/
structure Holds (cfg : Config W) (st : State W) (line : Bytes) (st' : State W) : Prop where
  rest : st'.session.rest = restAfter st line
  opened : Opens cfg st line → st'.listeners = st.listeners + 1
  kept : ¬ Opens cfg st line → st'.listeners = st.listeners
  calls : ∃ made, st'.calls = st.calls ++ made ∧
    ∀ u path offset, .sendFile u path offset ∈ made → offset = st.session.rest

theorem Frame.holds (h : Frame st st') (hrest : restAfter st line = st.session.rest)
    (hnot : ¬ Opens cfg st line) : Holds cfg st line st' :=
  ⟨h.rest.trans hrest.symm, fun ho => absurd ho hnot, fun _ => h.listeners, h.calls⟩

theorem passiveReply_holds (hl : st.session.logged = true) {arg : Bytes}
    (hline : commandOf line = some (.PASV, arg) ∨ commandOf line = some (.EPSV, arg))
    (announce : Bytes → Reply) : Holds cfg st line (passiveReply cfg st announce).1 := by
  have hrest : restAfter st line = st.session.rest := by
    unfold restAfter
    rcases hline with h | h <;> rw [h]
  unfold passiveReply
  split
  · rename_i e world he
    refine Frame.holds (frame_reply.2 ((Frame.refl st).of_eq rfl rfl rfl)) hrest fun ho => ?_
    obtain ⟨addr, haddr⟩ := ho.2.2
    simp [he] at haddr
  · rename_i addr world he
    exact ⟨by simp [hrest], fun _ => by simp,
      fun hnot => absurd ⟨hl, ⟨arg, hline⟩, addr, by rw [he]⟩ hnot, [], by simp, by simp⟩

theorem dispatch_holds {c : Command} (hc : commandOf line = some (verbOf c.name, c.arg)) :
    Holds cfg st line (dispatch cfg st c).1 := by
  by_cases hgate : ¬ st.session.logged ∧ ¬ (verbOf c.name).beforeLogin
  · rw [dispatch, if_pos hgate]
    refine (Frame.refl st).holds ?_ fun ho => hgate.1 ho.1
    simp only [restAfter, hgate.1]
    split <;> simp
  · have hl : (verbOf c.name).beforeLogin = false → st.session.logged = true := fun hb => by
      simpa [hb] using hgate
    by_cases hrest : verbOf c.name = .REST
    · have hlogged := hl (by rw [hrest]; rfl)
      have hno : ¬ Opens cfg st line := fun ho => by
        obtain ⟨arg, h⟩ := ho.2.1
        simp [hc, hrest] at h
      rw [dispatch, if_neg hgate, hrest]
      refine ⟨?_, fun ho => absurd ho hno, fun _ => ?_, [], ?_, by simp⟩
      · simp only [restAfter, hc, hrest, hlogged, rest2, restOf]
        cases parseInt (trimSpace c.arg) <;> simp
      all_goals
        simp only [rest2]
        split <;> simp
    · by_cases hpassive : verbOf c.name = .PASV ∨ verbOf c.name = .EPSV
      · have hline : commandOf line = some (.PASV, c.arg) ∨ commandOf line = some (.EPSV, c.arg) := by
          rcases hpassive with h | h <;> simp [hc, h]
        have hlogged := hl (by rcases hpassive with h | h <;> rw [h] <;> rfl)
        rw [dispatch, if_neg hgate]
        rcases hpassive with h | h <;> rw [h] <;> exact passiveReply_holds hlogged hline _
      · obtain ⟨hpasv, hepsv⟩ := not_or.1 hpassive
        refine (dispatch_frame hrest hpasv hepsv).holds ?_ fun ho => ?_
        · unfold restAfter
          split
          · rename_i arg h
            simp [hc, hrest] at h
          · rfl
        · obtain ⟨arg, h⟩ := ho.2.1
          simp [hc, hpasv, hepsv] at h

/-- **A line sets the offset if it is a `REST`, and a listener is opened by it or none is.** -/
theorem serveLine_holds (cfg : Config W) (st : State W) (line : Bytes) :
    Holds cfg st line (serveLine cfg st line).1 := by
  cases hc : commandOf line with
  | none =>
    rw [serveLine_none cfg hc]
    refine ((Frame.refl st).reply _).holds (by simp [restAfter, hc]) fun ho => ?_
    obtain ⟨arg, h⟩ := ho.2.1
    simp [hc] at h
  | some q =>
    obtain ⟨v, arg⟩ := q
    obtain ⟨c, rfl, rfl, hserve⟩ := serveLine_command cfg hc
    have h : Holds cfg st line (dispatch cfg st c).1 := dispatch_holds hc
    rw [hserve]
    exact ⟨by simp [h.rest], fun ho => by simp [h.opened ho], fun ho => by simp [h.kept ho],
      by simpa using h.calls⟩

/-! ## Listeners -/

variable (cfg) (world : W) (lines : List Bytes)

theorem listeners_step (c : Control W) (line : Bytes) : (c.step cfg line).state.listeners = 0 ↔
    c.state.listeners = 0 ∧ ¬ (c.isOpen = true ∧ Opens cfg c.state line) := by
  have h := serveLine_holds cfg c.state line
  unfold Control.step
  by_cases hopen : c.isOpen = true
  · by_cases ho : Opens cfg c.state line
    · simp [hopen, ho, h.opened ho]
    · simp [hopen, ho, h.kept ho]
  · simp [hopen]

theorem listeners_after : ((conversation cfg (accepted cfg world)).after lines).state.listeners = 0 ↔
    (conversation cfg (accepted cfg world)).Each
      (fun _ c line => ¬ (c.isOpen = true ∧ Opens cfg c.state line)) lines := by
  induction lines using List.reverseRecOn with
  | nil =>
    refine ⟨fun _ => System.each_nil _, fun _ => ?_⟩
    have hgreet : (State.reply cfg { world } (newReply codeReady cfg.banner)).1.listeners = 0 :=
      reply_listeners _
    rw [System.after_nil]
    simp only [conversation, accepted]
    split <;> rename_i h <;> rwa [h] at hgreet
  | append_singleton lines line ih =>
    rw [System.after_concat, System.each_concat, ← ih]
    exact listeners_step cfg _ line

/-- **No listener is left open exactly if none is opened.** -/
theorem listeners_iff :
    (conversation cfg (accepted cfg world)).Throughout (fun _ c => c.state.listeners ≤ 1 ∧
        (c.state.session.passive.bind PassiveListener.ln = none → c.state.listeners = 0)) lines ∧
      (handleConn cfg world lines).listeners = 0 ↔
    (conversation cfg (accepted cfg world)).Each
      (fun _ c line => ¬ (c.isOpen = true ∧ Opens cfg c.state line)) lines := by
  rw [← handleConn_eq, listeners_after]
  refine ⟨fun h => h.2, fun h => ⟨fun es hes => ?_, h⟩⟩
  have hzero := (listeners_after cfg world es).2 fun es' e hes' => h es' e (hes'.trans hes)
  simp [hzero]

/-! ## The offset of a transfer -/

/-- The last offset that a `REST` has set, and the one that the next `RETR` is due. -/
structure Restart where
  latest : Int64 := 0
  due : Int64 := 0

/-- A `REST` sets the offset of the next transfer only. -/
def Restart.next (r : Restart) (st : State W) (line : Bytes) : Restart :=
  if st.session.logged then
    match commandOf line with
    | some (.REST, arg) => { latest := restOf arg r.latest, due := restOf arg r.due }
    | some (.RETR, _) | some (.STOR, _) | some (.APPE, _) => { r with due := 0 }
    | _ => r
  else r

/-- The conversation, with the offsets that its lines set. -/
def transfers : System (Control W × Restart) Bytes where
  init := (accepted cfg world, {})
  enabled _ _ := True
  step q line := (q.1.step cfg line, if q.1.isOpen then q.2.next q.1.state line else q.2)

/-- The offsets from which a line sends files. -/
def offsets (c : Control W) (line : Bytes) : List Int64 :=
  ((c.step cfg line).state.calls.drop c.state.calls.length).filterMap FsCall.offset

theorem rest_after : ((transfers cfg world).after lines).1.state.session.rest =
    ((transfers cfg world).after lines).2.latest := by
  induction lines using List.reverseRecOn with
  | nil => exact congrArg Session.rest (accepted_session cfg world)
  | append_singleton lines line ih =>
    rw [System.after_concat]
    generalize (transfers cfg world).after lines = q at ih
    simp only [transfers, Control.step, Restart.next]
    split
    · rw [(serveLine_holds cfg q.1.state line).rest]
      unfold restAfter
      split
      · rename_i arg h
        split <;> simp [h, ih]
      · rename_i h
        split
        · split
          · rename_i arg harg
            exact absurd harg (h arg)
          all_goals exact ih
        · exact ih
    · exact ih

theorem eq_rest_of_mem_offsets {c : Control W} {line : Bytes} {offset : Int64}
    (h : offset ∈ offsets cfg c line) : offset = c.state.session.rest := by
  obtain ⟨call, hmem, hoffset⟩ := mem_filterMap.1 h
  unfold Control.step at hmem
  split at hmem
  · obtain ⟨made, hmade, hall⟩ := (serveLine_holds cfg c.state line).calls
    rw [hmade, drop_left] at hmem
    cases call with
    | sendFile u path o =>
      cases hoffset
      exact hall u path _ hmem
    | _ => cases hoffset
  · simp at hmem

/-- **Files are sent from the offset that is due exactly if that is the last one set.** -/
theorem restart_iff :
    (transfers cfg world).Each (fun _ q line => ∀ offset ∈ offsets cfg q.1 line, offset = q.2.due)
      lines ↔
    (transfers cfg world).Each (fun _ q line => offsets cfg q.1 line ≠ [] → q.2.latest = q.2.due)
      lines := by
  have hline : ∀ es line, ∀ offset ∈ offsets cfg ((transfers cfg world).after es).1 line,
      offset = ((transfers cfg world).after es).2.latest := fun es line offset h =>
    (eq_rest_of_mem_offsets cfg h).trans (rest_after cfg world es)
  refine forall_congr' fun es => forall_congr' fun line => imp_congr_right fun _ => ?_
  constructor
  · intro h hne
    obtain ⟨offset, hmem⟩ := exists_mem_of_ne_nil _ hne
    rw [← hline es line offset hmem]
    exact h offset hmem
  · intro h offset hmem
    rw [hline es line offset hmem]
    exact h (ne_nil_of_mem hmem)

end

section
attribute [local instance] asciiTables

/-- The second of two files is sent from the offset of the first. -/
theorem not_restart_second :
    ¬ (transfers fileConfig ()).Each
      (fun _ q line => ∀ offset ∈ offsets fileConfig q.1 line, offset = q.2.due)
      [lit "USER u", lit "PASS p", lit "REST 5", lit "PASV", lit "RETR f", lit "PASV",
        lit "RETR f"] := fun h =>
  absurd (h [lit "USER u", lit "PASS p", lit "REST 5", lit "PASV", lit "RETR f", lit "PASV"]
    (lit "RETR f") prefix_rfl 5 (by decide +kernel)) (by decide +kernel)

/-- Two transfers leave two listeners. -/
theorem not_listeners_two :
    ¬ ((conversation fileConfig (accepted fileConfig ())).Throughout
        (fun _ c => c.state.listeners ≤ 1 ∧
          (c.state.session.passive.bind PassiveListener.ln = none → c.state.listeners = 0))
        [lit "USER u", lit "PASS p", lit "PASV", lit "RETR f", lit "PASV", lit "RETR f"] ∧
      (handleConn fileConfig () [lit "USER u", lit "PASS p", lit "PASV", lit "RETR f", lit "PASV",
        lit "RETR f"]).listeners = 0) :=
  fun h => absurd h.2 (by decide +kernel)

end

/-! ## Commands without an argument -/

/-- The call changes what is stored. -/
def FsCall.isWrite : FsCall → Bool
  | .remove .. | .rename .. | .recvFile .. | .appendFile .. => true
  | _ => false

/-- One of the calls made since changes what is stored. -/
def Writes (st st' : State W) : Prop :=
  ∃ call ∈ st'.calls.drop st.calls.length, call.isWrite = true

variable (cfg st) in
/-- The empty argument is resolved. -/
def resolved : Except Bytes Bytes × State W :=
  st.ask (.resolve st.session.auth st.session.cwd [])
    (cfg.filesystem.resolve st.session.auth st.session.cwd [])

/-- The data connection is there, and announced. -/
def DataOpens (cfg : Config W) (st : State W) : Prop :=
  (∃ data, (acceptData cfg st).1 = .ok data) ∧
    ((acceptData cfg st).2.reply cfg opening).2 = .ok ()

/-- The command gets as far as its call. -/
def Reaches (cfg : Config W) (st : State W) (v : Verb) : Prop :=
  (v = .RNTO → st.session.renameTo ≠ []) ∧ (∃ target, (resolved cfg st).1 = .ok target) ∧
    (v = .STOR ∨ v = .APPE → DataOpens cfg (resolved cfg st).2)

theorem writes_resolved (cfg : Config W) (made : List FsCall)
    (h : st'.calls = (resolved cfg st).2.calls ++ made) :
    Writes st st' ↔ ∃ call ∈ made, call.isWrite = true := by
  rw [Writes, h, resolved, State.ask, append_assoc, drop_left]
  simp [FsCall.isWrite]

theorem writes_withTarget {k : Bytes → State W → Res W} {P : Prop}
    (hk : ∀ target, Writes st (k target (resolved cfg st).2).1 ↔ P) :
    Writes st (withTarget cfg st [] k).1 ↔ (∃ target, (resolved cfg st).1 = .ok target) ∧ P := by
  unfold withTarget
  split
  · rename_i e st' he
    have hst : resolved cfg st = (.error e, st') := he
    rw [writes_resolved cfg [] (by simp [hst])]
    simp [hst]
  · rename_i target st' he
    have hst : resolved cfg st = (.ok target, st') := he
    have := hk target
    rw [hst] at this ⊢
    simpa using this

theorem writes_withData {k : Bytes → State W → Res W}
    (hk : ∀ data st', ∃ call, call.isWrite = true ∧ (k data st').1.calls = st'.calls ++ [call]) :
    Writes st (withData cfg (resolved cfg st).2 k).1 ↔ DataOpens cfg (resolved cfg st).2 := by
  have hdata : (acceptData cfg (resolved cfg st).2).2.calls = (resolved cfg st).2.calls := by
    unfold acceptData
    repeat' split
    all_goals rfl
  unfold withData DataOpens
  split
  · rename_i e st' he
    rw [he] at hdata ⊢
    rw [writes_resolved cfg [] (by simpa using hdata)]
    simp
  · rename_i data st' he
    rw [he] at hdata ⊢
    have hreply := reply_calls cfg st' opening
    split
    · rename_i st'' e hr
      rw [show st'.reply cfg opening = (st'', .error e) from hr] at hreply ⊢
      rw [writes_resolved cfg [] (by simpa using hreply.trans hdata)]
      simp
    · rename_i st'' u hr
      rw [show st'.reply cfg opening = (st'', .ok u) from hr] at hreply ⊢
      obtain ⟨call, hcall, hcalls⟩ := hk data st''
      rw [writes_resolved cfg [call]
        (by rw [hcalls, show st''.calls = _ from hreply.trans hdata])]
      simp [hcall]

section
variable {call : User → Bytes → FsCall} (hcall : ∀ u p, (call u p).isWrite = true)
include hcall

theorem writes_askTarget {α : Type} (method : User → Bytes → Ask W (Except Bytes α))
    (done : Bytes → α → Reply) : Writes st (askTarget cfg call method done st []).1 ↔
      ∃ target, (resolved cfg st).1 = .ok target := by
  rw [askTarget, writes_withTarget (P := True), and_true]
  intro target
  rw [writes_resolved cfg [call (resolved cfg st).2.session.auth target]]
  · simp [hcall]
  · split <;> rename_i he <;> rw [reply_calls] <;> exact congrArg (·.2.calls) he.symm

theorem writes_upload (method : User → Bytes → Bytes → Ask W (Except Bytes Unit)) :
    Writes st (upload cfg call method st []).1 ↔
      (∃ target, (resolved cfg st).1 = .ok target) ∧ DataOpens cfg (resolved cfg st).2 :=
  writes_withTarget fun target => writes_withData fun data st' => by
    refine ⟨call st'.session.auth target, hcall _ _, ?_⟩
    split <;> rename_i he <;> simp only [reply_calls] <;> exact congrArg (·.2.calls) he.symm

end

theorem writes_rnto : Writes st (rnto cfg st []).1 ↔
    st.session.renameTo ≠ [] ∧ ∃ target, (resolved cfg st).1 = .ok target := by
  unfold rnto
  split
  · rename_i hnil
    simp [Writes, hnil]
  · rename_i hne
    rw [writes_withTarget (P := True), and_true, and_iff_right hne]
    intro target
    rw [writes_resolved cfg [.rename (resolved cfg st).2.session.auth
      (resolved cfg st).2.session.renameTo target]]
    · simp [FsCall.isWrite]
    · split <;> rename_i he <;> rw [reply_calls] <;> exact congrArg (·.2.calls) he.symm

/-- **A command without an argument leaves the files alone exactly if it does not get to its
call.** -/
theorem harmless_iff [UnicodeTables] {c : Command} (hl : st.session.logged = true)
    (hv : verbOf c.name ∈ [.DELE, .RMD, .STOR, .APPE, .RNTO]) (harg : c.arg = []) :
    ¬ Writes st (dispatch cfg st c).1 ↔ ¬ Reaches cfg st (verbOf c.name) := by
  have hgate : ¬ (¬ st.session.logged ∧ ¬ (verbOf c.name).beforeLogin) := fun h => h.1 hl
  rw [dispatch, if_neg hgate, harg]
  simp only [mem_cons, not_mem_nil, or_false] at hv
  refine not_congr ?_
  rcases hv with h | h | h | h | h <;> simp only [h, Reaches]
  · simpa [dele] using writes_askTarget (fun _ _ => rfl) _ _
  · simpa [rmd] using writes_askTarget (fun _ _ => rfl) _ _
  · simpa [stor] using writes_upload (fun _ _ => rfl) _
  · simpa [appe] using writes_upload (fun _ _ => rfl) _
  · simpa using writes_rnto

section
attribute [local instance] asciiTables

theorem harmless_iff_dele :
    ¬ Writes loggedIn (dispatch fileConfig loggedIn ⟨lit "DELE", []⟩).1 ↔
      ¬ Reaches fileConfig loggedIn .DELE :=
  harmless_iff (by decide +kernel) (by decide +kernel) rfl

/-- `DELE` alone removes the working directory. -/
theorem not_harmless_dele : loggedIn.session.logged = true ∧
    Writes loggedIn (dispatch fileConfig loggedIn ⟨lit "DELE", []⟩).1 :=
  ⟨by decide +kernel, by unfold Writes; decide +kernel⟩

end

end Ftp
