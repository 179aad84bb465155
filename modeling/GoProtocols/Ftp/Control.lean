import GoProtocols.Ftp.Session
import GoProtocols.Lib.Run

/-!
# A control connection as a system

The lines that a client sends, one event each (`conversation`). `handleConn` is such a run from the
greeting on (`handleConn_eq`). A line with a command is what `dispatch` does for it, and what the loop
does about the outcome (`serveLine_command`, `report`).
-/

namespace Ftp

open Go

structure Control (W : Type) where
  state : State W
  /-- The loop of `serve` goes on. -/
  isOpen : Bool := true

/-- The command of a line, if it has one. -/
def commandOf [UnicodeTables] (line : Bytes) : Option (Verb × Bytes) :=
  match parse line with
  | .error _ => none
  | .ok c => some (verbOf c.name, c.arg)

section
variable {W : Type} (cfg : Config W) (st : State W) (r : Reply) (world : W) (lines : List Bytes)

@[simp] theorem reply_session : (st.reply cfg r).1.session = st.session := by
  unfold State.reply
  split <;> rfl

@[simp] theorem reply_calls : (st.reply cfg r).1.calls = st.calls := by
  unfold State.reply
  split <;> rfl

theorem replies_reply : (st.reply cfg r).1.replies = st.replies ++ [r] := by
  unfold State.reply
  split <;> rfl

/-- A connection that has been greeted. -/
def accepted : Control W :=
  match State.reply cfg { world } (newReply codeReady cfg.banner) with
  | (state, .ok _) => { state }
  | (state, .error _) => { state, isOpen := false }

theorem accepted_session : (accepted cfg world).state.session = {} := by
  have hreply := reply_session cfg { world } (newReply codeReady cfg.banner)
  unfold accepted
  split <;> rename_i h <;> rw [h] at hreply <;> exact hreply

theorem accepted_calls : (accepted cfg world).state.calls = [] := by
  have hreply := reply_calls cfg { world } (newReply codeReady cfg.banner)
  unfold accepted
  split <;> rename_i h <;> rw [h] at hreply <;> exact hreply

variable (r : Res W)

/-- What is done about the outcome of a command. -/
def report : State W × Bool :=
  match r with
  | (st, .ok _) => (st, true)
  | (st, .error .quit) => (st, false)
  | (st, .error (.err e)) =>
    match st.reply cfg (newReply codeNotLoggedInReq e) with
    | (st, .ok _) => (st, true)
    | (st, .error _) => (st, false)

theorem report_eq : (report cfg r).1 = r.1 ∨ ∃ e, (report cfg r).1 = (r.1.reply cfg e).1 := by
  obtain ⟨st, r⟩ := r
  cases r with
  | ok u => exact .inl rfl
  | error stop =>
    cases stop with
    | quit => exact .inl rfl
    | err e =>
      refine .inr ⟨newReply codeNotLoggedInReq e, ?_⟩
      simp only [report]
      split <;> rename_i h <;> rw [h]

@[simp] theorem report_session : (report cfg r).1.session = r.1.session := by
  rcases report_eq cfg r with h | ⟨e, h⟩ <;> simp [h]

@[simp] theorem report_calls : (report cfg r).1.calls = r.1.calls := by
  rcases report_eq cfg r with h | ⟨e, h⟩ <;> simp [h]

variable [UnicodeTables] (c : Control W)

/-- A line is read only while the connection is open. -/
def Control.step (line : Bytes) : Control W :=
  if c.isOpen then
    { state := (serveLine cfg c.state line).1, isOpen := (serveLine cfg c.state line).2 }
  else c

def conversation : System (Control W) Bytes where
  init := c
  enabled _ _ := True
  step := Control.step cfg

/-! ## Runs -/

theorem after_closed {c : Control W} (h : c.isOpen = false) (lines : List Bytes) :
    (conversation cfg c).after lines = c := by
  induction lines using List.reverseRecOn with
  | nil => rfl
  | append_singleton lines line ih =>
    rw [System.after_concat, ih]
    simp [conversation, Control.step, h]

theorem after_served {st st' : State W} {line : Bytes} (h : serveLine cfg st line = (st', true))
    (lines : List Bytes) :
    (conversation cfg { state := st }).after (line :: lines) =
      (conversation cfg { state := st' }).after lines := by
  have hstep : Control.step cfg { state := st } line = { state := st' } := by
    rw [Control.step, if_pos rfl, h]
  rw [← hstep]
  rfl

theorem serve_eq : ((conversation cfg { state := st }).after lines).state = serve cfg st lines := by
  induction lines generalizing st with
  | nil => rfl
  | cons line lines ih =>
    have hfirst : (conversation cfg { state := st }).after (line :: lines) =
      (conversation cfg (Control.step cfg { state := st } line)).after lines := rfl
    rw [hfirst, serve]
    simp only [Control.step, if_true]
    split
    · rename_i st' hline
      rw [hline]
      exact ih st'
    · rename_i st' hline
      rw [hline, after_closed cfg rfl]

/-- **`handleConn` is the conversation after the greeting.** -/
theorem handleConn_eq :
    ((conversation cfg (accepted cfg world)).after lines).state = handleConn cfg world lines := by
  unfold accepted handleConn
  cases hgreet : State.reply cfg { world } (newReply codeReady cfg.banner) with
  | mk state r =>
    cases r with
    | ok u => exact serve_eq cfg state lines
    | error e => exact congrArg Control.state (after_closed cfg rfl lines)

/-! ## One line -/

variable {line arg : Bytes} {v : Verb}

theorem serveLine_command (h : commandOf line = some (v, arg)) :
    ∃ c, verbOf c.name = v ∧ c.arg = arg ∧
      ∀ st, serveLine cfg st line = report cfg (dispatch cfg st c) := by
  unfold commandOf at h
  split at h
  · cases h
  · rename_i c hparse
    cases h
    refine ⟨c, rfl, rfl, fun st => ?_⟩
    simp only [serveLine, hparse]
    rfl

theorem serveLine_none (h : commandOf line = none) (st : State W) :
    (serveLine cfg st line).1 =
      (st.reply cfg (newReply codeSyntaxError (lit "Syntax error"))).1 := by
  unfold commandOf at h
  split at h
  · rename_i e hparse
    simp only [serveLine, hparse]
    split <;> rename_i hreply <;> rw [hreply]
  · cases h

theorem serveLine_USER (h : commandOf line = some (.USER, arg)) (st : State W) :
    serveLine cfg st line = report cfg (handleUSER cfg st arg) := by
  obtain ⟨c, hv, rfl, hserve⟩ := serveLine_command cfg h
  rw [hserve, dispatch, hv, if_neg fun hgate => hgate.2 rfl]

theorem serveLine_PASS (h : commandOf line = some (.PASS, arg)) (st : State W) :
    serveLine cfg st line = report cfg (handlePASS cfg st arg) := by
  obtain ⟨c, hv, rfl, hserve⟩ := serveLine_command cfg h
  rw [hserve, dispatch, hv, if_neg fun hgate => hgate.2 rfl]

end

end Ftp
