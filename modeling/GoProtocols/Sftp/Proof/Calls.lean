import GoProtocols.Sftp.Framing
import GoProtocols.Sftp.Pending

/-!
# What an event does to the calls

Of a call, only its own events change more than the channel (`step_other`). Its id and its request
are fixed when it begins (`step_begun`), and it is in the middle of its packet exactly between its
two writes (`step_writing`). What an event sends, counts and stops is in `step_rest`.
-/

namespace Sftp.Client

open Go

/-- The call whose goroutine takes the step. -/
def Event.actor : Event → Option Nat
  | .begin i _ _ | .register i | .writeLength i _ | .writeBody i _ | .abort i | .receive i
  | .cancel i _ | .pipeClosed i => some i
  | .packet _ | .deliver | .release | .fail _ | .close => none

def Call.Same (c c' : Call) : Prop := ∃ ch, c' = { c with reply := ch }

theorem Call.Same.refl (c : Call) : c.Same c := ⟨c.reply, rfl⟩

theorem Call.Same.trans {c c' c'' : Call} (h : c.Same c') (h' : c'.Same c'') : c.Same c'' := by
  obtain ⟨ch, rfl⟩ := h
  obtain ⟨ch', rfl⟩ := h'
  exact ⟨ch', rfl⟩

variable {st : State} {i j : Nat} {e : Event}

theorem setReply_same (st : State) (i j : Nat) (ch : Chan) :
    (st.calls j).Same ((st.set i { st.calls i with reply := ch }).calls j) := by
  by_cases hji : j = i
  · subst hji
    rw [calls_set]
    exact ⟨ch, rfl⟩
  · rw [calls_set_ne st hji]
    exact .refl _

theorem closeChan_eq (st : State) (i : Nat) : ∃ calls panicked,
    st.closeChan i = { st with calls, panicked } ∧ ∀ j, (st.calls j).Same (calls j) := by
  unfold State.closeChan
  split
  · exact ⟨st.calls, true, rfl, fun j => .refl _⟩
  · exact ⟨_, st.panicked, rfl, fun j => setReply_same st i j _⟩

theorem foldl_closeChan_eq (l : List Nat) (st : State) : ∃ calls panicked,
    l.foldl State.closeChan st = { st with calls, panicked } ∧
      ∀ j, (st.calls j).Same (calls j) := by
  induction l generalizing st with
  | nil => exact ⟨st.calls, st.panicked, rfl, fun j => .refl _⟩
  | cons i l ih =>
    obtain ⟨calls, panicked, hclose, hsame⟩ := closeChan_eq st i
    obtain ⟨calls', panicked', hfold, hsame'⟩ := ih (st.closeChan i)
    rw [hclose] at hfold hsame'
    exact ⟨calls', panicked', by rw [List.foldl_cons, hclose, hfold],
      fun j => (hsame j).trans (hsame' j)⟩

theorem wrote_other (h : j ≠ i) (data : Bytes) (err : Option Bytes) (next : Phase) :
    (st.wrote i data err next).calls j = st.calls j := by
  cases err <;> exact calls_set_ne _ h _

theorem step_other (h : e.actor ≠ some j) : (st.calls j).Same ((st.step e).calls j) := by
  have hne {i : Nat} (hi : e.actor = some i) : j ≠ i := fun hji => h (hji ▸ hi)
  cases e with
  | begin i type payload | cancel i err | pipeClosed i => exact ⟨_, calls_set_ne _ (hne rfl) _⟩
  | register i =>
    simp only [State.step]
    split
    · exact .refl _
    · exact ⟨_, calls_set_ne _ (hne rfl) _⟩
  | writeLength i err | writeBody i err => exact ⟨_, wrote_other (hne rfl) _ _ _⟩
  | abort i =>
    simp only [State.step]
    split
    · exact ⟨_, calls_set_ne _ (hne rfl) _⟩
    · exact .refl _
  | receive i =>
    simp only [State.step]
    split
    · exact ⟨_, calls_set_ne _ (hne rfl) _⟩
    · exact ⟨_, calls_set_ne _ (hne rfl) _⟩
  | packet p =>
    simp only [State.step]
    split
    · exact .refl _
    · split
      · exact .refl _
      · unfold State.take
        split <;> exact .refl _
  | deliver =>
    simp only [State.step]
    split
    · split
      · exact .refl _
      · exact setReply_same st _ j _
    · exact .refl _
  | release =>
    simp only [State.step]
    split
    · rename_i i _
      obtain ⟨calls, panicked, hclose, hsame⟩ := closeChan_eq st i
      rw [hclose]
      exact hsame j
    · exact .refl _
  | fail err =>
    obtain ⟨calls, panicked, hfold, hsame⟩ := foldl_closeChan_eq
      ((st.pending.elim [] fun m => m.entries).map fun e => e.2) st
    simp only [State.step]
    rw [hfold]
    exact hsame j
  | close => exact .refl _

theorem step_actor (he : st.Enabled e) (h : e.actor = some j)
    (hbegin : ∀ type payload, e ≠ .begin j type payload) :
    (st.calls j).phase ≠ .idle ∧ ∃ phase ch,
      (st.step e).calls j = { st.calls j with phase, reply := ch } ∧ phase ≠ .idle ∧
        (phase = .writing ↔ e = .writeLength j none) := by
  have hwrote {data : Bytes} {err : Option Bytes} {next : Phase} :
      (st.wrote j data err next).calls j =
        { st.calls j with phase := err.elim next Phase.failing } := by
    cases err <;> exact calls_set _ j _
  cases e with
  | begin i type payload =>
    cases h
    exact absurd rfl (hbegin type payload)
  | register i =>
    cases h
    have hphase : (st.calls j).phase = .started := he
    refine ⟨by simp [hphase], ?_⟩
    cases hm : st.pending with
    | none =>
      refine ⟨.started, (st.calls j).reply, ?_, by simp⟩
      simp only [State.step, hm]
      rw [← hphase]
    | some m =>
      refine ⟨.registered, (st.calls j).reply, ?_, by simp⟩
      simp only [State.step, hm]
      exact calls_set _ j _
  | writeLength i err =>
    cases h
    have hphase : (st.calls j).phase = .registered := he
    refine ⟨by simp [hphase], _, (st.calls j).reply, hwrote, ?_⟩
    cases err <;> simp
  | writeBody i err =>
    cases h
    have hphase : (st.calls j).phase = .writing := he
    refine ⟨by simp [hphase], _, (st.calls j).reply, hwrote, ?_⟩
    cases err <;> simp
  | abort i =>
    cases h
    obtain ⟨err, hphase⟩ := he
    refine ⟨by simp [hphase], .returned (.error (some err)), (st.calls j).reply, ?_, by simp⟩
    simp only [State.step, hphase]
    exact calls_set _ j _
  | receive i =>
    cases h
    have hphase : (st.calls j).phase = .waiting := he.1
    refine ⟨by simp [hphase], ?_⟩
    cases hbuf : (st.calls j).reply.buf with
    | some p =>
      refine ⟨.returned (.packet p), { (st.calls j).reply with buf := none }, ?_, by simp⟩
      simp only [State.step, hbuf]
      exact calls_set _ j _
    | none =>
      refine ⟨.returned (.error st.readErr), (st.calls j).reply, ?_, by simp⟩
      simp only [State.step, hbuf]
      exact calls_set _ j _
  | cancel i err =>
    cases h
    have hphase : (st.calls j).phase = .waiting := he
    exact ⟨by simp [hphase], _, _, calls_set _ j _, by simp⟩
  | pipeClosed i =>
    cases h
    have hphase : (st.calls j).phase = .waiting := he.1
    exact ⟨by simp [hphase], _, _, calls_set _ j _, by simp⟩
  | packet p | deliver | release | fail err | close => cases h

/-! ## The rest of the state -/

/-- The bytes that an event sends. -/
def State.output (st : State) : Event → Bytes
  | .writeLength i none => (st.calls i).request.lengthBytes
  | .writeBody i none => (st.calls i).request.type :: (st.calls i).request.payload
  | _ => []

def Event.isBegin : Event → Bool
  | .begin _ _ _ => true
  | _ => false

def Event.isFail : Event → Bool
  | .fail _ => true
  | _ => false

/-- Only writes send something, only a call that begins takes an id, and only the failure stops the
read loop. -/
structure Quietly (st : State) (e : Event) (st' : State) : Prop where
  sent : st'.sent = st.sent ++ st.output e
  counter : st'.counter = if e.isBegin then nextID st.counter else st.counter
  loop : st'.loop = .stopped → st.loop = .stopped ∨ e.isFail = true

theorem step_rest (st : State) (e : Event) : Quietly st e (st.step e) := by
  have hnil : st.sent = st.sent ++ [] := (List.append_nil _).symm
  cases e with
  | begin i type payload | cancel i err | pipeClosed i | close => exact ⟨hnil, rfl, .inl⟩
  | register i | abort i | receive i =>
    simp only [State.step]
    split <;> exact ⟨hnil, rfl, .inl⟩
  | writeLength i err | writeBody i err =>
    cases err with
    | none => exact ⟨rfl, rfl, .inl⟩
    | some err => exact ⟨hnil, rfl, .inl⟩
  | packet p =>
    simp only [State.step]
    split
    · exact ⟨hnil, rfl, .inl⟩
    · split
      · exact ⟨hnil, rfl, .inl⟩
      · unfold State.take
        split
        · exact ⟨hnil, rfl, .inl⟩
        · exact ⟨hnil, rfl, by simp⟩
  | deliver =>
    simp only [State.step]
    split
    · split
      · exact ⟨hnil, rfl, .inl⟩
      · exact ⟨hnil, rfl, by simp⟩
    · exact ⟨hnil, rfl, .inl⟩
  | release =>
    simp only [State.step]
    split
    · rename_i i _
      obtain ⟨calls, panicked, hclose, -⟩ := closeChan_eq st i
      rw [hclose]
      exact ⟨hnil, rfl, by simp⟩
    · exact ⟨hnil, rfl, .inl⟩
  | fail err =>
    obtain ⟨calls, panicked, hfold, -⟩ := foldl_closeChan_eq
      ((st.pending.elim [] fun m => m.entries).map fun e => e.2) st
    simp only [State.step]
    rw [hfold]
    exact ⟨hnil, rfl, fun _ => .inr rfl⟩

/-! ## What stays -/

theorem step_begun (he : st.Enabled e) (hbegin : ∀ type payload, e ≠ .begin j type payload) :
    ((st.step e).calls j).id = (st.calls j).id ∧
      ((st.step e).calls j).request = (st.calls j).request ∧
        (((st.step e).calls j).phase = .idle ↔ (st.calls j).phase = .idle) := by
  by_cases h : e.actor = some j
  · obtain ⟨hidle, phase, ch, hcall, hphase, -⟩ := step_actor he h hbegin
    rw [hcall]
    exact ⟨rfl, rfl, by simp [hidle, hphase]⟩
  · obtain ⟨ch, hcall⟩ := (step_other h : (st.calls j).Same _)
    rw [hcall]
    exact ⟨rfl, rfl, Iff.rfl⟩

theorem step_writing (he : st.Enabled e) :
    ((st.step e).calls j).phase = .writing ↔
      e = .writeLength j none ∨ (st.calls j).phase = .writing ∧ ∀ err, e ≠ .writeBody j err := by
  by_cases h : e.actor = some j
  · by_cases hbegin : ∃ type payload, e = .begin j type payload
    · obtain ⟨type, payload, rfl⟩ := hbegin
      have hidle : (st.calls j).phase = .idle := he
      simp [State.step, hidle]
    · have hbegin : ∀ type payload, e ≠ .begin j type payload := fun type payload heq =>
        hbegin ⟨type, payload, heq⟩
      obtain ⟨-, phase, ch, hcall, -, hphase⟩ := step_actor he h hbegin
      rw [hcall]
      refine hphase.trans (or_iff_left ?_).symm
      rintro ⟨hw, hbody⟩
      cases e <;> cases h <;> simp [State.Enabled, hw] at he hbody
  · obtain ⟨ch, hcall⟩ := (step_other h : (st.calls j).Same _)
    have hlength : e ≠ .writeLength j none := fun heq => h (heq ▸ rfl)
    have hbody : ∀ err, e ≠ .writeBody j err := fun err heq => h (heq ▸ rfl)
    rw [hcall]
    simp [hlength, hbody]

end Sftp.Client
