import Mathlib.Logic.Function.Basic
import GoProtocols.Lib.Run

/-!
# Routines that run at the same time

A `Routine` is a program that is cut at its operations: it is over, or it asks for an operation on a
state that it shares with others and goes on with the result. In a `Pool` every worker runs one
routine at a time; an operation of one of them is a step, so the runs of `Pool.system` are all the
ways in which the operations of the workers can be interleaved.

* `Pool.shared_step`: the shared state changes by the operation that an event performs.
* `Pool.invariant_collected`: an invariant that also speaks of what the operations so far have
  given.
-/

/-- A program over operations `Op`; the result of `op` is a `Res op`. -/
inductive Routine (Op : Type) (Res : Op → Type) (α : Type) : Type
  | done (a : α)
  | call (op : Op) (k : Res op → Routine Op Res α)

namespace Routine

variable {Op : Type} {Res : Op → Type} {α β : Type}

def bind : Routine Op Res α → (α → Routine Op Res β) → Routine Op Res β
  | done a, f => f a
  | call op k, f => call op fun r => (k r).bind f

instance : Monad (Routine Op Res) where
  pure := done
  bind := bind

def perform (op : Op) : Routine Op Res (Res op) := call op done

def next : Routine Op Res α → Option Op
  | done _ => none
  | call op _ => some op

def resume (result : (op : Op) → Res op) : Routine Op Res α → Routine Op Res α
  | done a => done a
  | call op k => k (result op)

/-- `p` holds of all operations that the routine may still ask for. -/
def All (p : Op → Prop) : Routine Op Res α → Prop
  | done _ => True
  | call op k => p op ∧ ∀ r, (k r).All p

variable {p : Op → Prop}

@[simp] theorem all_pure {a : α} : (pure a : Routine Op Res α).All p ↔ True := .rfl

@[simp] theorem all_perform_bind {op : Op} {k : Res op → Routine Op Res α} :
    (perform op >>= k).All p ↔ p op ∧ ∀ r, (k r).All p := .rfl

@[simp] theorem all_perform {op : Op} : (perform op : Routine Op Res (Res op)).All p ↔ p op :=
  and_iff_left fun _ => trivial

@[simp] theorem all_ite {c : Prop} [Decidable c] {m n : Routine Op Res α} :
    (if c then m else n).All p ↔ (c → m.All p) ∧ (¬ c → n.All p) := by
  split <;> simp [*]

theorem All.bind {m : Routine Op Res α} {f : α → Routine Op Res β} (hm : m.All p)
    (hf : ∀ a, (f a).All p) : (m >>= f).All p := by
  induction m with
  | done a => exact hf a
  | call op k ih => exact ⟨hm.1, fun r => ih r (hm.2 r)⟩

theorem All.forM {l : List β} {f : β → Routine Op Res PUnit} (hf : ∀ b, (f b).All p) :
    (l.forM f).All p := by
  induction l with
  | nil => trivial
  | cons b l ih => exact (hf b).bind fun _ => ih

theorem All.foldlM {l : List β} {f : α → β → Routine Op Res α} (hf : ∀ a b, (f a b).All p) (a : α) :
    (l.foldlM f a).All p := by
  induction l generalizing a with
  | nil => trivial
  | cons b l ih => exact (hf a b).bind ih

theorem All.resume {m : Routine Op Res α} (h : m.All p) (result : (op : Op) → Res op) :
    (m.resume result).All p := by
  cases m with
  | done a => trivial
  | call op k => exact h.2 _

theorem resume_of_next_eq_none {m : Routine Op Res α} (h : m.next = none)
    (result : (op : Op) → Res op) : m.resume result = m := by
  cases m with
  | done a => rfl
  | call op k => cases h

theorem All.of_next {m : Routine Op Res α} {op : Op} (h : m.All p) (hop : m.next = some op) :
    p op := by
  cases m with
  | done a => cases hop
  | call op' k =>
    cases hop
    exact h.1

end Routine

/-- Workers `ι` with commands `γ`, and what they share. -/
structure Pool (ι γ σ Op : Type) (Res : Op → Type) where
  init : σ
  run : (op : Op) → σ → Res op × σ
  /-- What a worker does for a command. -/
  body : ι → γ → Routine Op Res Unit
  mayStart : σ → ι → Prop

namespace Pool

variable {ι γ σ Op : Type} {Res : Op → Type}

structure State (ι σ Op : Type) (Res : Op → Type) where
  shared : σ
  routine : ι → Routine Op Res Unit

inductive Event (ι γ : Type)
  | start (i : ι) (c : γ)
  | advance (i : ι)

def Event.worker : Event ι γ → ι
  | start i _ => i
  | advance i => i

namespace State

def Idle (w : State ι σ Op Res) : Prop := ∀ i, (w.routine i).next = none

def next (w : State ι σ Op Res) : Event ι γ → Option Op
  | .start _ _ => none
  | .advance i => (w.routine i).next

end State

variable [DecidableEq ι] (P : Pool ι γ σ Op Res) (w : State ι σ Op Res)

def step : Event ι γ → State ι σ Op Res
  | .start i c => { w with routine := Function.update w.routine i (P.body i c) }
  | .advance i =>
    { shared := (w.routine i).next.elim w.shared fun op => (P.run op w.shared).2
      routine := Function.update w.routine i
        ((w.routine i).resume fun op => (P.run op w.shared).1) }

def enabled : Event ι γ → Prop
  | .start i _ => (w.routine i).next.isNone ∧ P.mayStart w.shared i
  | .advance i => (w.routine i).next.isSome

/-- **All interleavings.** -/
def system : System (State ι σ Op Res) (Event ι γ) where
  init := ⟨P.init, fun _ => .done ()⟩
  enabled := P.enabled
  step := P.step

instance [∀ st i, Decidable (P.mayStart st i)] (w : State ι σ Op Res) :
    (e : Event ι γ) → Decidable (P.system.enabled w e)
  | .start i _ => inferInstanceAs (Decidable ((w.routine i).next.isNone ∧ P.mayStart w.shared i))
  | .advance i => inferInstanceAs (Decidable ((w.routine i).next.isSome = true))

theorem shared_step (e : Event ι γ) :
    (P.system.step w e).shared = (w.next e).elim w.shared fun op => (P.run op w.shared).2 := by
  cases e with
  | start i c | advance i => rfl

theorem routine_step_ne {e : Event ι γ} {i : ι} (h : i ≠ e.worker) :
    (P.system.step w e).routine i = w.routine i := by
  cases e with
  | start j c | advance j => exact Function.update_of_ne h _ _

theorem routine_after_of_notMem {es : List (Event ι γ)} {i : ι} (h : ∀ e ∈ es, i ≠ e.worker) :
    (P.system.after es).routine i = .done () := by
  induction es using List.reverseRecOn with
  | nil => rfl
  | append_singleton es e ih =>
    rw [System.after_concat, P.routine_step_ne _ (h e (by simp))]
    exact ih (List.forall_mem_append.1 h).1

/-- **A property of the shared state holds throughout exactly the runs with good operations
only.** -/
theorem throughout_iff {A : σ → Prop} {G : σ → Op → Prop} (hinit : A P.init)
    (hop : ∀ st op, A st → (A (P.run op st).2 ↔ G st op)) {es : List (Event ι γ)}
    (hv : P.system.Valid es) :
    P.system.Throughout (fun _ w => A w.shared) es ↔
      P.system.Each (fun _ w e => ∀ op ∈ w.next e, G w.shared op) es := by
  have hstep (w : State ι σ Op Res) (e : Event ι γ) (hA : A w.shared) :
      A (P.system.step w e).shared ↔ ∀ op ∈ w.next e, G w.shared op := by
    rw [P.shared_step]
    cases w.next e with
    | none => simp [hA]
    | some op => simpa using hop w.shared op hA
  exact P.system.throughout_iff (I := fun _ w => A w.shared) hinit (fun _ _ h => h)
    (fun es e hA _ hG => (hstep _ e hA).2 hG) (fun es e hA _ hA' => (hstep _ e hA).1 hA') hv

def collected {α : Type} (f : σ → Op → List α) (es : List (Event ι γ)) : List α :=
  P.system.collect (fun w e => (w.next e).elim [] (f w.shared)) es

theorem invariant_collected {α : Type} {f : σ → Op → List α} {I : List α → σ → Prop}
    (hinit : I [] P.init)
    (hop : ∀ log st op, I log st → I (log ++ f st op) (P.run op st).2) (es : List (Event ι γ)) :
    I (P.collected f es) (P.system.after es).shared := by
  induction es using List.reverseRecOn with
  | nil => exact hinit
  | append_singleton es e ih =>
    unfold collected at ih ⊢
    rw [System.collect_concat, System.after_concat, P.shared_step]
    cases (P.system.after es).next e with
    | none => simpa using ih
    | some op => exact hop _ _ op ih

end Pool
