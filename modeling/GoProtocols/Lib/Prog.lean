import Mathlib.Data.List.Basic
import Mathlib.Order.Defs.Unbundled
import Mathlib.Tactic.Ring

/-!
# Programs over a state

A program `Prog ρ σ α` reads an environment `ρ`, reads and changes a state `σ` and gives an `α`.

`Within R m`: from every state, a run of `m` ends in a state that `R` relates to it. For a preorder
`R` this is closed under sequence, branches and loops. The rules are instances, so `infer_instance`
walks through the body of a program and asks only for its basic operations.

`Keeps E P R m Q` also says what holds: where `E` holds of the environment and `P` of the state, a
run of `m` ends where `P` holds, in a state that `R` relates to the first one, with a value of which
`Q` holds. What is read from the state is known to satisfy what `P` says of it.
-/

abbrev Prog (ρ σ : Type) := ReaderT ρ (StateM σ)

namespace Prog

variable {ρ σ α β γ : Type} {T : α → Prop} {m : Prog ρ σ α} {f : α → Prog ρ σ β} (E : ρ → Prop)
  (P : σ → Prop) (R : σ → σ → Prop) (c : Prop)

/-- Run `m` under a condition. -/
def when [Decidable c] (m : Prog ρ σ Unit) : Prog ρ σ Unit :=
  if c then m else pure ()

/-! ## Runs -/

theorem pure_run (a : α) (r : ρ) (s : σ) : (pure a : Prog ρ σ α) r s = (a, s) := rfl

theorem bind_run (m : Prog ρ σ α) (f : α → Prog ρ σ β) (r : ρ) (s : σ) :
    (m >>= f) r s = f (m r s).1 r (m r s).2 := rfl

theorem ite_run [Decidable c] (m n : Prog ρ σ α) (r : ρ) (s : σ) :
    (if c then m else n) r s = if c then m r s else n r s := by
  split <;> rfl

theorem when_run [Decidable c] (m : Prog ρ σ Unit) (r : ρ) (s : σ) :
    when c m r s = if c then m r s else ((), s) := ite_run c m (pure ()) r s

theorem forM_cons_run (f : α → Prog ρ σ Unit) (a : α) (l : List α) (r : ρ) (s : σ) :
    (a :: l).forM f r s = l.forM f r (f a r s).2 := rfl

/-! ## What a program may do to the state -/

/-- A side condition that evaluates to `true`, for rules that are instances. -/
class Decided (b : Bool) : Prop where
  eq_true : b = true

instance : Decided true := ⟨rfl⟩

class Within (R : σ → σ → Prop) (m : Prog ρ σ α) : Prop where
  run : ∀ r s, R s (m r s).2

theorem within_run (m : Prog ρ σ α) [h : Within R m] (r : ρ) (s : σ) : R s (m r s).2 := h.run r s

section
variable {R : σ → σ → Prop}

theorem Within.mono {R' : σ → σ → Prop} (hm : Within R m) (h : ∀ s s', R s s' → R' s s') :
    Within R' m :=
  ⟨fun r s => h _ _ (hm.run r s)⟩

variable [IsPreorder σ R]

instance within_pure (a : α) : Within R (pure a : Prog ρ σ α) := ⟨fun _ s => refl_of R s⟩

instance within_bind (m : Prog ρ σ α) (f : α → Prog ρ σ β) [hm : Within R m]
    [hf : ∀ a, Within R (f a)] : Within R (m >>= f) :=
  ⟨fun r s => trans_of R (hm.run r s) ((hf _).run r _)⟩

instance within_ite (c : Prop) [Decidable c] (m n : Prog ρ σ α) [Within R m] [Within R n] :
    Within R (if c then m else n) := by
  split <;> infer_instance

instance within_when (c : Prop) [Decidable c] (m : Prog ρ σ Unit) [Within R m] :
    Within R (when c m) :=
  within_ite c m (pure ())

instance within_elim (o : Option α) (n : Prog ρ σ β) (k : α → Prog ρ σ β) [hn : Within R n]
    [hk : ∀ a, Within R (k a)] : Within R (o.elim n k) := by
  cases o with
  | none => exact hn
  | some a => exact hk a

theorem Within.forM {l : List α} {f : α → Prog ρ σ Unit} (hf : ∀ a ∈ l, Within R (f a)) :
    Within R (l.forM f) := by
  induction l with
  | nil => exact within_pure ()
  | cons a l ih =>
    have hl := ih fun b hb => hf b (List.mem_cons_of_mem a hb)
    have ha := hf a List.mem_cons_self
    exact within_bind (f a) fun _ => l.forM f

instance within_forM (l : List α) (f : α → Prog ρ σ Unit) [hf : ∀ a, Within R (f a)] :
    Within R (l.forM f) :=
  .forM fun a _ => hf a

end

/-! ## What holds along a run -/

def Keeps (m : Prog ρ σ α) (Q : α → Prop) : Prop :=
  ∀ r s, E r → P s → P (m r s).2 ∧ R s (m r s).2 ∧ Q (m r s).1

section
variable {E : ρ → Prop} {P : σ → Prop} {R : σ → σ → Prop} {Q : α → Prop} {Q' : β → Prop} {c}
  {l : List α}

theorem Keeps.mono (hm : Keeps E P R m T) (h : ∀ a, T a → Q a) : Keeps E P R m Q := fun r s hr hs =>
  have ⟨hP, hR, hT⟩ := hm r s hr hs
  ⟨hP, hR, h _ hT⟩

theorem Keeps.ite [Decidable c] {n : Prog ρ σ α} (hm : c → Keeps E P R m Q)
    (hn : ¬ c → Keeps E P R n Q) : Keeps E P R (if c then m else n) Q := by
  split
  · exact hm ‹_›
  · exact hn ‹_›

theorem Keeps.elim {o : Option α} {n : Prog ρ σ β} {k : α → Prog ρ σ β}
    (hn : o = none → Keeps E P R n Q') (hk : ∀ a, o = some a → Keeps E P R (k a) Q') :
    Keeps E P R (o.elim n k) Q' := by
  cases o with
  | none => exact hn rfl
  | some a => exact hk a rfl

variable [IsPreorder σ R]

theorem Keeps.pure {a : α} (h : Q a) : Keeps E P R (Pure.pure a) Q :=
  fun _ s _ hs => ⟨hs, refl_of R s, h⟩

theorem Keeps.bind (hm : Keeps E P R m Q) (hf : ∀ a, Q a → Keeps E P R (f a) Q') :
    Keeps E P R (m >>= f) Q' := by
  intro r s hr hs
  obtain ⟨hP, hR, hQ⟩ := hm r s hr hs
  obtain ⟨hP', hR', hQ'⟩ := hf _ hQ r _ hr hP
  exact ⟨hP', trans_of R hR hR', hQ'⟩

theorem Keeps.seq (hm : Keeps E P R m T) (hf : ∀ a, Keeps E P R (f a) Q') :
    Keeps E P R (m >>= f) Q' :=
  hm.bind fun a _ => hf a

theorem Keeps.when [Decidable c] {m : Prog ρ σ Unit} (hm : c → Keeps E P R m fun _ => True) :
    Keeps E P R (Prog.when c m) fun _ => True :=
  .ite hm fun _ => .pure trivial

theorem Keeps.forM {f : α → Prog ρ σ Unit} (hf : ∀ a ∈ l, Keeps E P R (f a) fun _ => True) :
    Keeps E P R (l.forM f) fun _ => True := by
  induction l with
  | nil => exact .pure trivial
  | cons a l ih =>
    exact (hf a (by simp)).seq fun _ => ih (List.forall_mem_cons.1 hf).2

theorem Keeps.foldlM {T : γ → Prop} {f : γ → α → Prog ρ σ γ}
    (hf : ∀ c, ∀ a ∈ l, T c → Keeps E P R (f c a) T) {c : γ} (hc : T c) :
    Keeps E P R (l.foldlM f c) T := by
  induction l generalizing c with
  | nil => exact .pure hc
  | cons a l ih =>
    exact (hf c a (by simp) hc).bind fun c' hc' => ih (fun c b hb => hf c b (by simp [hb])) hc'

end

end Prog
