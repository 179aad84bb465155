import Mathlib.Data.List.Basic
import Mathlib.Data.List.Induction
import Mathlib.Tactic.Ring

/-!
# Runs of a system

A deterministic system: events, each possible in some states, take it from state to state. A run is
a list of events. What holds of it is said with the events that came before:

* `Throughout P es`: `P` holds in every state that the run `es` passes.
* `Each Q es`: `Q` holds of every event of the run, in the state in which it happens.
* `throughout_iff`: a property holds throughout exactly the runs with good events only, if an
  invariant implies it, is kept by good events, and is followed by the property only after these.
  In `throughout_iff_of` this is among the runs throughout which an assumption holds.
-/

structure System (σ ε : Type) where
  init : σ
  enabled : σ → ε → Prop
  step : σ → ε → σ

namespace System

open List

variable {σ ε : Type} (S : System σ ε) {Q : List ε → σ → ε → Prop} {P : List ε → σ → Prop}
  {es : List ε} {A I : List ε → σ → Prop} {G : List ε → σ → ε → Prop} {α : Type}
  (f : σ → ε → List α)

/-- The state after the events. -/
def after (es : List ε) : σ := es.foldl S.step S.init

@[simp] theorem after_nil : S.after [] = S.init := rfl

@[simp] theorem after_concat (es : List ε) (e : ε) :
    S.after (es ++ [e]) = S.step (S.after es) e := by
  simp [after]

/-- What the events give, each in the state in which it happens. -/
def collect (es : List ε) : List α :=
  (es.foldl (fun q e => (S.step q.1 e, q.2 ++ f q.1 e)) (S.init, [])).2

def Throughout (P : List ε → σ → Prop) (es : List ε) : Prop :=
  ∀ es', es' <+: es → P es' (S.after es')

def Each (Q : List ε → σ → ε → Prop) (es : List ε) : Prop :=
  ∀ es' e, es' ++ [e] <+: es → Q es' (S.after es') e

/-- Every event is possible when it happens. -/
def Valid (es : List ε) : Prop := S.Each (fun _ st e => S.enabled st e) es

@[simp] theorem collect_nil : S.collect f [] = [] := rfl

@[simp] theorem collect_concat (es : List ε) (e : ε) :
    S.collect f (es ++ [e]) = S.collect f es ++ f (S.after es) e := by
  have hstate : ∀ (es : List ε) (q : σ × List α),
      (es.foldl (fun q e => (S.step q.1 e, q.2 ++ f q.1 e)) q).1 = es.foldl S.step q.1 := by
    intro es
    induction es with
    | nil => exact fun _ => rfl
    | cons e es ih => exact fun q => ih _
  simp [collect, after, hstate]

theorem throughout_nil : S.Throughout P [] ↔ P [] S.init := by
  simp [Throughout]

theorem throughout_concat {e : ε} :
    S.Throughout P (es ++ [e]) ↔
      S.Throughout P es ∧ P (es ++ [e]) (S.step (S.after es) e) := by
  simp only [Throughout, prefix_concat_iff]
  refine ⟨fun h => ⟨fun es' hes' => h es' (.inr hes'), ?_⟩, fun h es' hes' => ?_⟩
  · simpa using h (es ++ [e]) (.inl rfl)
  · rcases hes' with rfl | hes'
    · simpa using h.2
    · exact h.1 es' hes'

theorem each_nil : S.Each Q [] := by
  intro es' e h
  simp at h

theorem each_concat {e : ε} :
    S.Each Q (es ++ [e]) ↔ S.Each Q es ∧ Q es (S.after es) e := by
  simp only [Each, prefix_concat_iff]
  refine ⟨fun h => ⟨fun es' e' hes' => h es' e' (.inr hes'), h es e (.inl rfl)⟩,
    fun h es' e' hes' => ?_⟩
  rcases hes' with heq | hes'
  · obtain ⟨rfl, he⟩ := append_inj' heq rfl
    obtain rfl := singleton_inj.1 he
    exact h.2
  · exact h.1 es' e' hes'

theorem each_iff_getElem :
    S.Each Q es ↔
      ∀ i (h : i < es.length), Q (es.take i) (S.after (es.take i)) es[i] := by
  refine ⟨fun hQ i h => hQ _ _ ?_, fun hQ es' e h => ?_⟩
  · rw [take_append_getElem h]
    exact take_prefix _ _
  · obtain ⟨t, rfl⟩ := h
    simpa using hQ es'.length (by simp)

instance [∀ es st e, Decidable (Q es st e)] (es : List ε) :
    Decidable (S.Each Q es) :=
  decidable_of_iff _ S.each_iff_getElem.symm

instance [∀ st e, Decidable (S.enabled st e)] (es : List ε) : Decidable (S.Valid es) :=
  inferInstanceAs (Decidable (S.Each (fun _ st e => S.enabled st e) es))

theorem throughout_iff_take :
    S.Throughout P es ↔ ∀ i ≤ es.length, P (es.take i) (S.after (es.take i)) := by
  refine ⟨fun h i _ => h _ ( List.take_prefix i es), fun h es' hes' => ?_⟩
  obtain ⟨t, rfl⟩ := hes'
  simpa using h es'.length (by simp)

instance [∀ es st, Decidable (P es st)] (es : List ε) :
    Decidable (S.Throughout P es) :=
  decidable_of_iff (∀ i, i < es.length + 1 → P (es.take i) (S.after (es.take i)))
    (by simp only [Nat.lt_succ_iff, S.throughout_iff_take])

/-- An invariant: it holds at the start, and every event that is good keeps it. -/
theorem invariant (hinit : I [] S.init)
    (hstep : ∀ es e, I es (S.after es) → S.enabled (S.after es) e → G es (S.after es) e →
      I (es ++ [e]) (S.step (S.after es) e))
    (hv : S.Valid es) (hg : S.Each G es) : I es (S.after es) := by
  induction es using List.reverseRecOn with
  | nil => exact hinit
  | append_singleton es e ih =>
    obtain ⟨hv, hen⟩ := S.each_concat.1 hv
    obtain ⟨hg, hge⟩ := S.each_concat.1 hg
    rw [after_concat]
    exact hstep es e (ih hv hg) hen hge

/-- **A property holds throughout exactly the runs with good events only**, among the runs
throughout which the assumption `A` holds. -/
theorem throughout_iff_of (hinit : I [] S.init) (hP : ∀ es st, A es st → I es st → P es st)
    (hstep : ∀ es e, I es (S.after es) → S.enabled (S.after es) e → G es (S.after es) e →
      I (es ++ [e]) (S.step (S.after es) e))
    (hbad : ∀ es e, I es (S.after es) → S.enabled (S.after es) e →
      A (es ++ [e]) (S.step (S.after es) e) → P (es ++ [e])
    (S.step (S.after es) e) → G es (S.after es) e)
    (hv : S.Valid es) (hA : S.Throughout A es) : S.Throughout P es ↔ S.Each G es := by
  induction es using List.reverseRecOn with
  | nil =>
    exact ⟨fun _ => S.each_nil, fun _ => S.throughout_nil.2 (hP _ _ (S.throughout_nil.1 hA) hinit)⟩
  | append_singleton es e ih =>
    obtain ⟨hv, hen⟩ := S.each_concat.1 hv
    obtain ⟨hA, hAe⟩ := S.throughout_concat.1 hA
    rw [throughout_concat, each_concat, ih hv hA]
    refine and_congr_right fun hg => ?_
    have hI := S.invariant hinit hstep hv hg
    exact ⟨hbad es e hI hen hAe, fun hge => hP _ _ hAe (hstep es e hI hen hge)⟩

/-- **A property holds throughout exactly the runs with good events only.** -/
theorem throughout_iff (hinit : I [] S.init) (hP : ∀ es st, I es st → P es st)
    (hstep : ∀ es e, I es (S.after es) → S.enabled (S.after es) e → G es (S.after es) e →
      I (es ++ [e]) (S.step (S.after es) e))
    (hbad : ∀ es e, I es (S.after es) → S.enabled (S.after es) e →
      P (es ++ [e]) (S.step (S.after es) e) → G es (S.after es) e)
    (hv : S.Valid es) : S.Throughout P es ↔ S.Each G es :=
  S.throughout_iff_of (A := fun _ _ => True) hinit (fun es st _ => hP es st) hstep
    (fun es e hI hen _ => hbad es e hI hen) hv fun _ _ => trivial

end System
