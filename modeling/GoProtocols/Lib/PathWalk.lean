import Mathlib.Data.List.Basic
import Mathlib.Tactic.Ring

/-!
# Walks through a tree of names

A path is a list of steps: stay, one level up, one level down to a name. A place in the tree is the
list of names that lead to it, the innermost first; above the top there is only the top.

* `walk`: where a path leads from a place.
* `rel`: the path on its own, as the number of levels it climbs and the names it then goes down
  (`walk_eq`).

The second half is about the text of places: every name written after a separator. Text prefixes are
prefixes of the list of names (`text_prefix_iff`).
-/

namespace PathWalk

open List

variable {α : Type}

inductive Step (α : Type)
  | stay
  | up
  | down (name : α)
  deriving DecidableEq

def Step.apply (st : List α) : Step α → List α
  | .stay => st
  | .up => st.tail
  | .down a => a :: st

variable (st : List α) (steps : List (Step α))

/-- Where the steps lead from `st`. -/
def walk : List α := steps.foldl Step.apply st

/-- A path on its own: how far it climbs, and the names it goes down after that. -/
structure Rel (α : Type) where
  ups : Nat
  names : List α

variable (p : Rel α)

def Rel.step : Step α → Rel α
  | .stay => p
  | .up =>
    match p.names with
    | [] => ⟨p.ups + 1, []⟩
    | _ :: ns => ⟨p.ups, ns⟩
  | .down a => ⟨p.ups, a :: p.names⟩

def rel : Rel α := steps.foldl Rel.step ⟨0, []⟩

/-- Where the path leads from `st`. -/
def Rel.start (st : List α) : List α := p.names ++ st.drop p.ups

theorem walk_append (s t : List (Step α)) :
    walk st (s ++ t) = walk (walk st s) t := foldl_append ..

theorem walk_cons (s : Step α) (t : List (Step α)) : walk st (s :: t) = walk (s.apply st) t := rfl

theorem Rel.start_step (s : Step α) (st : List α) : (p.step s).start st = s.apply (p.start st) := by
  obtain ⟨u, ns⟩ := p
  cases s with
  | stay | down a => rfl
  | up =>
    cases ns with
    | nil | cons n ns => simp [Rel.step, Rel.start, Step.apply]

/-- **A walk is the path on its own, applied to the start.** -/
theorem walk_eq : walk st steps = (rel steps).start st := by
  have key : ∀ (steps : List (Step α)) (p : Rel α),
      walk (p.start st) steps = (steps.foldl Rel.step p).start st := by
    intro steps
    induction steps with
    | nil => intro p; rfl
    | cons s steps ih =>
      intro p
      rw [walk_cons, ← Rel.start_step, ih, foldl_cons]
  exact key steps ⟨0, []⟩

/-- **A path stays in or below its start if and only if it comes back the way it went up.** -/
theorem suffix_walk_iff : st <:+ walk st steps ↔ st.take (rel steps).ups <:+ (rel steps).names := by
  rw [walk_eq, Rel.start]
  generalize (rel steps).names = ns
  generalize (rel steps).ups = u
  refine ⟨fun h => ?_, fun h => ?_⟩
  · obtain ⟨t, ht⟩ := h
    have ht' : t ++ st.take u ++ st.drop u = ns ++ st.drop u := by
      rw [append_assoc, take_append_drop, ht]
    exact ⟨t, append_cancel_right ht'⟩
  · obtain ⟨t, ht⟩ := h
    refine ⟨t, ?_⟩
    rw [← ht, append_assoc, take_append_drop]

theorem mem_walk {st : List α} {steps : List (Step α)} {n : α} (h : n ∈ walk st steps) :
    n ∈ st ∨ .down n ∈ steps := by
  induction steps generalizing st with
  | nil => exact .inl h
  | cons s steps ih =>
    rcases ih h with hst | hsteps
    · cases s with
      | stay => exact .inl hst
      | up => exact .inl (mem_of_mem_tail hst)
      | down a =>
        rcases mem_cons.1 hst with rfl | hst
        · exact .inr mem_cons_self
        · exact .inl hst
    · exact .inr (mem_cons_of_mem _ hsteps)

theorem walk_down (names : List α) : walk st (names.map .down) = names.reverse ++ st := by
  induction names generalizing st with
  | nil => rfl
  | cons n names ih => rw [map_cons, walk_cons, ih, Step.apply]; simp

/-! ## The text of a place -/

section Text
variable {β : Type} {sep : β} (n : List β) (names : List (List β))

def text (sep : β) (names : List (List β)) : List β := names.flatMap (sep :: ·)

@[simp] theorem text_nil : text sep ([] : List (List β)) = [] := rfl

@[simp] theorem text_cons : text sep (n :: names) = sep :: n ++ text sep names := rfl

theorem text_append (a b : List (List β)) : text sep (a ++ b) = text sep a ++ text sep b := by
  simp [text]

/-- The text of what follows a name: nothing, or a separator first. -/
def Ends (sep : β) (t : List β) : Prop := t = [] ∨ ∃ t', t = sep :: t'

theorem ends_text : Ends sep (text sep names) := by
  cases names with
  | nil => exact .inl rfl
  | cons n names => exact .inr ⟨_, rfl⟩

theorem name_unique {a b s t : List β} (ha : sep ∉ a) (hb : sep ∉ b) (hs : Ends sep s)
    (ht : Ends sep t) (h : a ++ s = b ++ t) : a = b ∧ s = t := by
  induction a generalizing b with
  | nil =>
    cases b with
    | nil => exact ⟨rfl, h⟩
    | cons y b =>
      rcases hs with rfl | ⟨s', rfl⟩
      · cases h
      · rw [nil_append, cons_append, List.cons.injEq] at h
        exact absurd (mem_cons.2 (.inl h.1)) hb
  | cons x a ih =>
    cases b with
    | nil =>
      rcases ht with rfl | ⟨t', rfl⟩
      · cases h
      · rw [nil_append, cons_append, List.cons.injEq] at h
        exact absurd (mem_cons.2 (.inl h.1.symm)) ha
    | cons y b =>
      rw [cons_append, cons_append, List.cons.injEq] at h
      obtain ⟨rfl, h⟩ := h
      rw [mem_cons, not_or] at ha hb
      obtain ⟨rfl, rfl⟩ := ih ha.2 hb.2 h
      exact ⟨rfl, rfl⟩

/-- **Below in the text is below in the tree**: with names free of the separator, the text of `a`
and then a separator or nothing begins the text of `b` if and only if `a` begins `b`. -/
theorem text_prefix_iff {a b : List (List β)} (ha : ∀ n ∈ a, sep ∉ n) (hb : ∀ n ∈ b, sep ∉ n) :
    (∃ t, Ends sep t ∧ text sep b = text sep a ++ t) ↔ a <+: b := by
  refine ⟨fun h => ?_, fun h => ?_⟩
  · induction a generalizing b with
    | nil => exact nil_prefix
    | cons n a ih =>
      obtain ⟨t, ht, h⟩ := h
      cases b with
      | nil => simp at h
      | cons m b =>
        rw [text_cons, text_cons, append_assoc, cons_append, cons_append,
          List.cons.injEq] at h
        have hend : Ends sep (text sep a ++ t) := by
          cases a with
          | nil => exact ht
          | cons n' a => exact .inr ⟨_, rfl⟩
        obtain ⟨rfl, hrest⟩ := name_unique (hb m (by simp)) (ha n (by simp)) (ends_text b) hend h.2
        refine cons_prefix_cons.2 ⟨rfl, ih (fun n hn => ?_) (fun n hn => ?_) ⟨t, ht, hrest⟩⟩
        · exact ha n (by simp [hn])
        · exact hb n (by simp [hn])
  · obtain ⟨c, rfl⟩ := h
    exact ⟨text sep c, ends_text c, text_append a c⟩

end Text

end PathWalk
