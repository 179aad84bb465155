import Mathlib.Data.List.AList
import Mathlib.Data.List.Sort
import GoProtocols.Go.Bytes

/-!
# Maps

A Go map: a list of entries with distinct keys (`AList`). The list has some order; where the source
ranges over a map, the order of the visits is not this one but any (`visit`).
-/

namespace Go

open List

variable {α : Type} (rank : α → Nat) (l : List α)

abbrev Map (κ α : Type) := AList fun _ : κ => α

/-- The order in which `range` visits entries, given by their ranks. -/
def visit : List α :=
  l.insertionSort fun a b => rank a ≤ rank b

theorem visit_perm : (visit rank l).Perm l :=
  perm_insertionSort _ l

namespace Map

variable {κ α : Type} (p : κ → α → Prop) (f : α → α)

/-- What holds of all entries. -/
def All (m : Map κ α) : Prop := ∀ e ∈ m.entries, p e.1 e.2

instance [∀ k v, Decidable (p k v)] (m : Map κ α) : Decidable (All p m) :=
  inferInstanceAs (Decidable (∀ e ∈ m.entries, p e.1 e.2))

theorem all_empty {p : κ → α → Prop} : All p (∅ : Map κ α) := fun _ he => by cases he

theorem All.imp {p q : κ → α → Prop} {m : Map κ α} (h : All p m) (hpq : ∀ k v, p k v → q k v) :
    All q m :=
  fun e he => hpq e.1 e.2 (h e he)

variable [DecidableEq κ] (q : α → Bool) (m : Map κ α) (k : κ) (es : List (κ × α)) (k' : κ) (v : α)

/-- Put entries into a map one after the other. -/
def insertAll : Map κ α :=
  es.foldl (fun m e => m.insert e.1 e.2) m

def ofList : Map κ α := insertAll ∅ es

theorem lookup_insert_eq : (m.insert k v).lookup k' = if k' = k then some v else m.lookup k' := by
  split
  · rename_i h
    rw [h, AList.lookup_insert]
  · rename_i h
    rw [AList.lookup_insert_ne h]

theorem lookup_erase_eq : (m.erase k).lookup k' = if k' = k then none else m.lookup k' := by
  split
  · rename_i h
    rw [h, AList.lookup_erase]
  · rename_i h
    rw [AList.lookup_erase_ne h]

theorem lookup_eq_some_iff {m : Map κ α} {k : κ} {v : α} :
    m.lookup k = some v ↔ ⟨k, v⟩ ∈ m.entries :=
  AList.mem_lookup_iff

/-- Change every value. -/
def mapValues (f : α → α) (m : Map κ α) : Map κ α :=
  ⟨m.entries.map (Sigma.map id fun _ => f), List.NodupKeys.map₂ _ _ m.nodupKeys⟩

@[simp] theorem lookup_mapValues : (mapValues f m).lookup k = (m.lookup k).map f :=
  dlookup_map₂ k

/-- The number of entries with a value of some kind. -/
def count : Nat := m.entries.countP fun e => q e.2

theorem countP_kerase (l : List (Sigma fun _ : κ => α)) :
    l.countP (fun e => q e.2) =
      (l.kerase k).countP (fun e => q e.2) + (l.dlookup k).elim 0 fun v => (q v).toNat := by
  induction l with
  | nil => rfl
  | cons e l ih =>
    obtain ⟨k', v⟩ := e
    by_cases hk : k = k'
    · subst hk
      have hkerase : List.kerase k (⟨k, v⟩ :: l) = l := kerase_cons_eq rfl
      rw [hkerase, dlookup_cons_eq, countP_cons, Option.elim_some]
      cases q v <;> rfl
    · have hkerase : List.kerase k (⟨k', v⟩ :: l) = ⟨k', v⟩ :: List.kerase k l :=
        kerase_cons_ne hk
      have hlookup : List.dlookup k (⟨k', v⟩ :: l) = List.dlookup k l :=
        dlookup_cons_ne _ _ hk
      rw [hkerase, hlookup, countP_cons, countP_cons, ih]
      omega

theorem count_insert :
    count q (m.insert k v) + (m.lookup k).elim 0 (fun v => (q v).toNat) =
      count q m + (q v).toNat := by
  have hk := countP_kerase q k m.entries
  rw [count, count, AList.entries_insert, countP_cons, hk]
  have hlookup : m.lookup k = m.entries.dlookup k := rfl
  rw [hlookup]
  cases q v
  · simp
  · simp
    omega

theorem count_erase :
    count q (m.erase k) + (m.lookup k).elim 0 (fun v => (q v).toNat) = count q m :=
  (countP_kerase q k m.entries).symm

variable {p : κ → α → Prop} {m : Map κ α} {es : List (κ × α)} {k : κ} {v}

theorem All.insert (h : All p m) (hv : p k v) : All p (m.insert k v) := by
  intro e he
  rw [AList.entries_insert, mem_cons] at he
  rcases he with rfl | he
  · exact hv
  · exact h e ((kerase_sublist k m.entries).subset he)

theorem All.erase (h : All p m) (k : κ) : All p (m.erase k) :=
  fun e he => h e ((kerase_sublist k m.entries).subset he)

theorem All.of_lookup (h : All p m) (hv : m.lookup k = some v) : p k v :=
  h ⟨k, v⟩ (lookup_eq_some_iff.1 hv)

theorem All.getD {q : α → Prop} {d : α} (h : All p m) (hd : q d) (hq : ∀ v, p k v → q v) :
    q ((m.lookup k).getD d) := by
  cases hv : m.lookup k with
  | none => exact hd
  | some v => exact hq v (h.of_lookup hv)

theorem mem_insertAll : k ∈ m.insertAll es ↔ k ∈ m ∨ k ∈ es.map Prod.fst := by
  unfold Map.insertAll
  induction es generalizing m with
  | nil => simp
  | cons e es ih =>
    rw [foldl_cons, ih, AList.mem_insert, map_cons, mem_cons, or_comm (a := k = e.1),
      or_assoc]

theorem exists_lookup_insertAll (h : (∃ v, m.lookup k = some v) ∨ ∃ v, (k, v) ∈ es) :
    ∃ v, (m.insertAll es).lookup k = some v := by
  refine Option.isSome_iff_exists.1 (AList.lookup_isSome.2 (mem_insertAll.2 ?_))
  rcases h with ⟨v, hv⟩ | ⟨v, hv⟩
  · exact .inl (AList.lookup_isSome.1 (Option.isSome_iff_exists.2 ⟨v, hv⟩))
  · exact .inr (mem_map.2 ⟨(k, v), hv, rfl⟩)

theorem All.insertAll {es : List (κ × α)} (h : All p m) (hes : ∀ e ∈ es, p e.1 e.2) :
    All p (insertAll m es) := by
  unfold Map.insertAll
  induction es generalizing m with
  | nil => exact h
  | cons e es ih => exact ih (h.insert (hes e (by simp))) (forall_mem_cons.1 hes).2

end Map

end Go
