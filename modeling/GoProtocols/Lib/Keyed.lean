import Mathlib.Data.List.Sort
import Mathlib.Tactic.Ring

/-!
# Lists of entries under keys

A finite map as a list of entries `(key, value)` with distinct keys, in no particular order.

* `sortByKey`: the entries in the order of their keys. It commutes with a change of the values
  (`sortByKey_mapVal`) and leaves a list with increasing keys alone (`sortByKey_of_keys_lt`).
* `insertKey`: `m[key] = val`. Inserting entries with new keys one by one appends them
  (`foldl_insertKey`).
-/

namespace Keyed

open List

variable {κ α β : Type} (f : α → β) (e : κ × α) (l : List (κ × α)) {m : List (κ × α)} {key : κ}
  {val : α}

def keys : List κ := l.map Prod.fst

@[simp] theorem keys_nil : keys ([] : List (κ × α)) = [] := rfl
@[simp] theorem keys_cons : keys (e :: l) = e.1 :: keys l := rfl
@[simp] theorem keys_append (l' : List (κ × α)) : keys (l ++ l') = keys l ++ keys l' := by
  simp [keys]

theorem keys_perm {l l' : List (κ × α)} (h : l.Perm l') : (keys l).Perm (keys l') := h.map _

/-- The entries with `f` applied to their values. -/
def mapVal (f : α → β) (l : List (κ × α)) : List (κ × β) := l.map fun e => (e.1, f e.2)

@[simp] theorem mapVal_cons : mapVal f (e :: l) = (e.1, f e.2) :: mapVal f l := rfl
@[simp] theorem keys_mapVal : keys (mapVal f l) = keys l := by
  simp [keys, mapVal]

/-! ## Insertion -/

section
variable [DecidableEq κ]

/-- `m[key] = val`. -/
def insertKey (m : List (κ × α)) (key : κ) (val : α) : List (κ × α) :=
  m.filter (fun e => e.1 ≠ key) ++ [(key, val)]

theorem insertKey_of_notMem (h : key ∉ keys m) (val : α) :
    insertKey m key val = m ++ [(key, val)] := by
  unfold insertKey
  rw [filter_eq_self.2]
  intro e he
  have : e.1 ≠ key := fun hk => h (hk ▸ mem_map_of_mem he)
  simpa using this

theorem foldl_insertKey {es : List (κ × α)} (hn : (keys m ++ keys es).Nodup) :
    es.foldl (fun m e => insertKey m e.1 e.2) m = m ++ es := by
  induction es generalizing m with
  | nil => simp
  | cons e es ih =>
    have hnew : e.1 ∉ keys m := fun hm =>
      (nodup_append.1 hn).2.2 e.1 hm e.1 (by simp) rfl
    rw [foldl_cons, insertKey_of_notMem hnew, ih (by simpa using hn)]
    simp

theorem nodup_insertKey (h : (keys m).Nodup) (key : κ) (val : α) :
    (keys (insertKey m key val)).Nodup := by
  unfold insertKey
  rw [keys_append, nodup_append]
  refine ⟨h.sublist (List.Sublist.map _ filter_sublist), by simp, fun a ha b hb => ?_⟩
  obtain ⟨e, he, rfl⟩ := mem_map.1 ha
  have := (mem_filter.1 he).2
  simp only [keys_cons, keys_nil, mem_singleton] at hb
  subst hb
  simpa using this

theorem mem_insertKey {e : κ × α} (h : e ∈ insertKey m key val) : e ∈ m ∨ e = (key, val) := by
  unfold insertKey at h
  rcases mem_append.1 h with h | h
  · exact .inl (mem_filter.1 h).1
  · exact .inr (by simpa using h)

end

/-! ## Lookup -/

section
variable [BEq κ] [LawfulBEq κ] {l : List (κ × α)} {k : κ} {v : α}

theorem lookup_of_mem (hn : (keys l).Nodup) (h : (k, v) ∈ l) : l.lookup k = some v := by
  induction l with
  | nil => cases h
  | cons e l ih =>
    simp only [keys_cons, nodup_cons] at hn
    rcases mem_cons.1 h with rfl | h
    · simp
    · have hne : k ≠ e.1 := fun he => hn.1 (he ▸ mem_map_of_mem h)
      rw [lookup_cons, beq_eq_false_iff_ne.2 hne]
      exact ih hn.2 h

end

/-! ## Sorting -/

section
variable [LE κ] [DecidableLE κ]

def sortByKey (l : List (κ × α)) : List (κ × α) := l.insertionSort fun a b => a.1 ≤ b.1

theorem sortByKey_perm : (sortByKey l).Perm l := perm_insertionSort _ l

theorem sortByKey_mapVal : sortByKey (mapVal f l) = mapVal f (sortByKey l) := by
  unfold sortByKey mapVal
  rw [map_insertionSort (fun a b : κ × α => a.1 ≤ b.1) (fun a b : κ × β => a.1 ≤ b.1)]
  exact fun _ _ _ _ => Iff.rfl

theorem sortByKey_pairwise [Std.IsLinearOrder κ] : (sortByKey l).Pairwise fun a b => a.1 ≤ b.1 := by
  have : Std.Total (fun a b : κ × α => a.1 ≤ b.1) := ⟨fun a b => Std.Total.total a.1 b.1⟩
  have : IsTrans (κ × α) (fun a b => a.1 ≤ b.1) := ⟨fun _ _ _ h h' => Std.le_trans h h'⟩
  exact pairwise_insertionSort _ l

theorem sortByKey_sortByKey [Std.IsLinearOrder κ] : sortByKey (sortByKey l) = sortByKey l :=
  List.Pairwise.insertionSort_eq (sortByKey_pairwise l)

variable [LT κ] [Std.LawfulOrderLT κ] {l}

theorem sortByKey_of_keys_lt (h : (keys l).Pairwise (· < ·)) : sortByKey l = l := by
  refine List.Pairwise.insertionSort_eq ?_
  rw [keys, pairwise_map] at h
  exact h.imp fun h => Std.le_of_lt h

theorem keys_sortByKey_lt [Std.IsLinearOrder κ] (hn : (keys l).Nodup) :
    (keys (sortByKey l)).Pairwise (· < ·) := by
  have hn' : (keys (sortByKey l)).Nodup := (keys_perm (sortByKey_perm l)).nodup_iff.2 hn
  rw [keys, pairwise_map]
  rw [keys, List.Nodup, pairwise_map] at hn'
  exact ((sortByKey_pairwise l).and hn').imp fun h => Std.lt_of_le_of_ne h.1 h.2

end

theorem nodup_of_lt [LE κ] [LT κ] [Std.LawfulOrderLT κ] {l : List κ}
    (h : l.Pairwise (· < ·)) : l.Nodup :=
  h.imp fun h => Std.ne_of_lt h

end Keyed
