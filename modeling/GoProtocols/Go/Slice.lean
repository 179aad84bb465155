import Mathlib.Data.List.Basic

/-!
# Slices

A slice is a window on an array that other slices may share, with room for more elements after it.
`append` writes into that room while it lasts, and so into the windows of other slices; only after
that it copies.
-/

namespace Go

open List

/-- The arrays, by address. -/
abbrev Heap (α : Type) := List (List α)

structure Slice where
  array : Nat
  off : Nat
  len : Nat
  cap : Nat

/-- `s[i:j]`. -/
def Slice.sub (s : Slice) (i j : Nat) : Slice := ⟨s.array, s.off + i, j - i, s.cap - i⟩

namespace Heap

variable {α : Type} {h : Heap α} {s t : Slice}

/-- The elements of a slice. -/
def read (h : Heap α) (s : Slice) : List α := ((h[s.array]?.getD []).drop s.off).take s.len

/-- `append(s, x)`. What room a new array has is not said. -/
def append (h : Heap α) (s : Slice) (x : α) : Heap α × Slice :=
  if s.len < s.cap then
    (h.modify s.array (·.set (s.off + s.len) x), { s with len := s.len + 1 })
  else (h ++ [h.read s ++ [x]], ⟨h.length, 0, s.len + 1, s.len + 1⟩)

/-- The slice lies in an array. -/
structure Valid (h : Heap α) (s : Slice) : Prop where
  len : s.len ≤ s.cap
  array : s.off + s.cap ≤ (h[s.array]?.getD []).length

theorem getElem?_read (h : Heap α) (s : Slice) (i : Nat) :
    (h.read s)[i]? = if i < s.len then (h[s.array]?.getD [])[s.off + i]? else none := by
  simp [read, List.getElem?_take]

theorem read_sub (h : Heap α) {i j : Nat} (hj : j ≤ s.len) :
    h.read (s.sub i j) = ((h.read s).take j).drop i := by
  apply ext_getElem?
  intro k
  rw [List.getElem?_drop, List.getElem?_take]
  simp only [getElem?_read, Slice.sub]
  grind

theorem Valid.length_read (hv : h.Valid s) : (h.read s).length = s.len := by
  have hlen := hv.len
  have harray := hv.array
  simp only [read, length_take, length_drop]
  omega

theorem Valid.sub (hv : h.Valid s) {i j : Nat} (hij : i ≤ j) (hj : j ≤ s.len) :
    h.Valid (s.sub i j) := by
  obtain ⟨hlen, harray⟩ := hv
  constructor <;> simp only [Slice.sub] <;> omega

/-- While there is room, slices of the same array see what is appended. -/
theorem getElem?_read_append (hv : h.Valid s) (hroom : s.len < s.cap) (x : α)
    (ht : t.array = s.array) (i : Nat) :
    ((h.append s x).1.read t)[i]? =
      if i < t.len ∧ t.off + i = s.off + s.len then some x else (h.read t)[i]? := by
  have hlt : s.off + s.len < (h[s.array]?.getD []).length := by
    have harray := hv.array
    omega
  cases ha : h[s.array]? with
  | none => simp [ha] at hlt
  | some a =>
    rw [ha, Option.getD_some] at hlt
    simp only [append, if_pos hroom, getElem?_read, ht, List.getElem?_modify, ha, if_true,
      Option.map_eq_map, Option.map_some, Option.getD_some, List.getElem?_set]
    grind

theorem Valid.append (ht : h.Valid t) (hroom : s.len < s.cap) (hts : t.array = s.array) (x : α) :
    (h.append s x).1.Valid t where
  len := ht.len
  array := by
    have harray := ht.array
    rw [hts] at harray ⊢
    cases ha : h[s.array]? <;>
      simpa [Heap.append, if_pos hroom, List.getElem?_modify, ha] using harray

/-- **What is appended is read at the end**, wherever it was written. -/
theorem Valid.read_append (hv : h.Valid s) (x : α) :
    (h.append s x).1.read (h.append s x).2 = h.read s ++ [x] := by
  have hlen := hv.length_read
  by_cases hroom : s.len < s.cap
  · have hnew : (h.append s x).2 = { s with len := s.len + 1 } := by rw [Heap.append, if_pos hroom]
    have hset := getElem?_read_append (t := { s with len := s.len + 1 }) hv hroom x rfl
    apply ext_getElem?
    intro i
    rw [hnew, hset, List.getElem?_append, hlen]
    simp only [getElem?_read]
    grind
  · rw [Heap.append, if_neg hroom, Heap.read, List.getElem?_concat_length, Option.getD_some,
      drop_zero, take_of_length_le]
    simp [hlen]

end Heap

end Go
