import Mathlib.Data.List.DropRight
import Mathlib.Data.Nat.ModEq

/-!
# Ring buffers

`irc/internal/ringbuf`: a circular buffer of fixed capacity. The elements from the oldest to the
newest are in `size` cells from `head` on, modulo the capacity.

`slice_push`: a push appends to the contents and keeps the last elements, as many as there are cells.
-/

namespace Irc

open List

/-- `RingBuf`; the capacity `cap_` is the length of the array. -/
structure RingBuf (α : Type) where
  buf : Array α
  head : Nat
  size : Nat
  cap_pos : 0 < buf.size
  head_lt : head < buf.size
  size_le : size ≤ buf.size

namespace RingBuf

variable {α : Type} (r : RingBuf α) (v : α) (i : Nat)

def cap : Nat := r.buf.size

/-- `New`; no cell is read before something is written to it. -/
def new [Inhabited α] (capacity : Int) : RingBuf α where
  buf := Array.replicate (if capacity ≤ 0 then 1 else capacity.toNat) default
  head := 0
  size := 0
  cap_pos := by
    rw [Array.size_replicate]
    split <;> omega
  head_lt := by
    rw [Array.size_replicate]
    split <;> omega
  size_le := Nat.zero_le _

/-- The cell of the `i`-th element. -/
def cell : Nat := (r.head + i) % r.buf.size

theorem cell_lt : r.cell i < r.buf.size := Nat.mod_lt _ r.cap_pos

/-- The element at an offset from the oldest. -/
def elem : α :=
  have := r.cell_lt i
  r.buf[r.cell i]

/-- `Push` into a full buffer: the oldest element is overwritten. -/
def overwrite : RingBuf α where
  buf := r.buf.set r.head v r.head_lt
  head := (r.head + 1) % r.buf.size
  size := r.size
  cap_pos := by simpa using r.cap_pos
  head_lt := by simpa using Nat.mod_lt _ r.cap_pos
  size_le := by simpa using r.size_le

/-- `Push` into the first free cell. -/
def extend (h : r.size ≠ r.buf.size) : RingBuf α where
  buf := r.buf.set (r.cell r.size) v (r.cell_lt _)
  head := r.head
  size := r.size + 1
  cap_pos := by simpa using r.cap_pos
  head_lt := by simpa using r.head_lt
  size_le := by
    have := r.size_le
    rw [Array.size_set]
    omega

/-- `Push`. -/
def push : RingBuf α :=
  if h : r.size = r.buf.size then r.overwrite v else r.extend v h

/-- `Slice`: the elements from the oldest to the newest. -/
def slice : List α := (List.range r.size).map r.elem

/-! ## Contents -/

theorem cap_new [Inhabited α] {capacity : Int} (h : 0 < capacity) :
    (new capacity : RingBuf α).cap = capacity.toNat := by
  show (Array.replicate (if capacity ≤ 0 then 1 else capacity.toNat) (default : α)).size = _
  rw [Array.size_replicate, if_neg (by omega)]

@[simp]
theorem cap_push : (r.push v).cap = r.cap := by
  unfold push
  split
  · exact Array.size_set r.head_lt
  · exact Array.size_set (r.cell_lt _)

theorem length_slice : r.slice.length = r.size := by simp [slice]

theorem length_slice_le : r.slice.length ≤ r.cap := by
  rw [length_slice]
  exact r.size_le

theorem cell_inj {i j : Nat} (hi : i < r.buf.size) (hj : j < r.buf.size)
    (h : r.cell i = r.cell j) : i = j := by
  have hmod : i ≡ j [MOD r.buf.size] := Nat.ModEq.add_left_cancel' r.head h
  exact hmod.eq_of_lt_of_lt hi hj

theorem cell_zero : r.cell 0 = r.head := Nat.mod_eq_of_lt r.head_lt

theorem slice_extend {r : RingBuf α} (h : r.size ≠ r.buf.size) (v : α) :
    (r.extend v h).slice = r.slice ++ [v] := by
  have hlt : r.size < r.buf.size := Nat.lt_of_le_of_ne r.size_le h
  have helem : ∀ i, (r.extend v h).elem i =
      if r.cell r.size = r.cell i then v else r.elem i := by
    intro i
    simp only [elem, cell, extend, Array.size_set, Array.getElem_set]
    rfl
  rw [slice, show (r.extend v h).size = r.size + 1 from rfl, range_succ, map_append,
    map_singleton, helem, if_pos rfl]
  congr 1
  refine map_congr_left fun i hi => ?_
  rw [mem_range] at hi
  have hne : r.cell r.size ≠ r.cell i := by
    intro heq
    have := r.cell_inj hlt (by omega) heq
    omega
  rw [helem, if_neg hne]

theorem slice_overwrite {r : RingBuf α} (h : r.size = r.buf.size) (v : α) :
    (r.overwrite v).slice = r.slice.drop 1 ++ [v] := by
  have hpos := r.cap_pos
  obtain ⟨n, hn⟩ : ∃ n, r.buf.size = n + 1 := ⟨r.buf.size - 1, by omega⟩
  have hsize : r.size = n + 1 := h.trans hn
  -- what stood at an offset stands at the one below it, and the new element where the oldest was
  have helem : ∀ i, (r.overwrite v).elem i =
      if r.cell 0 = r.cell (i + 1) then v else r.elem (i + 1) := by
    intro i
    rw [cell_zero]
    simp only [elem, cell, overwrite, Array.size_set, Array.getElem_set, Nat.mod_add_mod,
      Nat.add_assoc, Nat.add_comm 1]
    rfl
  have hwrap : r.cell 0 = r.cell (n + 1) := by
    rw [← hn, cell, cell, Nat.add_zero, Nat.add_mod_right]
  rw [slice, show (r.overwrite v).size = n + 1 from hsize, range_succ, map_append,
    map_singleton, helem, if_pos hwrap, slice, hsize, range_succ_eq_map, map_cons,
    drop_succ_cons, drop_zero, map_map]
  congr 1
  refine map_congr_left fun i hi => ?_
  rw [mem_range] at hi
  have hne : r.cell 0 ≠ r.cell (i + 1) := by
    intro heq
    have := r.cell_inj hpos (by omega) heq
    omega
  rw [helem, if_neg hne]
  rfl

/-- **The contents after a push** are the last elements, as many as there are cells. -/
theorem slice_push : (r.push v).slice = (r.slice ++ [v]).rtake r.cap := by
  have hpos : 0 < r.cap := r.cap_pos
  have hle : r.size ≤ r.cap := r.size_le
  rw [List.rtake, length_append, length_singleton, length_slice]
  by_cases h : r.size = r.buf.size
  · have hone : r.size + 1 - r.cap = 1 := by
      rw [cap, ← h]
      omega
    rw [push, dif_pos h, slice_overwrite h, hone, drop_append_of_le_length]
    rw [length_slice]
    omega
  · have hzero : r.size + 1 - r.cap = 0 := by
      have : r.size ≠ r.cap := h
      omega
    rw [push, dif_neg h, slice_extend h, hzero, drop_zero]

end RingBuf

end Irc
