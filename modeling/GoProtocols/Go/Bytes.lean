import Mathlib.Data.List.Basic
import Mathlib.Data.List.TakeWhile
import Mathlib.Tactic.Ring

/-!
# Byte strings

A Go `string` is a sequence of bytes, not necessarily UTF-8; it is a `List UInt8` here. `lit` is a
string literal of the source (Go source files are UTF-8). The rest are the functions of package
`strings` on single bytes and prefixes, and the reads of `bufio.Reader` and `io.ReadFull` over the
bytes that are left.
-/

namespace Go

open List

abbrev Bytes := List UInt8

variable {cutset s : Bytes} {b sep : UInt8} {delim : UInt8} {w : Bytes}

instance : LawfulBEq Bytes := inferInstanceAs (LawfulBEq (List UInt8))

/-- A string literal of the source. -/
def lit (s : String) : Bytes := s.toUTF8.data.toList

/-! ## Package `strings` -/

/-- `strings.HasPrefix`. -/
def hasPrefix (s p : Bytes) : Bool := p.isPrefixOf s

/-- `strings.TrimPrefix`. -/
def trimPrefix (s p : Bytes) : Bytes := if hasPrefix s p then s.drop p.length else s

/-- `strings.Contains`. -/
def contains (s sub : Bytes) : Bool := s.tails.any fun t => hasPrefix t sub

/-- `strings.Split` at a one-byte separator. -/
def split (s : Bytes) (sep : UInt8) : List Bytes := s.splitOn sep

/-- `strings.Join`. -/
def join (elems : List Bytes) (sep : Bytes) : Bytes := sep.intercalate elems

/-- `strings.TrimLeft` with a cutset of ASCII characters. -/
def trimLeft (s cutset : Bytes) : Bytes := s.dropWhile fun b => cutset.contains b

/-- `strings.TrimRight` with a cutset of ASCII characters. -/
def trimRight (s cutset : Bytes) : Bytes := (trimLeft s.reverse cutset).reverse

/-- `strings.Cut` at a one-byte separator: what stands before and after its first occurrence. -/
def cut (s : Bytes) (sep : UInt8) : Option (Bytes × Bytes) :=
  match s with
  | [] => none
  | b :: s => if b = sep then some ([], s) else (cut s sep).map fun q => (b :: q.1, q.2)

/-- `strings.ReplaceAll` of a single byte. -/
def replaceAll (s : Bytes) (old : UInt8) (new : Bytes) : Bytes :=
  s.flatMap fun b => if b = old then new else [b]

/-- `strings.LastIndex` of a single byte. -/
def lastIndexByte (s : Bytes) (c : UInt8) : Option Nat :=
  (s.reverse.idxOf? c).map fun i => s.length - 1 - i

theorem lastIndexByte_append {a n : Bytes} {c : UInt8} (h : c ∉ n) :
    lastIndexByte (a ++ c :: n) c = some a.length := by
  have hidx : (n.reverse ++ c :: a.reverse).idxOf? c = some n.length := by
    rw [List.idxOf?_eq_some_iff]
    refine ⟨by simp, by simp, fun j hj => ?_⟩
    rw [getElem_append_left (by simpa using hj)]
    exact fun he => h (mem_reverse.1 (he ▸ getElem_mem _))
  rw [lastIndexByte, reverse_append, reverse_cons, append_assoc,
    singleton_append, hidx]
  simp

theorem hasPrefix_iff {p : Bytes} : hasPrefix s p = true ↔ p <+: s := by
  simp [hasPrefix]

theorem mem_join {elems : List Bytes} {sep : Bytes} (h : b ∈ join elems sep) :
    b ∈ sep ∨ ∃ e ∈ elems, b ∈ e := by
  unfold join at h
  induction elems with
  | nil => cases h
  | cons e elems ih =>
    cases elems with
    | nil => exact .inr ⟨e, by simp, by simpa using h⟩
    | cons e' elems =>
      rw [intercalate_cons_cons, mem_append, mem_append] at h
      rcases h with (h | h) | h
      · exact .inr ⟨e, by simp, h⟩
      · exact .inl h
      · rcases ih h with h | ⟨d, hd, h⟩
        · exact .inl h
        · exact .inr ⟨d, mem_cons_of_mem _ hd, h⟩

theorem mem_join_of_mem {elems : List Bytes} {e : Bytes} (he : e ∈ elems) (hb : b ∈ e)
    (sep : Bytes) : b ∈ join elems sep := by
  unfold join
  induction elems with
  | nil => cases he
  | cons d elems ih =>
    cases elems with
    | nil =>
      obtain rfl := mem_singleton.1 he
      simpa using hb
    | cons d' elems =>
      rw [intercalate_cons_cons, mem_append, mem_append]
      rcases mem_cons.1 he with rfl | he
      · exact .inl (.inl hb)
      · exact .inr (ih he)

theorem mem_of_mem_split {seg : Bytes} (h : seg ∈ split s sep) (hb : b ∈ seg) :
    b ∈ s := by
  have hs : join (split s sep) [sep] = s := intercalate_splitOn sep
  exact hs ▸ mem_join_of_mem h hb [sep]

theorem sep_notMem_of_mem_split {seg : Bytes} (h : seg ∈ split s sep) :
    sep ∉ seg := by
  unfold split at h
  induction s generalizing seg with
  | nil =>
    rw [splitOn_nil, mem_singleton] at h
    simp [h]
  | cons b s ih =>
    rw [splitOn_cons_eq_if_modifyHead] at h
    split at h
    · rcases mem_cons.1 h with rfl | h
      · simp
      · exact ih h
    · rename_i hb
      obtain ⟨t, ts, hs⟩ := exists_cons_of_ne_nil (splitOn_ne_nil sep s)
      rw [hs] at h ih
      rcases mem_cons.1 h with rfl | h
      · have := ih mem_cons_self
        have hb' : sep ≠ b := fun e => hb (by simp [e])
        simp [this, hb']
      · exact ih (mem_cons_of_mem _ h)

theorem cut_eq_some {a b : Bytes} :
    cut s sep = some (a, b) ↔ sep ∉ a ∧ s = a ++ sep :: b := by
  induction s generalizing a b with
  | nil => simp [cut]
  | cons c s ih =>
    by_cases hc : c = sep
    · subst hc
      cases a with
      | nil => simp [cut]
      | cons d a => simp +contextual [cut]
    · simp only [cut, if_neg hc, Option.map_eq_some_iff, Prod.exists, Prod.mk.injEq, ih]
      constructor
      · rintro ⟨a', b', ⟨ha, rfl⟩, rfl, rfl⟩
        exact ⟨by simp [ha, Ne.symm hc], rfl⟩
      · rintro ⟨ha, he⟩
        cases a with
        | nil => exact absurd (List.cons.inj he).1 hc
        | cons d a =>
          cases he
          exact ⟨a, b, ⟨fun h => ha (mem_cons_of_mem _ h), rfl⟩, rfl, rfl⟩

theorem cut_append (h : sep ∉ w) (r : Bytes) : cut (w ++ sep :: r) sep = some (w, r) :=
  cut_eq_some.2 ⟨h, rfl⟩

theorem cut_eq_none : cut s sep = none ↔ sep ∉ s := by
  constructor
  · intro h hmem
    obtain ⟨a, b, rfl, ha⟩ := eq_append_cons_of_mem hmem
    rw [cut_append ha] at h
    cases h
  · intro h
    cases hc : cut s sep with
    | none => rfl
    | some q =>
      rw [(cut_eq_some.1 hc).2] at h
      simp at h

theorem trimLeft_of_head (h : ∀ b ∈ s.head?, b ∉ cutset) :
    trimLeft s cutset = s := by
  cases s with
  | nil => rfl
  | cons b s => exact dropWhile_cons_of_neg (by simpa using h b rfl)

theorem trimLeft_split (s cutset : Bytes) :
    ∃ w, (∀ b ∈ w, b ∈ cutset) ∧ s = w ++ trimLeft s cutset :=
  ⟨s.takeWhile fun b => cutset.contains b, fun b hb => by
    simpa using mem_takeWhile_imp hb, (takeWhile_append_dropWhile ..).symm⟩

theorem trimLeft_head (h : b ∈ (trimLeft s cutset).head?) :
    b ∉ cutset := by
  have hb := List.head?_dropWhile_not (fun b => cutset.contains b) s
  rw [show (s.dropWhile fun b => cutset.contains b).head? = some b from h] at hb
  simpa using hb

theorem trimRight_of_last (h : ∀ b ∈ s.getLast?, b ∉ cutset) :
    trimRight s cutset = s := by
  rw [trimRight, trimLeft_of_head (by simpa using h), reverse_reverse]

theorem trimRight_split (s cutset : Bytes) :
    ∃ w, (∀ b ∈ w, b ∈ cutset) ∧ s = trimRight s cutset ++ w := by
  obtain ⟨w, hw, hs⟩ := trimLeft_split s.reverse cutset
  refine ⟨w.reverse, fun b hb => hw b (by simpa using hb), ?_⟩
  rw [trimRight, ← reverse_append, ← hs, reverse_reverse]

theorem trimRight_last (h : b ∈ (trimRight s cutset).getLast?) :
    b ∉ cutset :=
  trimLeft_head (s := s.reverse) (by simpa [trimRight] using h)

theorem trimRight_concat (hb : b ∈ cutset) (s : Bytes) :
    trimRight (s ++ [b]) cutset = trimRight s cutset := by
  simp [trimRight, trimLeft, hb]

theorem trimRight_append (hb : b ∉ cutset) (a s : Bytes) :
    trimRight (a ++ b :: s) cutset = a ++ b :: trimRight s cutset := by
  obtain ⟨w, hw, hs⟩ := trimRight_split s cutset
  have hdrop : trimLeft (w.reverse ++ ((trimRight s cutset).reverse ++ b :: a.reverse)) cutset =
      (trimRight s cutset).reverse ++ b :: a.reverse := by
    rw [trimLeft, dropWhile_append_of_pos (by simpa using hw)]
    refine trimLeft_of_head fun c hc => ?_
    cases hr : (trimRight s cutset).reverse with
    | nil =>
      rw [hr] at hc
      obtain rfl : b = c := by simpa using hc
      exact hb
    | cons d l =>
      rw [hr] at hc
      refine trimRight_last (s := s) ?_
      rw [← List.head?_reverse, hr]
      exact hc
  conv_lhs => rw [hs]
  rw [trimRight, reverse_append, reverse_cons, reverse_append, append_assoc,
    append_assoc, singleton_append, hdrop]
  simp

/-! ## Readers -/

/-- The errors of `io`. -/
inductive IoError
  | EOF
  | ErrUnexpectedEOF
  deriving DecidableEq, Repr

/-- `bufio.Reader.ReadString`: up to and including the first `delim`, with the bytes left. -/
def readString (delim : UInt8) : Bytes → Option (Bytes × Bytes)
  | [] => none
  | b :: r =>
    if b = delim then some ([b], r) else (readString delim r).map fun q => (b :: q.1, q.2)

/-- `io.ReadFull` into a buffer of `n` bytes. -/
def readFull (n : Nat) (r : Bytes) : Except IoError (Bytes × Bytes) :=
  if n ≤ r.length then .ok (r.take n, r.drop n)
  else if r = [] then .error .EOF
  else .error .ErrUnexpectedEOF

theorem readString_eq_cut (delim : UInt8) (r : Bytes) :
    readString delim r = (cut r delim).map fun q => (q.1 ++ [delim], q.2) := by
  induction r with
  | nil => rfl
  | cons b r ih =>
    by_cases hb : b = delim
    · simp [readString, cut, hb]
    · simp [readString, cut, hb, ih, Function.comp_def]

theorem readString_eq_some {r r' : Bytes} :
    readString delim r = some (s, r') ↔
      ∃ w, delim ∉ w ∧ s = w ++ [delim] ∧ r = w ++ delim :: r' := by
  simp only [readString_eq_cut, Option.map_eq_some_iff, Prod.exists, Prod.mk.injEq, cut_eq_some]
  constructor
  · rintro ⟨w, b, ⟨hw, rfl⟩, rfl, rfl⟩
    exact ⟨w, hw, rfl, rfl⟩
  · rintro ⟨w, hw, rfl, rfl⟩
    exact ⟨w, r', ⟨hw, rfl⟩, rfl, rfl⟩

theorem readString_append (h : delim ∉ w) (r : Bytes) :
    readString delim (w ++ delim :: r) = some (w ++ [delim], r) :=
  readString_eq_some.2 ⟨w, h, rfl, rfl⟩

theorem readFull_eq_ok {n : Nat} {r r' : Bytes} :
    readFull n r = .ok (s, r') ↔ s.length = n ∧ r = s ++ r' := by
  unfold readFull
  split
  · rename_i h
    simp only [Except.ok.injEq, Prod.mk.injEq]
    constructor
    · rintro ⟨rfl, rfl⟩
      simp [h]
    · rintro ⟨rfl, rfl⟩
      simp
  · rename_i h
    have hno : ¬ (s.length = n ∧ r = s ++ r') := by
      rintro ⟨rfl, rfl⟩
      simp at h
    split <;> simpa using hno

end Go
