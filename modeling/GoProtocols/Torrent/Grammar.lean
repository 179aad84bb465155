import GoProtocols.Torrent.Bencode

/-!
# The grammar of bencoded input

What a byte string means, without reference to the decoder's loops:

* `Spells w v`: the bytes `w` are one complete value, read as `v`. This is the language the decoder
  accepts (`decode_iff`, `Torrent/Proof/Decode.lean`); it is wider than BEP 3: numbers may have
  leading zeros, a dictionary's keys any order and a sign before their length, and of equal keys
  the last wins.
* `StringAt r s`: in `r`, a string has to start at the suffix `s`, everything before it being
  complete. These are the places where a length is read (`LengthAt`).
* `Canonical w`: `w` is one value in the canonical form of BEP 3.
-/

namespace Bencode

open Go Keyed Decimal

variable {k kw s : Bytes} {n : Int} {w : Bytes} {v : Value}

/-! ## Values -/

/-- `kw` is a length, a colon and as many bytes as it says: the string `k`. -/
inductive SpellsString : Bytes → Bytes → Prop
  | mk {len k : Bytes} : Reads len k.length → k.length ≤ maxAlloc → SpellsString (len ++ 58 :: k) k

/-- The map that results from storing the entries in order. -/
def mapOf (es : List (Bytes × Value)) : List (Bytes × Value) :=
  es.foldl (fun m e => insertKey m e.1 e.2) []

mutual

/-- `w` is one complete value, read as `v`. -/
inductive Spells : Bytes → Value → Prop
  | int {s : Bytes} {n : Int} : Reads s n → s ≠ lit "-0" →
      Spells (105 :: s ++ [101]) (.int64 (Int64.ofInt n))
  | string {b : UInt8} {t k : Bytes} : IsDigit b → SpellsString (b :: t) k →
      Spells (b :: t) (.string k)
  | list {w : Bytes} {l : List Value} : SpellsItems w l → Spells (108 :: w ++ [101]) (.list l)
  | map {w : Bytes} {es : List (Bytes × Value)} : SpellsEntries w es →
      Spells (100 :: w ++ [101]) (.map (mapOf es))

/-- `w` is a sequence of complete values. -/
inductive SpellsItems : Bytes → List Value → Prop
  | nil : SpellsItems [] []
  | cons {w ws : Bytes} {v : Value} {l : List Value} : Spells w v → SpellsItems ws l →
      SpellsItems (w ++ ws) (v :: l)

/-- `w` is a sequence of complete keys and values. -/
inductive SpellsEntries : Bytes → List (Bytes × Value) → Prop
  | nil : SpellsEntries [] []
  | cons {kw k w ws : Bytes} {v : Value} {es : List (Bytes × Value)} : SpellsString kw k →
      Spells w v → SpellsEntries ws es → SpellsEntries (kw ++ (w ++ ws)) ((k, v) :: es)

end

/-! ## Where strings start -/

/-- A string has to start at the suffix `s` of `r`: a value that begins with a digit, or a key (a
key is not required to begin with a digit). -/
inductive StringAt : Bytes → Bytes → Prop
  | here {b : UInt8} {r : Bytes} : IsDigit b → StringAt (b :: r) (b :: r)
  | item {w r s : Bytes} {l : List Value} : SpellsItems w l → StringAt r s →
      StringAt (108 :: (w ++ r)) s
  | key {w r : Bytes} {b : UInt8} {es : List (Bytes × Value)} : SpellsEntries w es → b ≠ 101 →
      StringAt (100 :: (w ++ b :: r)) (b :: r)
  | value {w kw k r s : Bytes} {es : List (Bytes × Value)} : SpellsEntries w es →
      SpellsString kw k → StringAt r s → StringAt (100 :: (w ++ (kw ++ r))) s

/-- The length `n` is read for a string in `r`, with `t` the bytes after its colon. -/
def LengthAt (r : Bytes) (n : Int) (t : Bytes) : Prop :=
  ∃ len, StringAt r (len ++ 58 :: t) ∧ Reads len n

/-- Every length read in `r` is the length of a string that is there: not negative, not longer
than the bytes that follow, and within what Go can allocate. -/
def LengthsFit (r : Bytes) : Prop :=
  ∀ n t, LengthAt r n t → 0 ≤ n ∧ n ≤ t.length ∧ n ≤ maxAlloc

/-! ## Canonical form -/

/-- A numeral without sign and leading zeros. -/
structure Numeral (ds : Bytes) (n : Nat) : Prop where
  digits : IsDigits ds
  noZero : NoLeadingZero ds
  value : value ds = n

/-- An integer of the canonical form: no plus sign, no leading zeros, no negative zero. -/
inductive CanonicalInt : Bytes → Int → Prop
  | nonneg {ds : Bytes} {n : Nat} : Numeral ds n → n < 2 ^ 63 → CanonicalInt ds n
  | neg {ds : Bytes} {n : Nat} : Numeral ds n → 0 < n → n ≤ 2 ^ 63 → CanonicalInt (45 :: ds) (-n)

/-- `kw` is the canonical spelling of the string `k`. -/
inductive CanonicalString : Bytes → Bytes → Prop
  | mk {len k : Bytes} : Numeral len k.length → k.length ≤ maxAlloc →
      CanonicalString (len ++ 58 :: k) k

/-- An entry of a dictionary as it is written. -/
structure RawEntry where
  keyText : Bytes
  key : Bytes
  value : Bytes

/-- A dictionary as it is written. -/
def dictText (es : List RawEntry) : Bytes :=
  100 :: es.flatMap (fun e => e.keyText ++ e.value) ++ [101]

/-- `w` is one value in the canonical form of BEP 3. -/
inductive Canonical : Bytes → Prop
  | int {s : Bytes} {n : Int} : CanonicalInt s n → Canonical (105 :: s ++ [101])
  | string {w k : Bytes} : CanonicalString w k → Canonical w
  | list {ws : List Bytes} : (∀ w ∈ ws, Canonical w) → Canonical (108 :: ws.flatten ++ [101])
  | dict {es : List RawEntry} : (es.map RawEntry.key).Pairwise (· < ·) →
      (∀ e ∈ es, CanonicalString e.keyText e.key) → (∀ e ∈ es, Canonical e.value) →
      Canonical (dictText es)

/-! ## First bytes and lengths -/

theorem reads_mem (h : Reads s n) {b : UInt8} (hb : b ∈ s) :
    IsDigit b ∨ b = 43 ∨ b = 45 := by
  cases h with
  | plain _ hd _ => exact .inl (hd b hb)
  | plus _ hd _ =>
    rcases List.mem_cons.1 hb with rfl | hb
    · exact .inr (.inl rfl)
    · exact .inl (hd b hb)
  | minus _ hd _ =>
    rcases List.mem_cons.1 hb with rfl | hb
    · exact .inr (.inr rfl)
    · exact .inl (hd b hb)

theorem colon_notMem_of_reads (h : Reads s n) : 58 ∉ s := fun hb => by
  rcases reads_mem h hb with h | h | h <;> revert h <;> decide

theorem e_notMem_of_reads (h : Reads s n) : 101 ∉ s := fun hb => by
  rcases reads_mem h hb with h | h | h <;> revert h <;> decide

theorem SpellsString.head (h : SpellsString kw k) :
    ∃ b t, kw = b :: t ∧ b ≠ 101 := by
  obtain ⟨hr, -⟩ := h
  obtain ⟨b, t, rfl, hb⟩ := hr.head
  refine ⟨b, _, rfl, ?_⟩
  rintro rfl
  revert hb
  decide

theorem Spells.head (h : Spells w v) : ∃ b t, w = b :: t ∧ b ≠ 101 := by
  cases h with
  | int | list | map => exact ⟨_, _, rfl, by decide⟩
  | string hb _ =>
    refine ⟨_, _, rfl, ?_⟩
    rintro rfl
    revert hb
    decide

theorem Spells.length_pos (h : Spells w v) : 0 < w.length := by
  obtain ⟨b, t, rfl, -⟩ := h.head
  simp

theorem SpellsString.length_le (h : SpellsString kw k) : k.length ≤ maxAlloc := by
  obtain ⟨-, hk⟩ := h
  exact hk

theorem SpellsString.length_pos (h : SpellsString kw k) : 0 < kw.length := by
  obtain ⟨b, t, rfl, -⟩ := h.head
  simp

end Bencode
