import GoProtocols.Go.Unicode

/-!
# Runes and ASCII

A byte below `0x80` is a rune of its own wherever it stands (`tokens_append_ascii`), and what
`encodeRune` writes is read back as one rune (`tokens_encodeRune`). So the case mappings keep the
number of runes (`length_runes_toUpper`).
-/

namespace Go

open List

variable {b b0 b1 : UInt8} (a s : Bytes)

/-! ## ASCII bytes -/

theorem not_le_ascii {c : UInt8} (hb : b < 0x80) (hc : 0x80 ≤ c) : ¬ c ≤ b := by
  rw [UInt8.lt_iff_toNat_lt] at hb
  rw [UInt8.le_iff_toNat_le] at hc ⊢
  omega

theorem isCont_ascii (hb : b < 0x80) : isCont b = false := by
  simp [isCont, not_le_ascii hb]

theorem decodeRune_ascii (hb : b < 0x80) (s : Bytes) :
    decodeRune (b :: s) = (b.toNat, 1) := by
  simp [decodeRune, hb]

theorem decodeRune_width (b : UInt8) (s : Bytes) :
    1 ≤ (decodeRune (b :: s)).2 ∧ (decodeRune (b :: s)).2 ≤ s.length + 1 := by
  match s with
  | [] | [_] | [_, _] | _ :: _ :: _ :: _ =>
    simp only [decodeRune]
    split_ifs <;> simp

theorem decodeRune_append_ascii (b0 : UInt8) (a : Bytes) (hb : b < 0x80) (s : Bytes) :
    decodeRune (b0 :: a ++ b :: s) = decodeRune (b0 :: a) := by
  have hlo (c : UInt8) (p : Prop) [Decidable p] (hc : 0x80 ≤ c) :
      decide ((if p then c else 0x80) ≤ b) = false := by
    rw [decide_eq_false_iff_not]
    split
    · exact not_le_ascii hb hc
    · exact not_le_ascii hb (by decide)
  match a with
  | [] =>
    cases s with
    | nil => simp [decodeRune, isCont_ascii hb]
    | cons b2 s =>
      cases s with
      | nil => simp [decodeRune, isCont_ascii hb, hlo 0xA0 _ (by decide)]
      | cons b3 s =>
        simp [decodeRune, isCont_ascii hb, hlo 0xA0 _ (by decide), hlo 0x90 _ (by decide)]
  | [b1] =>
    cases s with
    | nil | cons b3 s => simp [decodeRune, isCont_ascii hb]
  | [b1, b2] => simp [decodeRune, isCont_ascii hb]
  | b1 :: b2 :: b3 :: a => simp [decodeRune]

theorem tokensFrom_append_ascii {skip : Nat} {a : Bytes} (hskip : skip ≤ a.length)
    (hb : b < 0x80) (s : Bytes) :
    tokensFrom skip (a ++ b :: s) = tokensFrom skip a ++ tokensFrom 0 (b :: s) := by
  induction a generalizing skip with
  | nil =>
    obtain rfl : skip = 0 := by simpa using hskip
    rfl
  | cons b0 a ih =>
    cases skip with
    | succ skip => exact ih (by simpa using hskip)
    | zero =>
      obtain ⟨hpos, hle⟩ := decodeRune_width b0 a
      simp only [cons_append, tokensFrom]
      rw [← cons_append, decodeRune_append_ascii b0 a hb, ih (by omega),
        take_append_of_le_length (by simpa using hle)]
      rfl

theorem tokens_append_ascii (hb : b < 0x80) (s : Bytes) :
    tokens (a ++ b :: s) = tokens a ++ tokens (b :: s) :=
  tokensFrom_append_ascii (Nat.zero_le _) hb s

theorem tokens_ascii (hb : b < 0x80) (s : Bytes) :
    tokens (b :: s) = (b.toNat, [b]) :: tokens s := by
  simp [tokens, tokensFrom, decodeRune_ascii hb]

@[simp] theorem runes_nil : runes [] = [] := rfl

theorem runes_append_ascii (hb : b < 0x80) (s : Bytes) :
    runes (a ++ b :: s) = runes a ++ b.toNat :: runes s := by
  simp [runes, tokens_append_ascii a hb, tokens_ascii hb]

theorem mem_runes_of_mem {s : Bytes} (hb : b < 0x80) (h : b ∈ s) :
    b.toNat ∈ runes s := by
  obtain ⟨a, t, rfl⟩ := append_of_mem h
  simp [runes_append_ascii a hb]

/-! ## Encoded runes -/

/-- What `encodeRune` writes for a number that is no Unicode scalar value is `RuneError`. -/
def scalar (r : Rune) : Rune :=
  if 0xD800 ≤ r ∧ r ≤ 0xDFFF ∨ 0x10FFFF < r then runeError else r

theorem scalar_of_lt {r : Nat} (h : r < 0xD800) : scalar r = r :=
  if_neg (show ¬ ((0xD800 : Nat) ≤ r ∧ r ≤ 0xDFFF ∨ 0x10FFFF < r) by omega)

theorem toNat_toUInt8 {n : Nat} (h : n < 256) : n.toUInt8.toNat = n := by
  simp [Nat.toUInt8, Nat.mod_eq_of_lt h]

theorem isCont_iff : isCont b = true ↔ 0x80 ≤ b.toNat ∧ b.toNat ≤ 0xBF := by
  simp [isCont, UInt8.le_iff_toNat_le]

theorem decodeRune_two (h0 : 0xC2 ≤ b0.toNat ∧ b0.toNat ≤ 0xDF)
    (h1 : isCont b1 = true) (s : Bytes) :
    decodeRune (b0 :: b1 :: s) = ((b0.toNat - 0xC0) * 64 + (b1.toNat - 0x80), 2) := by
  have hb : ¬ b0.toNat < 0x80 := by omega
  simp [decodeRune, UInt8.lt_iff_toNat_lt, UInt8.le_iff_toNat_le, hb, h0, h1]

theorem decodeRune_three {b2 : UInt8} (h0 : 0xE0 ≤ b0.toNat ∧ b0.toNat ≤ 0xEF)
    (h1 : isCont b1 = true) (h2 : isCont b2 = true) (hlo : b0.toNat = 0xE0 → 0xA0 ≤ b1.toNat)
    (hhi : b0.toNat = 0xED → b1.toNat ≤ 0x9F) (s : Bytes) :
    decodeRune (b0 :: b1 :: b2 :: s) =
      (((b0.toNat - 0xE0) * 64 + (b1.toNat - 0x80)) * 64 + (b2.toNat - 0x80), 3) := by
  rw [isCont_iff] at h1
  have hb : ¬ b0.toNat < 0x80 := by omega
  have hb' : ¬ b0.toNat ≤ 0xDF := by omega
  have hlo' : (if b0.toNat = 0xE0 then (0xA0 : UInt8) else 0x80).toNat ≤ b1.toNat := by
    split
    · exact hlo ‹_›
    · exact h1.1
  have hhi' : b1.toNat ≤ (if b0.toNat = 0xED then (0x9F : UInt8) else 0xBF).toNat := by
    split
    · exact hhi ‹_›
    · exact h1.2
  simp [decodeRune, UInt8.lt_iff_toNat_lt, UInt8.le_iff_toNat_le, ← UInt8.toNat_inj, hb, hb', h0,
    h2, hlo', hhi']

theorem decodeRune_four {b2 b3 : UInt8} (h0 : 0xF0 ≤ b0.toNat ∧ b0.toNat ≤ 0xF4)
    (h1 : isCont b1 = true) (h2 : isCont b2 = true) (h3 : isCont b3 = true)
    (hlo : b0.toNat = 0xF0 → 0x90 ≤ b1.toNat) (hhi : b0.toNat = 0xF4 → b1.toNat ≤ 0x8F)
    (s : Bytes) :
    decodeRune (b0 :: b1 :: b2 :: b3 :: s) =
      ((((b0.toNat - 0xF0) * 64 + (b1.toNat - 0x80)) * 64 + (b2.toNat - 0x80)) * 64 +
        (b3.toNat - 0x80), 4) := by
  rw [isCont_iff] at h1
  have hb : ¬ b0.toNat < 0x80 := by omega
  have hb' : ¬ b0.toNat ≤ 0xDF := by omega
  have hb'' : ¬ b0.toNat ≤ 0xEF := by omega
  have hlo' : (if b0.toNat = 0xF0 then (0x90 : UInt8) else 0x80).toNat ≤ b1.toNat := by
    split
    · exact hlo ‹_›
    · exact h1.1
  have hhi' : b1.toNat ≤ (if b0.toNat = 0xF4 then (0x8F : UInt8) else 0xBF).toNat := by
    split
    · exact hhi ‹_›
    · exact h1.2
  simp [decodeRune, UInt8.lt_iff_toNat_lt, UInt8.le_iff_toNat_le, ← UInt8.toNat_inj, hb, hb', hb'',
    h0, h2, h3, hlo', hhi']

/-- **What `encodeRune` writes is read back as one rune**, whatever follows. -/
theorem decodeRune_encodeRune (r : Nat) (s : Bytes) :
    decodeRune (encodeRune r ++ s) = (scalar r, (encodeRune r).length) := by
  have hcont (n : Nat) : (0x80 + n % 64).toUInt8.toNat = 0x80 + n % 64 := toNat_toUInt8 (by omega)
  have hisCont (n : Nat) : isCont (0x80 + n % 64).toUInt8 = true := by
    rw [isCont_iff, hcont]
    omega
  unfold encodeRune
  by_cases h1 : r < 0x80
  · have hr : r.toUInt8.toNat = r := toNat_toUInt8 (by omega)
    rw [if_pos h1, scalar_of_lt (by omega), singleton_append, decodeRune_ascii, hr]
    · rfl
    · rwa [UInt8.lt_iff_toNat_lt, hr]
  rw [if_neg h1]
  by_cases h2 : r < 0x800
  · have hr : (0xC0 + r / 64).toUInt8.toNat = 0xC0 + r / 64 := toNat_toUInt8 (by omega)
    rw [if_pos h2, scalar_of_lt (by omega)]
    refine (decodeRune_two ?_ (hisCont r) s).trans ?_
    · rw [hr]
      omega
    · rw [hr, hcont]
      exact Prod.ext (by show _ = r; omega) rfl
  rw [if_neg h2]
  by_cases h3 : 0xD800 ≤ r ∧ r ≤ 0xDFFF ∨ 0x10FFFF < r
  · rw [if_pos h3, scalar, if_pos h3]
    exact decodeRune_three (by decide) (by decide) (by decide) (by decide) (by decide) s
  have hs : scalar r = r := if_neg h3
  rw [if_neg h3, hs]
  by_cases h4 : r < 0x10000
  · have hr : (0xE0 + r / 4096).toUInt8.toNat = 0xE0 + r / 4096 := toNat_toUInt8 (by omega)
    rw [if_pos h4]
    refine (decodeRune_three ?_ (hisCont (r / 64)) (hisCont r) ?_ ?_ s).trans ?_
    · rw [hr]
      omega
    · rw [hr, hcont]
      omega
    · rw [hr, hcont]
      omega
    · rw [hr, hcont, hcont]
      exact Prod.ext (by show _ = r; omega) rfl
  · have hr : (0xF0 + r / 262144).toUInt8.toNat = 0xF0 + r / 262144 := toNat_toUInt8 (by omega)
    rw [if_neg h4]
    refine (decodeRune_four ?_ (hisCont (r / 4096)) (hisCont (r / 64)) (hisCont r) ?_ ?_ s).trans ?_
    · rw [hr]
      omega
    · rw [hr, hcont]
      omega
    · rw [hr, hcont]
      omega
    · rw [hr, hcont, hcont, hcont]
      exact Prod.ext (by show _ = r; omega) rfl

theorem tokensFrom_add : tokensFrom a.length (a ++ s) = tokensFrom 0 s := by
  induction a with
  | nil => rfl
  | cons b a ih => exact ih

theorem tokens_encodeRune (r : Rune) (s : Bytes) :
    tokens (encodeRune r ++ s) = (scalar r, encodeRune r) :: tokens s := by
  have hdec := decodeRune_encodeRune r s
  cases he : encodeRune r with
  | nil =>
    unfold encodeRune at he
    split_ifs at he
  | cons b a =>
    rw [he] at hdec
    simp only [tokens, cons_append, tokensFrom] at hdec ⊢
    rw [hdec]
    simp [tokensFrom_add]

theorem runes_flatMap_encodeRune (f : Rune → Rune) (rs : List Rune) :
    runes (rs.flatMap fun r => encodeRune (f r)) = rs.map fun r => scalar (f r) := by
  induction rs with
  | nil => rfl
  | cons r rs ih =>
    rw [flatMap_cons, runes, tokens_encodeRune, map_cons, map_cons, ← ih]
    rfl

section
variable [UnicodeTables]

theorem runes_toUpper : runes (toUpper s) = (runes s).map fun r => scalar (upperRune r) :=
  runes_flatMap_encodeRune upperRune (runes s)

theorem length_runes_toUpper : (runes (toUpper s)).length = (runes s).length := by
  simp [runes_toUpper]

end

end Go
