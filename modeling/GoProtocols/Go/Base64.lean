import GoProtocols.Go.Bytes

/-!
# Package `encoding/base64`

The standard alphabet with padding: `base64.StdEncoding.EncodeToString`, `DecodeString` and
`Strict().DecodeString`. Decoding skips line breaks; the strict one wants the bits that padding
leaves over to be zero. It undoes encoding (`decodeBase64_encodeBase64`).
-/

namespace Go

open List Option

variable (s : Bytes)

/-- The six bits of a character of the alphabet. -/
def sextet (b : UInt8) : Option Nat :=
  if 65 ≤ b ∧ b ≤ 90 then some (b.toNat - 65)
  else if 97 ≤ b ∧ b ≤ 122 then some (b.toNat - 71)
  else if 48 ≤ b ∧ b ≤ 57 then some (b.toNat + 4)
  else if b = 43 then some 62
  else if b = 47 then some 63
  else none

/-- The four characters of a quantum and what follows. -/
def decodeQuanta : Bytes → Option Bytes
  | [] => some []
  | a :: b :: c :: d :: s => do
    let x ← sextet a
    let y ← sextet b
    let first := (x * 4 + y / 16).toUInt8
    if d = 61 ∧ s = [] then
      if c = 61 then
        if y % 16 = 0 then some [first] else none
      else
        let z ← sextet c
        if z % 4 = 0 then some [first, (y % 16 * 16 + z / 4).toUInt8] else none
    else
      let z ← sextet c
      let w ← sextet d
      let rest ← decodeQuanta s
      some (first :: (y % 16 * 16 + z / 4).toUInt8 :: (z % 4 * 64 + w).toUInt8 :: rest)
  | _ => none

def decodeBase64 : Option Bytes := decodeQuanta (s.filter fun b => b ≠ 10 ∧ b ≠ 13)

example : decodeBase64 (lit "AGFsaWNlAHB3") = some (lit "\x00alice\x00pw") := by decide
example : decodeBase64 (lit "QQ==") = some (lit "A") ∧ decodeBase64 (lit "QR==") = none := by decide

/-- The quanta of `DecodeString` without `Strict`: the bits that padding leaves over are ignored. -/
def decodeStdQuanta : Bytes → Option Bytes
  | [] => some []
  | a :: b :: c :: d :: s => do
    let x ← sextet a
    let y ← sextet b
    let first := (x * 4 + y / 16).toUInt8
    if d = 61 ∧ s = [] then
      if c = 61 then some [first]
      else
        let z ← sextet c
        some [first, (y % 16 * 16 + z / 4).toUInt8]
    else
      let z ← sextet c
      let w ← sextet d
      let rest ← decodeStdQuanta s
      some (first :: (y % 16 * 16 + z / 4).toUInt8 :: (z % 4 * 64 + w).toUInt8 :: rest)
  | _ => none

def decodeStd : Option Bytes := decodeStdQuanta (s.filter fun b => b ≠ 10 ∧ b ≠ 13)

/-! ## Encoding -/

/-- The character of six bits. -/
def alphabet (n : Nat) : UInt8 :=
  (lit "ABCDEFGHIJKLMNOPQRSTUVWXYZabcdefghijklmnopqrstuvwxyz0123456789+/").getD n 0

/-- `base64.StdEncoding.EncodeToString`. -/
def encodeBase64 : Bytes → Bytes
  | [] => []
  | [a] => [alphabet (a.toNat / 4), alphabet (a.toNat % 4 * 16), 61, 61]
  | [a, b] =>
    [alphabet (a.toNat / 4), alphabet (a.toNat % 4 * 16 + b.toNat / 16),
      alphabet (b.toNat % 16 * 4), 61]
  | a :: b :: c :: s =>
    alphabet (a.toNat / 4) :: alphabet (a.toNat % 4 * 16 + b.toNat / 16) ::
      alphabet (b.toNat % 16 * 4 + c.toNat / 64) :: alphabet (c.toNat % 64) :: encodeBase64 s

theorem sextet_alphabet {n : Nat} (h : n < 64) :
    sextet (alphabet n) = some n ∧ alphabet n ≠ 61 ∧ alphabet n ≠ 10 ∧ alphabet n ≠ 13 := by
  revert n
  decide

theorem length_encodeBase64_mod : (encodeBase64 s).length % 4 = 0 := by
  fun_induction encodeBase64 s with
  | case1 => rfl
  | case2 | case3 => simp
  | case4 a b c s ih =>
    simp only [length_cons]
    omega

theorem encodeBase64_ne_nil {s : Bytes} (h : s ≠ []) : encodeBase64 s ≠ [] := by
  fun_cases encodeBase64 s with
  | case1 => exact absurd rfl h
  | case2 | case3 | case4 => exact cons_ne_nil _ _

theorem mem_encodeBase64 {s : Bytes} {b : UInt8} (h : b ∈ encodeBase64 s) :
    b = 61 ∨ (sextet b).isSome = true := by
  have halpha {n : Nat} (h : n < 64) : (sextet (alphabet n)).isSome = true := by
    rw [(sextet_alphabet h).1]
    rfl
  fun_induction encodeBase64 s with
  | case1 => cases h
  | case2 a =>
    have ha := a.toNat_lt
    simp only [mem_cons, not_mem_nil, or_false] at h
    rcases h with rfl | rfl | rfl | rfl
    · exact .inr (halpha (by omega))
    · exact .inr (halpha (by omega))
    · exact .inl rfl
    · exact .inl rfl
  | case3 a b =>
    have ha := a.toNat_lt
    have hb := b.toNat_lt
    simp only [mem_cons, not_mem_nil, or_false] at h
    rcases h with rfl | rfl | rfl | rfl
    · exact .inr (halpha (by omega))
    · exact .inr (halpha (by omega))
    · exact .inr (halpha (by omega))
    · exact .inl rfl
  | case4 a b c s ih =>
    have ha := a.toNat_lt
    have hb := b.toNat_lt
    have hc := c.toNat_lt
    simp only [mem_cons] at h
    rcases h with rfl | rfl | rfl | rfl | h
    · exact .inr (halpha (by omega))
    · exact .inr (halpha (by omega))
    · exact .inr (halpha (by omega))
    · exact .inr (halpha (by omega))
    · exact ih h

theorem break_notMem_encodeBase64 : ∀ b ∈ encodeBase64 s, b ≠ 10 ∧ b ≠ 13 := by
  intro b hb
  constructor <;>
  · rintro rfl
    exact absurd (mem_encodeBase64 hb) (by decide)

theorem toUInt8_eq {n : Nat} {a : UInt8} (h : n = a.toNat) : n.toUInt8 = a := by
  rw [h]
  exact UInt8.ofNat_toNat

theorem decodeQuanta_encodeBase64 : decodeQuanta (encodeBase64 s) = some s := by
  fun_induction encodeBase64 s with
  | case1 => rfl
  | case2 a =>
    have ha := a.toNat_lt
    have hx := (sextet_alphabet (n := a.toNat / 4) (by omega)).1
    have hy := (sextet_alphabet (n := a.toNat % 4 * 16) (by omega)).1
    have hfirst : (a.toNat / 4 * 4 + a.toNat % 4 * 16 / 16).toUInt8 = a := toUInt8_eq (by omega)
    have hzero : a.toNat % 4 * 16 % 16 = 0 := by omega
    simp only [decodeQuanta, hx, hy, bind_eq_bind, bind_some, and_self, if_true, hfirst,
      hzero]
  | case3 a b =>
    have ha := a.toNat_lt
    have hb := b.toNat_lt
    have hx := (sextet_alphabet (n := a.toNat / 4) (by omega)).1
    have hy := (sextet_alphabet (n := a.toNat % 4 * 16 + b.toNat / 16) (by omega)).1
    obtain ⟨hz, hpad, -⟩ := sextet_alphabet (n := b.toNat % 16 * 4) (by omega)
    have hfirst : (a.toNat / 4 * 4 + (a.toNat % 4 * 16 + b.toNat / 16) / 16).toUInt8 = a :=
      toUInt8_eq (by omega)
    have hsecond : ((a.toNat % 4 * 16 + b.toNat / 16) % 16 * 16 + b.toNat % 16 * 4 / 4).toUInt8 = b :=
      toUInt8_eq (by omega)
    have hzero : b.toNat % 16 * 4 % 4 = 0 := by omega
    simp only [decodeQuanta, hx, hy, hz, bind_eq_bind, bind_some, and_self, if_true,
      if_neg hpad, hfirst, hsecond, hzero]
  | case4 a b c s ih =>
    have ha := a.toNat_lt
    have hb := b.toNat_lt
    have hc := c.toNat_lt
    have hx := (sextet_alphabet (n := a.toNat / 4) (by omega)).1
    have hy := (sextet_alphabet (n := a.toNat % 4 * 16 + b.toNat / 16) (by omega)).1
    have hz := (sextet_alphabet (n := b.toNat % 16 * 4 + c.toNat / 64) (by omega)).1
    obtain ⟨hw, hpad, -⟩ := sextet_alphabet (n := c.toNat % 64) (by omega)
    have hfirst : (a.toNat / 4 * 4 + (a.toNat % 4 * 16 + b.toNat / 16) / 16).toUInt8 = a :=
      toUInt8_eq (by omega)
    have hsecond : ((a.toNat % 4 * 16 + b.toNat / 16) % 16 * 16 +
        (b.toNat % 16 * 4 + c.toNat / 64) / 4).toUInt8 = b :=
      toUInt8_eq (by omega)
    have hthird : ((b.toNat % 16 * 4 + c.toNat / 64) % 4 * 64 + c.toNat % 64).toUInt8 = c :=
      toUInt8_eq (by omega)
    simp only [decodeQuanta, hx, hy, hz, hw, bind_eq_bind, bind_some,
      if_neg fun h => hpad (And.left h), hfirst, hsecond, hthird, ih]

/-- **Strict decoding undoes encoding.** -/
theorem decodeBase64_encodeBase64 : decodeBase64 (encodeBase64 s) = some s := by
  have hfilter : (encodeBase64 s).filter (fun b => b ≠ 10 ∧ b ≠ 13) = encodeBase64 s :=
    filter_eq_self.2 fun b hb => by simpa using break_notMem_encodeBase64 s b hb
  rw [decodeBase64, hfilter, decodeQuanta_encodeBase64]

theorem decodeStdQuanta_of_decodeQuanta {s x : Bytes} (h : decodeQuanta s = some x) :
    decodeStdQuanta s = some x := by
  induction s using decodeQuanta.induct generalizing x with
  | case1 => exact h
  | case2 a b c d s ih =>
    simp only [decodeQuanta, bind_eq_bind, bind_eq_some_iff] at h
    obtain ⟨p, hp, q, hq, h⟩ := h
    simp only [decodeStdQuanta, hp, hq, bind_eq_bind, bind_some]
    split at h
    · rename_i hpad
      rw [if_pos hpad]
      split at h
      · rename_i hc
        rw [if_pos hc]
        split at h
        · exact h
        · cases h
      · rename_i hc
        rw [if_neg hc]
        obtain ⟨z, hz, h⟩ := bind_eq_some_iff.1 h
        rw [hz, bind_some]
        split at h
        · exact h
        · cases h
    · rename_i hpad
      rw [if_neg hpad]
      obtain ⟨z, hz, h⟩ := bind_eq_some_iff.1 h
      obtain ⟨w, hw, h⟩ := bind_eq_some_iff.1 h
      obtain ⟨rest, hrest, h⟩ := bind_eq_some_iff.1 h
      rw [hz, bind_some, hw, bind_some, ih hrest, bind_some]
      exact h
  | case3 s hnil hcons => simp [decodeQuanta] at h

theorem decodeStd_encodeBase64 : decodeStd (encodeBase64 s) = some s :=
  decodeStdQuanta_of_decodeQuanta (decodeBase64_encodeBase64 s)

end Go
