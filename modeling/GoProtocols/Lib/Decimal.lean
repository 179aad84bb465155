import Mathlib.Data.Nat.Basic
import Mathlib.Tactic.Ring

/-!
# Decimal numerals over bytes

ASCII decimal numerals, most significant digit first.

* `value`: the number a list of bytes writes down (of its digits; `IsDigits` says that all of its
  bytes are digits).
* `render`: the numeral without leading zeros.
-/

namespace Decimal

open List

variable {b : UInt8} {d n : Nat} (acc : Nat) (ds : List UInt8)

def IsDigit (b : UInt8) : Prop := 48 ≤ b ∧ b ≤ 57

instance (b : UInt8) : Decidable (IsDigit b) := inferInstanceAs (Decidable (_ ∧ _))

def IsDigits : Prop := ∀ b ∈ ds, IsDigit b

instance : Decidable (IsDigits ds) :=
  inferInstanceAs (Decidable (∀ b ∈ ds, IsDigit b))

def digitVal (b : UInt8) : Nat := b.toNat - 48

/-- The digit that writes `d < 10`. -/
def digit (d : Nat) : UInt8 := UInt8.ofNat (48 + d)

/-- Reading on from the value `acc` of the digits already read. -/
def valueFrom : Nat := ds.foldl (fun a b => a * 10 + digitVal b) acc

def value : Nat := valueFrom 0 ds

/-- The numeral of `n`, computed with `fuel` digits at most. -/
def renderFuel : Nat → Nat → List UInt8
  | 0, _ => []
  | fuel + 1, n => if n < 10 then [digit n] else renderFuel fuel (n / 10) ++ [digit (n % 10)]

/-- The numeral of `n` without leading zeros. -/
def render (n : Nat) : List UInt8 := renderFuel (n + 1) n

def NoLeadingZero : Prop := ds = [48] ∨ ∃ b t, ds = b :: t ∧ b ≠ 48

/-! ## Digits -/

theorem isDigit_iff : IsDigit b ↔ 48 ≤ b.toNat ∧ b.toNat ≤ 57 := by
  simp [IsDigit, UInt8.le_iff_toNat_le]

theorem digit_toNat (h : d < 10) : (digit d).toNat = 48 + d := by
  simp only [digit, UInt8.toNat_ofNat']
  omega

theorem isDigit_digit (h : d < 10) : IsDigit (digit d) := by
  rw [isDigit_iff, digit_toNat h]
  omega

theorem digitVal_digit (h : d < 10) : digitVal (digit d) = d := by
  rw [digitVal, digit_toNat h]
  omega

theorem digitVal_lt (h : IsDigit b) : digitVal b < 10 := by
  rw [isDigit_iff] at h
  unfold digitVal
  omega

theorem digit_digitVal (h : IsDigit b) : digit (digitVal b) = b := by
  apply UInt8.toNat_inj.1
  rw [digit_toNat (digitVal_lt h)]
  rw [isDigit_iff] at h
  unfold digitVal
  omega

theorem digitVal_pos (h : IsDigit b) (hb : b ≠ 48) : 0 < digitVal b := by
  have hne : b.toNat ≠ 48 := fun e => hb (UInt8.toNat_inj.1 (by simpa using e))
  rw [isDigit_iff] at h
  unfold digitVal
  omega

/-! ## Values -/

theorem valueFrom_cons (b : UInt8) (ds : List UInt8) :
    valueFrom acc (b :: ds) = valueFrom (acc * 10 + digitVal b) ds := by
  simp [valueFrom]

theorem le_valueFrom : ∀ acc, acc ≤ valueFrom acc ds := by
  induction ds with
  | nil => exact fun acc => Nat.le_refl acc
  | cons b ds ih =>
    intro acc
    rw [valueFrom_cons]
    have := ih (acc * 10 + digitVal b)
    omega

/-! ## Rendering -/

theorem renderFuel_eq {f g : Nat} (hf : n < f) (hg : n < g) :
    renderFuel f n = renderFuel g n := by
  induction f generalizing g n with
  | zero => exact absurd hf (Nat.not_lt_zero _)
  | succ f ih =>
    obtain ⟨g, rfl⟩ : ∃ g', g = g' + 1 := ⟨g - 1, by omega⟩
    simp only [renderFuel]
    split
    · rfl
    · rw [ih (g := g) (by omega) (by omega)]

theorem render_of_lt (h : n < 10) : render n = [digit n] := by
  simp [render, renderFuel, h]

theorem render_of_le (h : 10 ≤ n) : render n = render (n / 10) ++ [digit (n % 10)] := by
  conv => lhs; rw [render, renderFuel]
  rw [if_neg (by omega), render, renderFuel_eq (f := n) (g := n / 10 + 1) (by omega) (by omega)]

theorem render_ne_nil (n : Nat) : render n ≠ [] := by
  rcases Nat.lt_or_ge n 10 with h | h
  · simp [render_of_lt h]
  · simp [render_of_le h]

theorem length_render_le {k : Nat} (h : n < 10 ^ (k + 1)) : (render n).length ≤ k + 1 := by
  induction k generalizing n with
  | zero => rw [render_of_lt (by simpa using h), length_singleton]
  | succ k ih =>
    by_cases hn : n < 10
    · rw [render_of_lt hn, length_singleton]
      omega
    · have hdiv : n / 10 < 10 ^ (k + 1) := Nat.div_lt_of_lt_mul (by rw [Nat.pow_succ] at h; omega)
      rw [render_of_le (by omega), length_append, length_singleton]
      exact Nat.succ_le_succ (ih hdiv)

theorem isDigits_render (n : Nat) : IsDigits (render n) := by
  induction n using Nat.strongRecOn with
  | ind n ih =>
    rcases Nat.lt_or_ge n 10 with h | h
    · rw [render_of_lt h]
      simpa [IsDigits] using isDigit_digit h
    · rw [render_of_le h]
      intro b hb
      simp only [mem_append, mem_singleton] at hb
      rcases hb with hb | rfl
      · exact ih (n / 10) (by omega) b hb
      · exact isDigit_digit (by omega)

/-- **Reading a rendered number gives it back.** -/
theorem value_render (n : Nat) : value (render n) = n := by
  induction n using Nat.strongRecOn with
  | ind n ih =>
    rcases Nat.lt_or_ge n 10 with h | h
    · simp [render_of_lt h, value, valueFrom, digitVal_digit h]
    · have ih' := ih (n / 10) (by omega)
      rw [render_of_le h, value, valueFrom, foldl_append]
      change valueFrom (value (render (n / 10))) [digit (n % 10)] = n
      rw [ih', valueFrom_cons, digitVal_digit (by omega)]
      simp only [valueFrom, foldl_nil]
      omega

theorem noLeadingZero_render (n : Nat) : NoLeadingZero (render n) := by
  induction n using Nat.strongRecOn with
  | ind n ih =>
    rcases Nat.lt_or_ge n 10 with h | h
    · rw [render_of_lt h]
      rcases Nat.eq_zero_or_pos n with rfl | hn
      · exact .inl rfl
      · refine .inr ⟨_, _, rfl, fun e => ?_⟩
        have := congrArg UInt8.toNat e
        rw [digit_toNat h] at this
        simp at this
        omega
    · -- a numeral of two digits or more begins as the numeral of its leading part
      rw [render_of_le h]
      rcases ih (n / 10) (by omega) with h0 | ⟨b, t, he, hb⟩
      · have : n / 10 = 0 := by
          rw [← value_render (n / 10), h0]
          rfl
        omega
      · exact .inr ⟨b, t ++ [digit (n % 10)], by rw [he]; rfl, hb⟩

theorem render_mul_add {a : Nat} (ha : 0 < a) (hb : IsDigit b) :
    render (a * 10 + digitVal b) = render a ++ [b] := by
  have hlt := digitVal_lt hb
  rw [render_of_le (by omega), show (a * 10 + digitVal b) / 10 = a by omega,
    show (a * 10 + digitVal b) % 10 = digitVal b by omega, digit_digitVal hb]

variable {ds}

theorem render_valueFrom (hd : IsDigits ds) :
    ∀ {a : Nat}, 0 < a → render (valueFrom a ds) = render a ++ ds := by
  induction ds with
  | nil => simp [valueFrom]
  | cons b ds ih =>
    intro a ha
    have hb : IsDigit b := hd b (by simp)
    rw [valueFrom_cons, ih (forall_mem_cons.1 hd).2 (by omega), render_mul_add ha hb]
    simp

/-- **A numeral without leading zeros is the numeral of its value.** -/
theorem render_value (hd : IsDigits ds) (hz : NoLeadingZero ds) : render (value ds) = ds := by
  rcases hz with rfl | ⟨b, t, rfl, hb⟩
  · rfl
  · have hbd : IsDigit b := hd b (by simp)
    have hpos := digitVal_pos hbd hb
    have ht : IsDigits t := (forall_mem_cons.1 hd).2
    rw [value, valueFrom_cons, Nat.zero_mul, Nat.zero_add, render_valueFrom ht hpos,
      render_of_lt (digitVal_lt hbd), digit_digitVal hbd]
    rfl

theorem render_injective {m : Nat} (h : render m = render n) : m = n := by
  rw [← value_render m, h, value_render]

end Decimal
