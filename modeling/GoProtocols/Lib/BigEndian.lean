import Mathlib.Tactic.Ring

/-!
# Numbers in big-endian bytes

`encode w n` are the last `w` digits of `n` in base 256, `decode` is the number that digits stand
for: `decode (encode w n) = n % 256 ^ w` and `encode bs.length (decode bs) = bs`.
-/

namespace BigEndian

open List

variable (b : UInt8) (bs : List UInt8) (w n acc : Nat)

def encode : Nat → Nat → List UInt8
  | 0, _ => []
  | w + 1, n => UInt8.ofNat (n / 256 ^ w) :: encode w n

def decode : Nat := bs.foldl (fun n b => n * 256 + b.toNat) 0

@[simp] theorem length_encode : (encode w n).length = w := by
  induction w with
  | zero => rfl
  | succ w ih => simp [encode, ih]

/-- Decoding goes on from a number that stands for digits before. -/
theorem foldl_encode :
    (encode w n).foldl (fun n b => n * 256 + b.toNat) acc = acc * 256 ^ w + n % 256 ^ w := by
  induction w generalizing acc with
  | zero => simp [encode, Nat.mod_one]
  | succ w ih =>
    rw [encode, foldl_cons, ih, pow_succ, Nat.mod_mul]
    simp only [UInt8.toNat_ofNat', Nat.reducePow]
    ring

theorem decode_encode_mod : decode (encode w n) = n % 256 ^ w := by
  rw [decode, foldl_encode, Nat.zero_mul, Nat.zero_add]

theorem decode_encode_of_lt {w n : Nat} (h : n < 256 ^ w) : decode (encode w n) = n := by
  rw [decode_encode_mod, Nat.mod_eq_of_lt h]

theorem encode_add_mul (k : Nat) : encode w (n + k * 256 ^ w) = encode w n := by
  induction w generalizing k with
  | zero => rfl
  | succ w ih =>
    have hdiv : (n + k * 256 ^ (w + 1)) / 256 ^ w = n / 256 ^ w + k * 256 := by
      rw [pow_succ, Nat.mul_comm (256 ^ w), ← Nat.mul_assoc,
        Nat.add_mul_div_right _ _ (Nat.pow_pos (by decide))]
    have hbyte : UInt8.ofNat (n / 256 ^ w + k * 256) = UInt8.ofNat (n / 256 ^ w) := by
      refine UInt8.toNat_inj.1 ?_
      rw [UInt8.toNat_ofNat', UInt8.toNat_ofNat']
      omega
    rw [encode, encode, hdiv, hbyte, pow_succ, Nat.mul_comm (256 ^ w), ← Nat.mul_assoc, ih]

theorem foldl_decode :
    bs.foldl (fun n b => n * 256 + b.toNat) acc = acc * 256 ^ bs.length + decode bs := by
  induction bs generalizing acc with
  | nil => simp [decode]
  | cons b bs ih =>
    have hcons : decode (b :: bs) = (0 * 256 + b.toNat) * 256 ^ bs.length + decode bs := ih _
    rw [foldl_cons, ih, hcons, length_cons, pow_succ]
    ring

theorem decode_cons : decode (b :: bs) = decode bs + b.toNat * 256 ^ bs.length := by
  rw [decode, foldl_cons, foldl_decode, Nat.zero_mul, Nat.zero_add, Nat.add_comm]

theorem decode_lt : decode bs < 256 ^ bs.length := by
  induction bs with
  | nil => simp [decode]
  | cons b bs ih =>
    have hb : b.toNat + 1 ≤ 256 := b.toNat_lt
    calc decode (b :: bs) < 256 ^ bs.length + b.toNat * 256 ^ bs.length := by
          rw [decode_cons]
          omega
      _ = (b.toNat + 1) * 256 ^ bs.length := by ring
      _ ≤ 256 * 256 ^ bs.length := Nat.mul_le_mul_right _ hb
      _ = 256 ^ (b :: bs).length := by rw [length_cons, pow_succ, Nat.mul_comm]

theorem encode_decode : encode bs.length (decode bs) = bs := by
  induction bs with
  | nil => rfl
  | cons b bs ih =>
    have hdiv : (decode bs + b.toNat * 256 ^ bs.length) / 256 ^ bs.length = b.toNat := by
      rw [Nat.add_mul_div_right _ _ (Nat.pow_pos (by decide)), Nat.div_eq_of_lt (decode_lt bs),
        Nat.zero_add]
    rw [length_cons, encode, decode_cons, hdiv, encode_add_mul, ih, UInt8.ofNat_toNat]

end BigEndian
