import GoProtocols.Go.Bytes
import GoProtocols.Lib.Decimal

/-!
# Package `strconv`

Base-10 conversion of 64-bit integers. `parseInt` is `strconv.ParseInt(s, 10, 64)`; `atoi` is
`strconv.Atoi` with a 64-bit `int`, whose fast path for short strings gives the same results.
`formatInt` is `strconv.FormatInt(n, 10)`, also what `%d` prints.

* `parseInt_eq_ok`: what `parseInt` accepts: an optional sign and one or more digits, in range.
-/

namespace Go

open Decimal

variable {s : Bytes} {n : Int}

inductive NumError
  | ErrSyntax
  | ErrRange
  deriving DecidableEq, Repr

def maxUint64 : Nat := 2 ^ 64 - 1

/-- The digit loop of `strconv.ParseUint`: stops at the first byte that is no digit, or at the
first digit with which the value no longer fits. -/
def parseUintLoop : Bytes → Nat → Except NumError Nat
  | [], n => .ok n
  | b :: s, n =>
    if IsDigit b then
      if maxUint64 < n * 10 + digitVal b then .error .ErrRange
      else parseUintLoop s (n * 10 + digitVal b)
    else .error .ErrSyntax

def parseUint (s : Bytes) : Except NumError Nat :=
  if s = [] then .error .ErrSyntax else parseUintLoop s 0

/-- An optional sign: whether it is a minus, and what follows. -/
def cutSign (s : Bytes) : Bool × Bytes :=
  match s with
  | [] => (false, [])
  | b :: t => if b = 43 then (false, t) else if b = 45 then (true, t) else (false, s)

def parseInt (s : Bytes) : Except NumError Int :=
  if s = [] then .error .ErrSyntax
  else
    match parseUint (cutSign s).2 with
    | .error e => .error e
    | .ok un =>
      if (cutSign s).1 then
        if 2 ^ 63 < un then .error .ErrRange else .ok (-un)
      else if 2 ^ 63 ≤ un then .error .ErrRange
      else .ok un

def atoi (s : Bytes) : Except NumError Int := parseInt s

def formatInt (n : Int) : Bytes := if n < 0 then 45 :: render n.natAbs else render n.natAbs

def itoa (n : Nat) : Bytes := formatInt n

/-! ## Parsing -/

theorem parseUintLoop_eq_ok {m n : Nat} (hm : m ≤ maxUint64) :
    parseUintLoop s m = .ok n ↔ IsDigits s ∧ valueFrom m s = n ∧ n ≤ maxUint64 := by
  induction s generalizing m with
  | nil =>
    simp only [parseUintLoop, Except.ok.injEq, IsDigits, List.not_mem_nil, false_implies,
      implies_true, true_and]
    constructor
    · rintro rfl
      exact ⟨rfl, hm⟩
    · exact fun h => h.1
  | cons b s ih =>
    rw [valueFrom_cons]
    simp only [parseUintLoop, IsDigits, List.mem_cons, forall_eq_or_imp]
    by_cases hb : IsDigit b
    · by_cases hov : maxUint64 < m * 10 + digitVal b
      · -- the value only grows, so a prefix out of range puts the whole out of range
        have := le_valueFrom s (m * 10 + digitVal b)
        simp only [hb, hov, if_true, reduceCtorEq, false_iff, not_and, not_le]
        rintro - rfl
        omega
      · simp only [hb, hov, if_true, if_false, true_and]
        exact ih (by omega)
    · simp [hb]

theorem parseUint_eq_ok {n : Nat} :
    parseUint s = .ok n ↔ s ≠ [] ∧ IsDigits s ∧ value s = n ∧ n ≤ maxUint64 := by
  unfold parseUint
  split
  · rename_i h
    simp [h]
  · rename_i h
    rw [parseUintLoop_eq_ok (Nat.zero_le _)]
    simp [h, value]

theorem not_isDigit_sign : ¬ IsDigit 43 ∧ ¬ IsDigit 45 := by decide

theorem cutSign_digits {ds : Bytes} (h : IsDigits ds) : cutSign ds = (false, ds) := by
  cases ds with
  | nil => rfl
  | cons b t =>
    have hb : IsDigit b := h b (by simp)
    have h43 : b ≠ 43 := fun e => not_isDigit_sign.1 (e ▸ hb)
    have h45 : b ≠ 45 := fun e => not_isDigit_sign.2 (e ▸ hb)
    simp [cutSign, h43, h45]

/-- The three forms of a signed string. -/
theorem cutSign_cases (s : Bytes) :
    (cutSign s = (false, s)) ∨ (∃ t, s = 43 :: t ∧ cutSign s = (false, t)) ∨
      ∃ t, s = 45 :: t ∧ cutSign s = (true, t) := by
  cases s with
  | nil => exact .inl rfl
  | cons b t =>
    by_cases h43 : b = 43
    · exact .inr (.inl ⟨t, by rw [h43], by simp [cutSign, h43]⟩)
    · by_cases h45 : b = 45
      · exact .inr (.inr ⟨t, by rw [h45], by simp [cutSign, h45]⟩)
      · exact .inl (by simp [cutSign, h43, h45])

/-- A signed decimal in the 64-bit range, as the parser reads it. -/
inductive Reads : Bytes → Int → Prop
  | plain {ds : Bytes} : ds ≠ [] → IsDigits ds → value ds < 2 ^ 63 → Reads ds (value ds)
  | plus {ds : Bytes} : ds ≠ [] → IsDigits ds → value ds < 2 ^ 63 → Reads (43 :: ds) (value ds)
  | minus {ds : Bytes} : ds ≠ [] → IsDigits ds → value ds ≤ 2 ^ 63 →
      Reads (45 :: ds) (-(value ds : Int))

theorem parseInt_eq_ok : parseInt s = .ok n ↔ Reads s n := by
  constructor
  · intro h
    unfold parseInt at h
    split at h
    · cases h
    · cases hu : parseUint (cutSign s).2 with
      | error e => rw [hu] at h; cases h
      | ok un =>
        rw [hu] at h
        obtain ⟨hne, hd, rfl, -⟩ := parseUint_eq_ok.1 hu
        rcases cutSign_cases s with hc | ⟨t, rfl, hc⟩ | ⟨t, rfl, hc⟩ <;> rw [hc] at h hne hd
        · simp only [Bool.false_eq_true, if_false] at h
          split at h
          · cases h
          · cases h
            exact .plain hne hd (by omega)
        · simp only [Bool.false_eq_true, if_false] at h
          split at h
          · cases h
          · cases h
            exact .plus hne hd (by omega)
        · simp only [if_true] at h
          split at h
          · cases h
          · cases h
            exact .minus hne hd (by omega)
  · intro h
    have key : ∀ {ds : Bytes}, ds ≠ [] → IsDigits ds → value ds ≤ 2 ^ 63 →
        parseUint ds = .ok (value ds) := fun hne hd hv =>
      parseUint_eq_ok.2 ⟨hne, hd, rfl, by unfold maxUint64; omega⟩
    cases h with
    | plain hne hd hv =>
      simp only [parseInt, if_neg hne, cutSign_digits hd, key hne hd (by omega),
        Bool.false_eq_true, if_false, if_neg (show ¬ 2 ^ 63 ≤ value s by omega)]
    | @plus ds hne hd hv =>
      simp only [parseInt, reduceCtorEq, if_false, cutSign, if_true, key hne hd (by omega),
        Bool.false_eq_true, if_neg (show ¬ 2 ^ 63 ≤ value ds by omega)]
    | @minus ds hne hd hv =>
      simp only [parseInt, reduceCtorEq, if_false, cutSign, show (45 : UInt8) ≠ 43 by decide,
        if_true, key hne hd hv, if_neg (show ¬ 2 ^ 63 < value ds by omega)]

theorem Reads.head (h : Reads s n) : ∃ b t, s = b :: t ∧ (IsDigit b ∨ b = 43 ∨ b = 45) := by
  cases h with
  | plain hne hd _ =>
    obtain ⟨b, t, rfl⟩ := List.exists_cons_of_ne_nil hne
    exact ⟨b, t, rfl, .inl (hd b (by simp))⟩
  | plus => exact ⟨_, _, rfl, .inr (.inl rfl)⟩
  | minus => exact ⟨_, _, rfl, .inr (.inr rfl)⟩

/-! ## Printing -/

/-- **`parseInt` reads back what `formatInt` writes.** -/
theorem reads_formatInt (h : -2 ^ 63 ≤ n ∧ n < 2 ^ 63) : Reads (formatInt n) n := by
  unfold formatInt
  split
  · have hv : value (render n.natAbs) ≤ 2 ^ 63 := by rw [value_render]; omega
    have := Reads.minus (render_ne_nil n.natAbs) (isDigits_render _) hv
    rw [value_render] at this
    rwa [show -(n.natAbs : Int) = n by omega] at this
  · have hv : value (render n.natAbs) < 2 ^ 63 := by rw [value_render]; omega
    have := Reads.plain (render_ne_nil n.natAbs) (isDigits_render _) hv
    rw [value_render] at this
    rwa [show (n.natAbs : Int) = n by omega] at this

theorem itoa_eq_render (n : Nat) : itoa n = render n := by
  unfold itoa formatInt
  rw [if_neg (by omega)]
  rfl

end Go
