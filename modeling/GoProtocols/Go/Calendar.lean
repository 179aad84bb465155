import GoProtocols.Go.Time

/-!
# Dates and times read back

An era of 400 years has 146097 days. A day of it is taken apart into centuries, spans of four years,
years and days (`era_split`), from which its year of the era is computed (`yearOfEra_eq`).

* `daysOfCivil_civilOfDays`: the day of a date is the day the date was computed from.
-/

namespace Go

open List

variable {d k n year : Nat} {t : Time} {α β : Type} {x : Option α}

/-! ## Days of an era -/

/-- Centuries, spans of four years, years and days; the 366th day of a year is in a leap year. -/
structure EraDay (doe c q k d : Nat) : Prop where
  century : c ≤ 3
  span : q ≤ 24
  year : k ≤ 3
  day : d ≤ 365
  leap : d = 365 → k = 3 ∧ (q < 24 ∨ c = 3)
  eq : doe = 36524 * c + 1461 * q + 365 * k + d

theorem era_split {doe : Nat} (h : doe < 146097) : ∃ c q k d, EraDay doe c q k d := by
  obtain ⟨c, r, hc, hr, hdoe, hlast⟩ : ∃ c r, c ≤ 3 ∧ r ≤ 36524 ∧ doe = 36524 * c + r ∧
      (r = 36524 → c = 3) := by
    rcases Nat.lt_or_ge doe 109572 with hlt | hge
    · exact ⟨doe / 36524, doe % 36524, by omega, by omega, by omega, by omega⟩
    · exact ⟨3, doe - 109572, by omega, by omega, by omega, fun _ => rfl⟩
  obtain ⟨q, s, hq, hs, hr'⟩ : ∃ q s, q ≤ 24 ∧ s ≤ 1460 ∧ r = 1461 * q + s :=
    ⟨r / 1461, r % 1461, by omega, by omega, by omega⟩
  rcases Nat.lt_or_ge s 1095 with hlt | hge
  · refine ⟨c, q, s / 365, s % 365, hc, hq, by omega, by omega, by omega, by omega⟩
  · refine ⟨c, q, 3, s - 1095, hc, hq, by omega, by omega, ?_, by omega⟩
    intro hd
    refine ⟨rfl, ?_⟩
    omega

theorem yearOfEra_eq {doe c q : Nat} (h : EraDay doe c q k d) :
    (doe - doe / 1460 + doe / 36524 - doe / 146096) / 365 = 100 * c + 4 * q + k := by
  obtain ⟨hc, hq, hk, hd, hleap, heq⟩ := h
  have hcentury : doe / 36524 - doe / 146096 = c ∧ doe / 146096 ≤ doe / 36524 := by
    omega
  have hspan : doe / 1460 = 25 * c + q + (24 * c + q + 365 * k + d) / 1460 := by
    omega
  omega

theorem daysBeforeYear_eq {c q : Nat} (hq : q ≤ 24) (hk : k ≤ 3) :
    365 * (100 * c + 4 * q + k) + (100 * c + 4 * q + k) / 4 - (100 * c + 4 * q + k) / 100 =
      36524 * c + 1461 * q + 365 * k := by
  have h4 : (100 * c + 4 * q + k) / 4 = 25 * c + q := by omega
  have h100 : (100 * c + 4 * q + k) / 100 = c := by omega
  omega

/-! ## Dates -/

/-- The month of a day of a year that begins in March, and the day of the month. -/
def monthOfYear (d : Nat) : Nat × Nat :=
  let mp := (5 * d + 2) / 153
  (if mp < 10 then mp + 3 else mp - 9, d - (153 * mp + 2) / 5 + 1)

theorem civilOfDays_eq (days : Int) :
    ∃ era : Int, ∃ doe c q k d, EraDay doe c q k d ∧ days + 719468 = era * 146097 + doe ∧
      civilOfDays days =
        (era * 400 + ((100 * c + 4 * q + k : Nat) : Int) +
          (if (monthOfYear d).1 ≤ 2 then 1 else 0), monthOfYear d) := by
  have hpos : 0 ≤ (days + 719468) % 146097 := Int.emod_nonneg _ (by decide)
  have hlt : ((days + 719468) % 146097).toNat < 146097 := by omega
  obtain ⟨c, q, k, d, h⟩ := era_split hlt
  refine ⟨(days + 719468) / 146097, _, c, q, k, d, h, by omega, ?_⟩
  have hday : ((days + 719468) % 146097).toNat -
      (36524 * c + 1461 * q + 365 * k) = d := by
    have := h.eq
    omega
  simp only [civilOfDays, yearOfEra_eq h, daysBeforeYear_eq h.span h.year, hday]
  rfl

theorem monthOfYear_spec (h : d ≤ 365) :
    1 ≤ (monthOfYear d).1 ∧ (monthOfYear d).1 ≤ 12 ∧ 1 ≤ (monthOfYear d).2 ∧
      (153 * (((monthOfYear d).1 + 9) % 12) + 2) / 5 + (monthOfYear d).2 - 1 = d := by
  unfold monthOfYear
  dsimp only
  -- the months are counted from March
  have hcount : ((if (5 * d + 2) / 153 < 10 then (5 * d + 2) / 153 + 3
      else (5 * d + 2) / 153 - 9) + 9) % 12 = (5 * d + 2) / 153 := by
    split <;> omega
  rw [hcount]
  refine ⟨?_, ?_, by omega, by omega⟩ <;> split <;> omega

theorem monthOfYear_day (h : d ≤ 365) (year : Nat) (hfeb : (monthOfYear d).1 ≠ 2) :
    (monthOfYear d).2 ≤ daysIn (monthOfYear d).1 year := by
  unfold monthOfYear at *
  unfold daysIn
  dsimp only at *
  split at hfeb
  all_goals
    rename_i hmp
    simp only [hmp, if_true, if_false]
    rw [if_neg hfeb]
    split <;> omega

theorem monthOfYear_february (h : d ≤ 365) (hfeb : (monthOfYear d).1 = 2) :
    (monthOfYear d).2 ≤ 29 ∧ ((monthOfYear d).2 = 29 → d = 365) := by
  unfold monthOfYear at *
  dsimp only at *
  split at hfeb <;> omega

theorem daysOfCivil_civilOfDays (days : Int) :
    daysOfCivil (civilOfDays days).1 (civilOfDays days).2.1 (civilOfDays days).2.2 = days := by
  obtain ⟨era, doe, c, q, k, d, h, hdays, heq⟩ := civilOfDays_eq days
  obtain ⟨-, -, -, hd⟩ := monthOfYear_spec h.day
  rw [heq]
  unfold daysOfCivil
  dsimp only
  rw [hd]
  generalize hY : 100 * c + 4 * q + k = Y
  have hbefore := daysBeforeYear_eq (c := c) h.span h.year
  rw [hY] at hbefore
  have hle : Y ≤ 399 := by
    have := h.century
    have := h.span
    have := h.year
    omega
  -- the year that began in March
  have hmarch : (if (monthOfYear d).1 ≤ 2 then
      era * 400 + (Y : Int) + (if (monthOfYear d).1 ≤ 2 then 1 else 0) - 1
      else era * 400 + (Y : Int) + (if (monthOfYear d).1 ≤ 2 then 1 else 0)) = era * 400 + Y := by
    split <;> omega
  have hdiv : (era * 400 + (Y : Int)) / 400 = era := by omega
  have hmod : (era * 400 + (Y : Int)) % 400 = Y := by omega
  rw [hmarch, hdiv, hmod]
  have := h.eq
  omega

theorem civilOfDays_valid {days : Int} (h : (civilOfDays days).1 = year) :
    1 ≤ (civilOfDays days).2.1 ∧ (civilOfDays days).2.1 ≤ 12 ∧ 1 ≤ (civilOfDays days).2.2 ∧
      (civilOfDays days).2.2 ≤ daysIn (civilOfDays days).2.1 year := by
  obtain ⟨era, doe, c, q, k, d, he, hdays, heq⟩ := civilOfDays_eq days
  obtain ⟨h1, h12, hday, -⟩ := monthOfYear_spec he.day
  rw [heq] at h ⊢
  refine ⟨h1, h12, hday, ?_⟩
  dsimp only at h ⊢
  by_cases hfeb : (monthOfYear d).1 = 2
  · obtain ⟨hle, hlast⟩ := monthOfYear_february he.day hfeb
    rw [hfeb] at h ⊢
    unfold daysIn
    rw [if_pos rfl]
    split
    · exact hle
    · -- the 29th is the last day of a year that began in March, before the March of a leap year
      rename_i hleap
      by_contra hc
      obtain ⟨rfl, hq⟩ := he.leap (hlast (by omega))
      have := he.century
      have := he.span
      apply hleap
      rw [if_pos (by decide)] at h
      omega
  · exact monthOfYear_day he.day year hfeb

/-! ## Numbers with leading zeros -/

open Decimal

theorem zeroPad_one (h : n < 10) : zeroPad 1 n = [digit n] := by
  rw [zeroPad, if_neg (by omega), Int.natAbs_natCast, render_of_lt h]
  rfl

theorem zeroPad_succ (hk : 1 ≤ k) (n : Nat) :
    zeroPad (k + 1) n = zeroPad k (n / 10 : Nat) ++ [digit (n % 10)] := by
  simp only [zeroPad, Int.natAbs_natCast, if_neg (show ¬ ((n : Int) < 0) by omega),
    if_neg (show ¬ (((n / 10 : Nat) : Int) < 0) by omega), nil_append]
  rcases Nat.lt_or_ge n 10 with h | h
  · have hzero : n / 10 = 0 := by omega
    rw [render_of_lt h, hzero, Nat.mod_eq_of_lt h, render_of_lt (by decide)]
    obtain ⟨k, rfl⟩ : ∃ k', k = k' + 1 := ⟨k - 1, by omega⟩
    have hrep : List.replicate (k + 1) (48 : UInt8) = List.replicate k 48 ++ [48] :=
      replicate_succ'
    simp only [length_singleton, Nat.add_sub_cancel]
    rw [hrep]
    rfl
  · rw [render_of_le h, length_append, length_singleton, ← append_assoc,
      Nat.add_sub_add_right]

theorem zeroPad_two (h : n < 100) :
    zeroPad 2 n = [digit (n / 10), digit (n % 10)] := by
  rw [zeroPad_succ (Nat.le_refl 1), zeroPad_one (by omega)]
  rfl

theorem zeroPad_three (h : n < 1000) :
    zeroPad 3 n = [digit (n / 100), digit (n / 10 % 10), digit (n % 10)] := by
  rw [zeroPad_succ (by decide), zeroPad_two (by omega), Nat.div_div_eq_div_mul]
  rfl

theorem zeroPad_four (h : n < 10000) :
    zeroPad 4 n = [digit (n / 1000), digit (n / 100 % 10), digit (n / 10 % 10), digit (n % 10)] := by
  rw [zeroPad_succ (by decide), zeroPad_three (by omega), Nat.div_div_eq_div_mul,
    Nat.div_div_eq_div_mul]
  rfl

theorem zeroPad_century (h : n < 10000) :
    zeroPad 4 n = zeroPad 2 (n / 100 : Nat) ++ zeroPad 2 (n % 100 : Nat) := by
  rw [zeroPad_four h, zeroPad_two (by omega), zeroPad_two (by omega), Nat.div_div_eq_div_mul]
  simp only [cons_append, nil_append]
  rw [show n % 100 / 10 = n / 10 % 10 by omega, show n % 100 % 10 = n % 10 by omega]

theorem getnum_of_digits {a b : UInt8} (ha : IsDigit a) (hb : IsDigit b) (fixed : Bool)
    (s : Bytes) : getnum fixed (a :: b :: s) = some (10 * digitVal a + digitVal b, s) := by
  simp [getnum, ha, hb]

theorem getnum_zeroPad (h : n < 100) (fixed : Bool) (s : Bytes) :
    getnum fixed (zeroPad 2 n ++ s) = some (n, s) := by
  rw [zeroPad_two h]
  show getnum fixed (digit (n / 10) :: digit (n % 10) :: s) = _
  rw [getnum_of_digits (isDigit_digit (by omega)) (isDigit_digit (by omega)),
    digitVal_digit (by omega), digitVal_digit (by omega), Nat.div_add_mod]

theorem parseInt_zeroPad (h : n < 1000) : parseInt (zeroPad 3 n) = .ok n := by
  rw [parseInt_eq_ok]
  have hdigits : IsDigits (zeroPad 3 n) := by
    rw [zeroPad_three h]
    intro b hb
    simp only [mem_cons, not_mem_nil, or_false] at hb
    rcases hb with rfl | rfl | rfl <;> exact isDigit_digit (by omega)
  have hvalue : value (zeroPad 3 n) = n := by
    rw [zeroPad_three h]
    simp only [value, valueFrom, foldl_cons, foldl_nil]
    rw [digitVal_digit (by omega), digitVal_digit (by omega), digitVal_digit (by omega)]
    omega
  have hne : zeroPad 3 n ≠ [] := by simp [zeroPad_three h]
  have hreads := Reads.plain hne hdigits (by rw [hvalue]; omega)
  rwa [hvalue] at hreads

/-! ## Times -/

theorem bind_of_some {a : α} (h : x = some a) (f : α → Option β) : x >>= f = f a := by
  rw [h]
  rfl

theorem bind_of_none (h : x = none) (f : α → Option β) : x >>= f = none := by
  rw [h]
  rfl

theorem expect_cons (c : UInt8) (s : Bytes) : expect c ([c] ++ s) = some s := by
  simp [expect]

/-- A text in the layout, with numbers that may not be those of a date. -/
theorem parseServerTime_text {month day hour minute second millis : Nat} (hy : year < 10000)
    (hmo : month < 100) (hd : day < 100) (hh : hour < 100) (hmi : minute < 100) (hs : second < 100)
    (hms : millis < 1000) :
    parseServerTime (zeroPad 4 year ++ [45] ++ zeroPad 2 month ++ [45] ++ zeroPad 2 day ++ [84] ++
        (zeroPad 2 hour ++ [58] ++ zeroPad 2 minute ++ [58] ++ zeroPad 2 second) ++ [46] ++
        zeroPad 3 millis ++ [90]) =
      if 1 ≤ month ∧ month ≤ 12 ∧ 1 ≤ day ∧ day ≤ daysIn month year ∧ hour < 24 ∧ minute < 60 ∧
          second < 60 then
        some ⟨((daysOfCivil year month day * 86400 + hour * 3600 + minute * 60 + second) * 1000 +
          millis) * 1000000, 0⟩
      else none := by
  have hlen : (zeroPad 3 millis).length = 3 := by rw [zeroPad_three hms]; rfl
  have htake : (zeroPad 3 millis ++ [90]).take 3 = zeroPad 3 millis :=
    take_left' hlen
  have hdrop : (zeroPad 3 millis ++ [90]).drop 3 = [90] := drop_left' hlen
  have hshort : ¬ (zeroPad 3 millis ++ [90]).length < 3 := by
    rw [length_append, hlen]
    decide
  have hyear : 100 * (year / 100) + year % 100 = year := Nat.div_add_mod year 100
  rw [zeroPad_century hy]
  simp only [append_assoc]
  refine (bind_of_some (getnum_zeroPad (by omega) true _) _).trans ?_
  refine (bind_of_some (getnum_zeroPad (by omega) true _) _).trans ?_
  refine (bind_of_some (expect_cons 45 _) _).trans ?_
  refine (bind_of_some (getnum_zeroPad hmo true _) _).trans ?_
  refine (bind_of_some (expect_cons 45 _) _).trans ?_
  refine (bind_of_some (getnum_zeroPad hd true _) _).trans ?_
  refine (bind_of_some (expect_cons 84 _) _).trans ?_
  refine (bind_of_some (getnum_zeroPad hh false _) _).trans ?_
  refine (bind_of_some (expect_cons 58 _) _).trans ?_
  refine (bind_of_some (getnum_zeroPad hmi true _) _).trans ?_
  refine (bind_of_some (expect_cons 58 _) _).trans ?_
  refine (bind_of_some (getnum_zeroPad hs true _) _).trans ?_
  have hpoint : (expect 46 ([46] ++ (zeroPad 3 millis ++ [90]))).or
      (expect 44 ([46] ++ (zeroPad 3 millis ++ [90]))) = some (zeroPad 3 millis ++ [90]) := by
    rw [expect_cons, Option.some_or]
  refine (bind_of_some hpoint _).trans ?_
  refine (if_neg hshort).trans ?_
  have hparse : (parseInt ((zeroPad 3 millis ++ [90]).take 3)).toOption = some (millis : Int) := by
    rw [htake, parseInt_zeroPad hms]
    rfl
  refine (bind_of_some hparse _).trans ?_
  have hlast : expect 90 ((zeroPad 3 millis ++ [90]).drop 3) = some [] := by
    rw [hdrop]
    rfl
  refine (bind_of_some hlast _).trans ?_
  dsimp only
  rw [hyear]
  simp only [Int.natCast_nonneg, and_true]

theorem civil_eq (h : t.offset = 0) : t.civil = civilOfSeconds t.unix := by
  rw [Time.civil, h, Int.add_zero]

/-- **A formatted time is read back in whole milliseconds**, if its year has four digits. -/
theorem parse_formatServer (hoff : t.offset = 0)
    (hyear : t.civil.year = year) (hlt : year < 10000) :
    parseServerTime t.formatServer = some ⟨t.nanos / 1000000 * 1000000, 0⟩ := by
  have hcivil := civil_eq hoff
  have hdate : (civilOfDays (t.unix / 86400)).1 = year := by
    rw [← hyear, hcivil]
    rfl
  obtain ⟨hm1, hm12, hd1, hd⟩ := civilOfDays_valid hdate
  have hdays := daysOfCivil_civilOfDays (t.unix / 86400)
  rw [hdate] at hdays
  have hmonth : t.civil.month = (civilOfDays (t.unix / 86400)).2.1 := by rw [hcivil]; rfl
  have hday : t.civil.day = (civilOfDays (t.unix / 86400)).2.2 := by rw [hcivil]; rfl
  have hhour : t.civil.hour = (t.unix % 86400).toNat / 3600 := by rw [hcivil]; rfl
  have hminute : t.civil.minute = (t.unix % 86400).toNat / 60 % 60 := by rw [hcivil]; rfl
  have hsecond : t.civil.second = (t.unix % 86400).toNat % 60 := by rw [hcivil]; rfl
  have hmillis : t.nanos % 1000000000 / 1000000 =
      ((t.nanos % 1000000000 / 1000000).toNat : Int) := by omega
  have hdle : (civilOfDays (t.unix / 86400)).2.2 ≤ 31 := by
    refine hd.trans ?_
    unfold daysIn
    split_ifs <;> decide
  unfold Time.formatServer
  dsimp only
  rw [hmillis, hyear]
  unfold Civil.clock
  rw [parseServerTime_text hlt (by omega) (by omega) (by omega) (by omega) (by omega) (by omega)]
  rw [if_pos ⟨by omega, by omega, by omega, by rw [hday, hmonth]; exact hd, by omega, by omega,
    by omega⟩, hmonth, hday, hdays, hhour, hminute, hsecond]
  have hunix : t.unix = t.nanos / 1000000000 := rfl
  congr 2
  omega

theorem getnum_of_not_digit {b : UInt8} (h : ¬ IsDigit b) (fixed : Bool) (s : Bytes) :
    getnum fixed (b :: s) = none := by
  cases s <;> simp [getnum, h]

theorem five_le_length_render (h : 10000 ≤ n) : 5 ≤ (render n).length := by
  rw [render_of_le (by omega), render_of_le (n := n / 10) (by omega),
    render_of_le (n := n / 10 / 10) (by omega), render_of_le (n := n / 10 / 10 / 10) (by omega)]
  have := length_pos_iff.2 (render_ne_nil (n / 10 / 10 / 10 / 10))
  simp only [length_append, length_singleton]
  omega

theorem parse_formatServer_none (h : t.civil.year < 0 ∨ 10000 ≤ t.civil.year) :
    parseServerTime t.formatServer = none := by
  unfold Time.formatServer
  dsimp only
  generalize t.civil = c at *
  simp only [append_assoc]
  generalize zeroPad 2 (c.month : Int) ++ _ = rest
  unfold zeroPad
  dsimp only
  rcases h with h | h
  · rw [if_pos h]
    simp only [append_assoc, cons_append, nil_append]
    exact bind_of_none (getnum_of_not_digit (by decide) true _) _
  · -- there is a digit where the year should end
    have hlen : 5 ≤ (render c.year.natAbs).length := five_le_length_render (by omega)
    have hdigits := isDigits_render c.year.natAbs
    rw [if_neg (by omega), show 4 - (render c.year.natAbs).length = 0 by omega]
    generalize render c.year.natAbs = ds at hlen hdigits
    obtain _ | ⟨d1, _ | ⟨d2, _ | ⟨d3, _ | ⟨d4, _ | ⟨d5, ds⟩⟩⟩⟩⟩ := ds
    all_goals try (simp at hlen; done)
    have hd5 : d5 ≠ 45 := by
      rintro rfl
      exact absurd (hdigits 45 (by simp)) (by decide)
    simp only [replicate_zero, nil_append, cons_append]
    have h12 := getnum_of_digits (hdigits d1 (by simp)) (hdigits d2 (by simp)) true
    have h34 := getnum_of_digits (hdigits d3 (by simp)) (hdigits d4 (by simp)) true
    refine (bind_of_some (h12 _) _).trans ((bind_of_some (h34 _) _).trans ?_)
    exact bind_of_none (if_neg hd5) _

end Go
