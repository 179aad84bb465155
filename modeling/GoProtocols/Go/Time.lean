import GoProtocols.Go.Strconv
import GoProtocols.Go.Unicode

/-!
# Times and formatted output

An instant (`time.Time`) as nanoseconds since the Unix epoch, with the offset of its zone, and the
layouts the repository formats it with. The calendar is the proleptic Gregorian one. The last
section has the padding verbs of `fmt`.
-/

namespace Go

/-- An instant, with the offset in seconds of the zone it is shown in. -/
structure Time where
  nanos : Int
  offset : Int := 0
  deriving DecidableEq

variable (t : Time) (width : Nat) (s : Bytes)

/-- A date and time of day. -/
structure Civil where
  year : Int
  month : Nat
  day : Nat
  hour : Nat
  minute : Nat
  second : Nat
  deriving DecidableEq

/-- The date of a day, counted from the epoch. The years of an era of 400 years begin in March, so
that a leap day is the last of its year. -/
def civilOfDays (days : Int) : Int × Nat × Nat :=
  let z := days + 719468
  let era := z / 146097
  let doe := (z % 146097).toNat
  let yoe := (doe - doe / 1460 + doe / 36524 - doe / 146096) / 365
  let doy := doe - (365 * yoe + yoe / 4 - yoe / 100)
  let mp := (5 * doy + 2) / 153
  let month := if mp < 10 then mp + 3 else mp - 9
  let year := era * 400 + yoe + (if month ≤ 2 then 1 else 0)
  (year, month, doy - (153 * mp + 2) / 5 + 1)

/-- The civil time at `seconds` after the epoch. -/
def civilOfSeconds (seconds : Int) : Civil :=
  let date := civilOfDays (seconds / 86400)
  let sod := (seconds % 86400).toNat
  { year := date.1, month := date.2.1, day := date.2.2
    hour := sod / 3600, minute := sod / 60 % 60, second := sod % 60 }

/-- `t.UTC()`. -/
def Time.utc : Time := { t with offset := 0 }

/-- `t.Unix()`. -/
def Time.unix : Int := t.nanos / 1000000000

def Time.civil : Civil := civilOfSeconds (t.unix + t.offset)

/-- A number with leading zeros up to `width` digits. -/
def zeroPad (n : Int) : Bytes :=
  let digits := Decimal.render n.natAbs
  (if n < 0 then [45] else []) ++ List.replicate (width - digits.length) 48 ++ digits

/-- The names of the months, shortened. -/
def shortMonths : List Bytes :=
  [lit "Jan", lit "Feb", lit "Mar", lit "Apr", lit "May", lit "Jun", lit "Jul", lit "Aug",
    lit "Sep", lit "Oct", lit "Nov", lit "Dec"]

/-- The names of the days of the week, shortened, from the day of the epoch on. -/
def shortDays : List Bytes :=
  [lit "Thu", lit "Fri", lit "Sat", lit "Sun", lit "Mon", lit "Tue", lit "Wed"]

/-- The layout `15:04:05`. -/
def Civil.clock (c : Civil) : Bytes :=
  zeroPad 2 c.hour ++ [58] ++ zeroPad 2 c.minute ++ [58] ++ zeroPad 2 c.second

/-- The layout `Mon Jan 02`. -/
def Time.dayText : Bytes :=
  let day := ((t.unix + t.offset) / 86400 % 7).toNat
  shortDays.getD day [] ++ [32] ++ shortMonths.getD (t.civil.month - 1) [] ++ [32] ++
    zeroPad 2 t.civil.day

/-- `t.Format("20060102150405")`. -/
def Time.formatCompact : Bytes :=
  let c := t.civil
  zeroPad 4 c.year ++ zeroPad 2 c.month ++ zeroPad 2 c.day ++ zeroPad 2 c.hour ++
    zeroPad 2 c.minute ++ zeroPad 2 c.second

/-- `t.Format("Jan _2 15:04")`. -/
def Time.formatListing : Bytes :=
  let c := t.civil
  let day := Decimal.render c.day
  shortMonths.getD (c.month - 1) [] ++ [32] ++ List.replicate (2 - day.length) 32 ++ day ++ [32] ++
    zeroPad 2 c.hour ++ [58] ++ zeroPad 2 c.minute

/-- `t.Format("2006-01-02T15:04:05.000Z")`. -/
def Time.formatServer : Bytes :=
  let c := t.civil
  zeroPad 4 c.year ++ [45] ++ zeroPad 2 c.month ++ [45] ++ zeroPad 2 c.day ++ [84] ++ c.clock ++
    [46] ++ zeroPad 3 (t.nanos % 1000000000 / 1000000) ++ [90]

/-- `t.Format("Mon Jan 02 15:04:05 2006")`. -/
def Time.formatLong : Bytes :=
  t.dayText ++ [32] ++ t.civil.clock ++ [32] ++ zeroPad 4 t.civil.year

/-- `t.Format("Mon Jan 02 2006 15:04:05 -0700")`. -/
def Time.formatZoned : Bytes :=
  let minutes := t.offset.natAbs / 60
  t.dayText ++ [32] ++ zeroPad 4 t.civil.year ++ [32] ++ t.civil.clock ++ [32] ++
    [if t.offset < 0 then 45 else 43] ++ zeroPad 2 (minutes / 60) ++ zeroPad 2 (minutes % 60)

example : (Time.mk 1709214305000000000 0).formatCompact = lit "20240229134505" := by decide
example : (Time.mk 1709214305000000000 3600).formatListing = lit "Feb 29 14:45" := by decide

example : (Time.mk 1709214305000000000 (-5400)).formatZoned =
    lit "Thu Feb 29 2024 12:15:05 -0130" := by decide

/-! ## Parsing -/

/-- The number of a date's day, counted from the epoch: the inverse of `civilOfDays`. -/
def daysOfCivil (year : Int) (month day : Nat) : Int :=
  let y := if month ≤ 2 then year - 1 else year
  let yoe := y % 400
  let doy := (153 * ((month + 9) % 12) + 2) / 5 + day - 1
  y / 400 * 146097 + (yoe * 365 + yoe / 4 - yoe / 100 + doy) - 719468

def daysIn (month : Nat) (year : Nat) : Nat :=
  if month = 2 then (if year % 4 = 0 ∧ (year % 100 ≠ 0 ∨ year % 400 = 0) then 29 else 28)
  else if month = 4 ∨ month = 6 ∨ month = 9 ∨ month = 11 then 30
  else 31

/-- `time.getnum`: one or two digits; two if `fixed`. -/
def getnum (fixed : Bool) : Bytes → Option (Nat × Bytes)
  | a :: b :: s =>
    if ¬ Decimal.IsDigit a then none
    else if Decimal.IsDigit b then some (10 * Decimal.digitVal a + Decimal.digitVal b, s)
    else if fixed then none
    else some (Decimal.digitVal a, b :: s)
  | [a] => if ¬ fixed ∧ Decimal.IsDigit a then some (Decimal.digitVal a, []) else none
  | [] => none

/-- A character of the layout that stands for itself. -/
def expect (c : UInt8) : Bytes → Option Bytes
  | [] => none
  | b :: s => if b = c then some s else none

/-- `time.Parse("2006-01-02T15:04:05.000Z", s)`. The hour may have one digit, a comma may stand for
the point, and the digits after it may begin with a sign. -/
def parseServerTime : Option Time := do
  let (century, s) ← getnum true s
  let (decade, s) ← getnum true s
  let (month, s) ← getnum true (← expect 45 s)
  let (day, s) ← getnum true (← expect 45 s)
  let (hour, s) ← getnum false (← expect 84 s)
  let (minute, s) ← getnum true (← expect 58 s)
  let (second, s) ← getnum true (← expect 58 s)
  let s ← (expect 46 s).or (expect 44 s)
  let millis ← if s.length < 3 then none else (parseInt (s.take 3)).toOption
  let s ← expect 90 (s.drop 3)
  let year := 100 * century + decade
  if 1 ≤ month ∧ month ≤ 12 ∧ 1 ≤ day ∧ day ≤ daysIn month year ∧ hour < 24 ∧ minute < 60 ∧
      second < 60 ∧ 0 ≤ millis ∧ s = [] then
    some ⟨((daysOfCivil year month day * 86400 + hour * 3600 + minute * 60 + second) * 1000 +
      millis) * 1000000, 0⟩
  else none

example : (Time.mk 1709214305123000000 0).formatServer = lit "2024-02-29T13:45:05.123Z" := by decide
example : parseServerTime (lit "2024-02-29T13:45:05.123Z") = some ⟨1709214305123000000, 0⟩ := by
  decide
example : parseServerTime (lit "2023-02-29T13:45:05.123Z") = none := by decide

/-! ## Padding -/

/-- The verb `%-ns` of `fmt`. -/
def padRight : Bytes := s ++ List.replicate (width - (runes s).length) 32

/-- The verb `%ns` of `fmt`. -/
def padLeft : Bytes := List.replicate (width - (runes s).length) 32 ++ s

end Go
