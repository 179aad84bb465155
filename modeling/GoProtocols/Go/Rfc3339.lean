import GoProtocols.Go.Time

/-!
# RFC 3339

`time.Parse` with the layout `time.RFC3339`. It takes more than the standard does: an hour of one
digit, a comma before the fraction, and offsets of up to 24 hours and 60 minutes.
-/

namespace Go

/-- The fraction of a second, in nanoseconds, if there is one. Digits after the ninth are read and
do not count. -/
def parseFraction (s : Bytes) : Nat × Bytes :=
  match s with
  | c :: d :: rest =>
    if (c = 46 ∨ c = 44) ∧ Decimal.IsDigit d then
      let digits := (d :: rest).takeWhile fun b => Decimal.IsDigit b
      let shown := digits.take 9
      (Decimal.value shown * 10 ^ (9 - shown.length), (d :: rest).drop digits.length)
    else (0, s)
  | _ => (0, s)

/-- The offset from UTC, in seconds. -/
def parseZone : Bytes → Option (Int × Bytes)
  | 90 :: s => some (0, s)
  | sign :: s => do
    let (hours, s) ← getnum true s
    let (minutes, s) ← getnum true (← expect 58 s)
    let seconds : Int := (hours * 60 + minutes) * 60
    if 24 < hours ∨ 60 < minutes then none
    else if sign = 43 then some (seconds, s)
    else if sign = 45 then some (-seconds, s)
    else none
  | [] => none

/-- `time.Parse(time.RFC3339, s)`. -/
def parseRFC3339 (s : Bytes) : Option Time := do
  let (century, s) ← getnum true s
  let (decade, s) ← getnum true s
  let (month, s) ← getnum true (← expect 45 s)
  let (day, s) ← getnum true (← expect 45 s)
  let (hour, s) ← getnum false (← expect 84 s)
  let (minute, s) ← getnum true (← expect 58 s)
  let (second, s) ← getnum true (← expect 58 s)
  let (nanos, s) := parseFraction s
  let (offset, s) ← parseZone s
  let year := 100 * century + decade
  if 1 ≤ month ∧ month ≤ 12 ∧ 1 ≤ day ∧ day ≤ daysIn month year ∧ hour < 24 ∧ minute < 60 ∧
      second < 60 ∧ s = [] then
    some ⟨(daysOfCivil year month day * 86400 + hour * 3600 + minute * 60 + second - offset) *
      1000000000 + nanos, offset⟩
  else none

example : parseRFC3339 (lit "2024-02-29T13:45:05.123Z") = some ⟨1709214305123000000, 0⟩ := by
  decide
example : parseRFC3339 (lit "2024-02-29T14:45:05+01:00") = some ⟨1709214305000000000, 3600⟩ := by
  decide
example : parseRFC3339 (lit "2024-02-29T13:45:05.1234567890Z") = some ⟨1709214305123456789, 0⟩ := by
  decide
example : parseRFC3339 (lit "2024-02-30T13:45:05Z") = none := by decide

end Go
