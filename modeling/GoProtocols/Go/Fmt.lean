import GoProtocols.Go.Strconv
import GoProtocols.Go.Unicode

/-!
# Package `fmt`: scanning an integer

`fmt.Sscan(s, &n)` for an `int`: leading white space is skipped, then a sign, a base prefix and
digits with underscores are taken as far as they go, and converted as by
`strconv.ParseInt(tok, 0, 64)`.
-/

namespace Go

open Decimal

variable (base : Nat) (s : Bytes)

def lowerByte (b : UInt8) : UInt8 := if 65 ≤ b ∧ b ≤ 90 then b + 32 else b

/-- The value of a digit in any base up to 16. -/
def hexVal (b : UInt8) : Option Nat :=
  if IsDigit b then some (digitVal b)
  else if 97 ≤ lowerByte b ∧ lowerByte b ≤ 102 then some ((lowerByte b).toNat - 87)
  else none

/-- The base that a prefix stands for, with the digits after it. -/
def basePrefix : Nat × Bytes :=
  match s with
  | 48 :: b :: t =>
    if lowerByte b = 98 ∧ t ≠ [] then (2, t)
    else if lowerByte b = 111 ∧ t ≠ [] then (8, t)
    else if lowerByte b = 120 ∧ t ≠ [] then (16, t)
    else (8, b :: t)
  | [48] => (8, [])
  | _ => (10, s)

/-- Underscores stand only between digits, a base prefix being one; `after` says whether one of
these came last. -/
def underscoreOK (after : Bool) : Bytes → Bool
  | [] => true
  | [95] => false
  | 95 :: b :: s => after && b != 95 && underscoreOK true (b :: s)
  | _ :: s => underscoreOK true s

/-- `strconv.ParseUint(s, 0, 64)`. -/
def parseUint0 : Option Nat := do
  if s = [] then none
  let (base, ds) := basePrefix s
  let digits ← (ds.filter (· ≠ 95)).mapM fun b => (hexVal b).filter (· < base)
  let n := digits.foldl (fun n d => n * base + d) 0
  if n ≤ maxUint64 ∧ underscoreOK (base ≠ 10) ds then some n else none

/-- `strconv.ParseInt(s, 0, 64)`. -/
def parseInt0 : Option Int := do
  let un ← parseUint0 (cutSign s).2
  if (cutSign s).1 then (if un ≤ 2 ^ 63 then some (-un) else none)
  else if un < 2 ^ 63 then some un
  else none

/-- The longest prefix of digits of the base and underscores. -/
def scanDigits : Bytes :=
  s.takeWhile fun b => b == 95 || (hexVal b).any (· < base)

/-- The token that is scanned: a number, with the base prefix if it has one. -/
def scanNumber : Bytes :=
  match s with
  | 48 :: b :: t =>
    if lowerByte b = 98 then 48 :: b :: scanDigits 2 t
    else if lowerByte b = 111 then 48 :: b :: scanDigits 8 t
    else if lowerByte b = 120 then 48 :: b :: scanDigits 16 t
    else 48 :: scanDigits 8 (b :: t)
  | [48] => [48]
  | _ => scanDigits 10 s

/-- `fmt.Sscan` into an `int`. -/
def sscanInt : Option Int :=
  let s := ((tokens s).dropWhile fun t => isSpace t.1).flatMap Prod.snd
  let sign := s.takeWhile (fun b => b == 43 || b == 45) |>.take 1
  parseInt0 (sign ++ scanNumber (s.drop sign.length))

example : sscanInt (lit "5abc") = some 5 ∧ sscanInt (lit "010") = some 8 := by decide
example : sscanInt (lit "0x_1f") = some 31 ∧ sscanInt (lit "1__0") = none := by decide

end Go
