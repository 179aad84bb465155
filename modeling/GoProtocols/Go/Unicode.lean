import GoProtocols.Go.Bytes

/-!
# Runes

The functions of packages `unicode/utf8`, `strings` and `strconv` that look at a string as a
sequence of runes. An invalid byte decodes to `RuneError`, one byte wide, and is replaced by its
encoding wherever a string is mapped rune by rune. The case mappings, the folding classes and the
printable runes beyond ASCII are tables of the Unicode standard; `UnicodeTables` stands for them,
and nothing here depends on what they hold.
-/

namespace Go

abbrev Rune := Nat

variable (s : Bytes) (r : Rune)

def runeError : Rune := 0xFFFD

/-- A continuation byte. -/
def isCont (b : UInt8) : Bool := 0x80 ≤ b && b ≤ 0xBF

/-- `utf8.DecodeRune`: the first rune and its width. -/
def decodeRune : Bytes → Rune × Nat
  | [] => (runeError, 0)
  | b0 :: s =>
    let bad : Rune × Nat := (runeError, 1)
    if b0 < 0x80 then (b0.toNat, 1)
    else if 0xC2 ≤ b0 && b0 ≤ 0xDF then
      match s with
      | b1 :: _ => if isCont b1 then ((b0.toNat - 0xC0) * 64 + (b1.toNat - 0x80), 2) else bad
      | [] => bad
    else if 0xE0 ≤ b0 && b0 ≤ 0xEF then
      -- no overlong forms, no surrogates
      let lo : UInt8 := if b0 = 0xE0 then 0xA0 else 0x80
      let hi : UInt8 := if b0 = 0xED then 0x9F else 0xBF
      match s with
      | b1 :: b2 :: _ =>
        if lo ≤ b1 && b1 ≤ hi && isCont b2 then
          (((b0.toNat - 0xE0) * 64 + (b1.toNat - 0x80)) * 64 + (b2.toNat - 0x80), 3)
        else bad
      | _ => bad
    else if 0xF0 ≤ b0 && b0 ≤ 0xF4 then
      -- no overlong forms, nothing beyond U+10FFFF
      let lo : UInt8 := if b0 = 0xF0 then 0x90 else 0x80
      let hi : UInt8 := if b0 = 0xF4 then 0x8F else 0xBF
      match s with
      | b1 :: b2 :: b3 :: _ =>
        if lo ≤ b1 && b1 ≤ hi && isCont b2 && isCont b3 then
          ((((b0.toNat - 0xF0) * 64 + (b1.toNat - 0x80)) * 64 + (b2.toNat - 0x80)) * 64 +
            (b3.toNat - 0x80), 4)
        else bad
      | _ => bad
    else bad

/-- `utf8.AppendRune`. -/
def encodeRune : Bytes :=
  if r < 0x80 then [r.toUInt8]
  else if r < 0x800 then [(0xC0 + r / 64).toUInt8, (0x80 + r % 64).toUInt8]
  else if 0xD800 ≤ r ∧ r ≤ 0xDFFF ∨ 0x10FFFF < r then [0xEF, 0xBF, 0xBD]
  else if r < 0x10000 then
    [(0xE0 + r / 4096).toUInt8, (0x80 + r / 64 % 64).toUInt8, (0x80 + r % 64).toUInt8]
  else
    [(0xF0 + r / 262144).toUInt8, (0x80 + r / 4096 % 64).toUInt8, (0x80 + r / 64 % 64).toUInt8,
      (0x80 + r % 64).toUInt8]

/-- The runes of a string, each with its bytes; `skip` bytes still belong to the rune before. -/
def tokensFrom : Nat → Bytes → List (Rune × Bytes)
  | _, [] => []
  | skip + 1, _ :: s => tokensFrom skip s
  | 0, b :: s =>
    ((decodeRune (b :: s)).1, (b :: s).take (decodeRune (b :: s)).2) ::
      tokensFrom ((decodeRune (b :: s)).2 - 1) s

def tokens : List (Rune × Bytes) := tokensFrom 0 s

/-- The runes that `range s` visits. -/
def runes : List Rune := (tokens s).map Prod.fst

/-- The suffixes of a string at the starts of its runes; `skip` as for `tokensFrom`. -/
def suffixesFrom : Nat → Bytes → List Bytes
  | _, [] => []
  | skip + 1, _ :: s => suffixesFrom skip s
  | 0, b :: s => (b :: s) :: suffixesFrom ((decodeRune (b :: s)).2 - 1) s

/-- The slices `s[i:]` at the indices `i` that `range s` visits. -/
def suffixes : List Bytes := suffixesFrom 0 s

/-- `strings.ContainsRune`, for a rune that is not `RuneError`. -/
def containsRune : Bool := (runes s).contains r

/-- `strings.ContainsAny` with ASCII characters. -/
def containsAny (chars : Bytes) : Bool := s.any fun b => chars.contains b

/-- A character of the source as a rune. -/
def rune (c : Char) : Rune := c.toNat

/-- The tables of the Unicode standard, for the runes beyond ASCII. -/
class UnicodeTables where
  lower : Rune → Rune
  upper : Rune → Rune
  /-- The runes are in one orbit of `unicode.SimpleFold`. -/
  equalFold : Rune → Rune → Bool
  isPrint : Rune → Bool

/-- Tables in which no rune beyond ASCII has another case; they serve for runs on ASCII input. -/
@[reducible] def asciiTables : UnicodeTables where
  lower r := r
  upper r := r
  equalFold a b := a == b
  isPrint _ := true

section
variable [UnicodeTables] (s : Bytes)

/-! ## Case -/

def lowerRune (r : Rune) : Rune :=
  if r < 0x80 then (if 65 ≤ r ∧ r ≤ 90 then r + 32 else r) else UnicodeTables.lower r

def upperRune (r : Rune) : Rune :=
  if r < 0x80 then (if 97 ≤ r ∧ r ≤ 122 then r - 32 else r) else UnicodeTables.upper r

/-- `strings.ToLower`. -/
def toLower : Bytes := (runes s).flatMap fun r => encodeRune (lowerRune r)

/-- `strings.ToUpper`. -/
def toUpper : Bytes := (runes s).flatMap fun r => encodeRune (upperRune r)

def equalFoldRune (a b : Rune) : Bool :=
  if a = b then true
  else if a < 0x80 ∧ b < 0x80 then decide (lowerRune a = lowerRune b)
  else UnicodeTables.equalFold a b

def equalFoldRunes : List Rune → List Rune → Bool
  | [], [] => true
  | a :: as, b :: bs => equalFoldRune a b && equalFoldRunes as bs
  | _, _ => false

/-- `strings.EqualFold`. -/
def equalFold (t : Bytes) : Bool := equalFoldRunes (runes s) (runes t)

/-! ## Quoting -/

/-- The `width` low hexadecimal digits of `n`. -/
def hexDigits : Nat → Nat → Bytes
  | 0, _ => []
  | width + 1, n =>
    hexDigits width (n / 16) ++ [((lit "0123456789abcdef").getD (n % 16) 0)]

def isPrint (r : Rune) : Bool :=
  if r < 0x80 then decide (0x20 ≤ r ∧ r < 0x7F) else UnicodeTables.isPrint r

def quoteToken (t : Rune × Bytes) : Bytes :=
  if t.1 = runeError ∧ t.2.length = 1 then lit "\\x" ++ hexDigits 2 (t.2.headD 0).toNat
  else if t.1 = 34 ∨ t.1 = 92 then [92, t.1.toUInt8]
  else if isPrint t.1 then t.2
  else if t.1 = 7 then lit "\\a"
  else if t.1 = 8 then lit "\\b"
  else if t.1 = 12 then lit "\\f"
  else if t.1 = 10 then lit "\\n"
  else if t.1 = 13 then lit "\\r"
  else if t.1 = 9 then lit "\\t"
  else if t.1 = 11 then lit "\\v"
  else if t.1 < 0x20 ∨ t.1 = 0x7F then lit "\\x" ++ hexDigits 2 t.1
  else if t.1 < 0x10000 then lit "\\u" ++ hexDigits 4 t.1
  else lit "\\U" ++ hexDigits 8 t.1

/-- `strconv.Quote`, also the verb `%q` on a string. -/
def quote : Bytes := [34] ++ (tokens s).flatMap quoteToken ++ [34]

end

/-! ## White space -/

/-- `unicode.IsSpace`. -/
def isSpace : Bool :=
  (9 ≤ r && r ≤ 13) || r == 32 || r == 0x85 || r == 0xA0 || r == 0x1680 ||
    (0x2000 ≤ r && r ≤ 0x200A) || r == 0x2028 || r == 0x2029 || r == 0x202F || r == 0x205F ||
    r == 0x3000

/-- `strings.TrimSpace`. -/
def trimSpace : Bytes :=
  let sp := fun t : Rune × Bytes => isSpace t.1
  ((((tokens s).dropWhile sp).reverse.dropWhile sp).reverse).flatMap Prod.snd

/-- The fields of a string, `cur` being the one that is read. -/
def fieldsFrom (cur : Bytes) : List (Rune × Bytes) → List Bytes
  | [] => if cur = [] then [] else [cur]
  | t :: ts =>
    if isSpace t.1 then (if cur = [] then fieldsFrom [] ts else cur :: fieldsFrom [] ts)
    else fieldsFrom (cur ++ t.2) ts

/-- `strings.Fields`. -/
def fields : List Bytes := fieldsFrom [] (tokens s)

end Go
