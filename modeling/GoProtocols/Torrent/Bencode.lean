import GoProtocols.Go.Strconv
import GoProtocols.Lib.Keyed

/-!
# Package `bencode`

The decoder and encoder of `torrent/bencode/bencode.go`. A `Value` is what the `any` of the source
holds: `Decode` returns `int64`, `string`, `[]any` and `map[string]any`; `Encode` also takes `int`
and `[]byte` and refuses every other type. The entries of a `map` are listed in the order in which
Go happens to range over them; nothing the encoder writes depends on it (`encode_eq_iff`,
`Torrent/Proof/RoundTrip.lean`).

The reader is the list of bytes left. Beside its result every decoding function returns the calls
of `make([]byte, n)` it made (`MakeCall`), since these are what the length of a string decides.
`decode` recurses through lists and dictionaries; its fuel bounds the depth of calls, and
`Decode` gives it enough (`decode_fuel`).
-/

namespace Bencode

open Go Keyed

variable (r : Bytes) {α β : Type} (f : α → β)

inductive Value
  | int64 (n : Int64)
  | int (n : Int64)
  | string (s : Bytes)
  | bytes (s : Bytes)
  | list (l : List Value)
  | map (m : List (Bytes × Value))
  | other (typeName : Bytes)

/-! ## Decoding -/

/-- The errors of the decoder, each with what it wraps. -/
inductive DecodeError
  | io (e : IoError)
  | unexpectedByte (b : UInt8)
  | readInteger (e : IoError)
  | negativeZero
  | invalidInteger (s : Bytes) (e : NumError)
  | readLength (e : IoError)
  | invalidLength (s : Bytes) (e : NumError)
  | readData (e : IoError)
  | readList (e : IoError)
  | readDict (e : IoError)
  | dictKey (e : DecodeError)
  | dictValue (key : Bytes) (e : DecodeError)
  deriving DecidableEq

/-- How a decoding function can end without a value: an error, a run-time panic of `make`, or (in
the model only) too little fuel. -/
inductive Fault
  | error (e : DecodeError)
  | panic
  | fuel
  deriving DecidableEq

/-- A call `make([]byte, n)`, with the number of bytes left in the reader. -/
structure MakeCall where
  n : Int
  left : Nat
  deriving DecidableEq

/-- The largest allocation of the Go run time (`maxAlloc` on 64-bit Linux). `make` panics on a
longer slice, as it does on a negative length. -/
def maxAlloc : Nat := 2 ^ 48

/-- What a decoding function gives: its calls of `make`, and a value with the bytes left. -/
abbrev Res (α : Type) := List MakeCall × Except Fault (α × Bytes)

def Res.error {α : Type} (e : DecodeError) : Res α := ([], .error (.error e))

/-- Run `f` on the value and the bytes left. -/
def Res.bind (x : Res α) (f : α → Bytes → Res β) : Res β :=
  match x.2 with
  | .error e => (x.1, .error e)
  | .ok (a, r) => (x.1 ++ (f a r).1, (f a r).2)

/-- Wrap an error (`fmt.Errorf` with `%w`). -/
def Res.wrap (f : DecodeError → DecodeError) (x : Res α) : Res α :=
  match x.2 with
  | .error (.error e) => (x.1, .error (.error (f e)))
  | _ => x

def Res.map (x : Res α) : Res β :=
  x.bind fun a r => ([], .ok (f a, r))

/-- An integer, after the leading `i`. -/
def decodeInt : Res Int64 :=
  match readString 101 r with
  | none => .error (.readInteger .EOF)
  | some (s, r) =>
    if s.dropLast = lit "-0" then .error .negativeZero
    else
      match parseInt s.dropLast with
      | .error e => .error (.invalidInteger s.dropLast e)
      | .ok n => ([], .ok (Int64.ofInt n, r))

/-- A length-prefixed string. -/
def decodeString : Res Bytes :=
  match readString 58 r with
  | none => .error (.readLength .EOF)
  | some (lenStr, rest) =>
    match atoi lenStr.dropLast with
    | .error e => .error (.invalidLength lenStr.dropLast e)
    | .ok n =>
      if n < 0 ∨ (maxAlloc : Int) < n then ([⟨n, rest.length⟩], .error .panic)
      else
        match readFull n.toNat rest with
        | .error e => ([⟨n, rest.length⟩], .error (.error (.readData e)))
        | .ok (buf, r) => ([⟨n, rest.length⟩], .ok (buf, r))

mutual

def decode : Nat → Bytes → Res Value
  | 0, _ => ([], .error .fuel)
  | _ + 1, [] => .error (.io .EOF)
  | fuel + 1, b :: r =>
    if b = 105 then (decodeInt r).map .int64
    else if b = 108 then (decodeList fuel [] r).map .list
    else if b = 100 then (decodeDict fuel [] r).map .map
    else if 48 ≤ b ∧ b ≤ 57 then (decodeString (b :: r)).map .string
    else .error (.unexpectedByte b)

/-- The loop of `decodeList`; `list` holds the elements read so far. -/
def decodeList : Nat → List Value → Bytes → Res (List Value)
  | 0, _, _ => ([], .error .fuel)
  | _ + 1, _, [] => .error (.readList .EOF)
  | fuel + 1, list, b :: r =>
    if b = 101 then ([], .ok (list, r))
    else (decode fuel (b :: r)).bind fun val r => decodeList fuel (list ++ [val]) r

/-- The loop of `decodeDict`; `m` holds the entries read so far. -/
def decodeDict : Nat → List (Bytes × Value) → Bytes → Res (List (Bytes × Value))
  | 0, _, _ => ([], .error .fuel)
  | _ + 1, _, [] => .error (.readDict .EOF)
  | fuel + 1, m, b :: r =>
    if b = 101 then ([], .ok (m, r))
    else
      ((decodeString (b :: r)).wrap .dictKey).bind fun key r =>
        ((decode fuel r).wrap (.dictValue key)).bind fun val r =>
          decodeDict fuel (insertKey m key val) r

end

/-- `Decode`. -/
def Decode : Res Value := decode (2 * r.length + 1) r

/-! ## Encoding -/

inductive EncodeError
  | unsupportedType (typeName : Bytes)
  deriving DecidableEq

/-- A string as the encoder writes it. -/
def encodeString (s : Bytes) : Bytes := itoa s.length ++ 58 :: s

/-- Write the parts one after the other, up to the first error. -/
def writeAll : List (Except EncodeError Bytes) → Except EncodeError Bytes
  | [] => .ok []
  | p :: ps =>
    match p with
    | .error e => .error e
    | .ok s => (writeAll ps).map (s ++ ·)

mutual

/-- `EncodeToString`: the bytes `Encode` writes, or its error. -/
def encode : Value → Except EncodeError Bytes
  | .int64 n => .ok (105 :: formatInt n.toInt ++ [101])
  | .int n => .ok (105 :: formatInt n.toInt ++ [101])
  | .string s => .ok (encodeString s)
  | .bytes s => .ok (encodeString s)
  | .list l => (writeAll (encodeItems l)).map fun s => 108 :: s ++ [101]
  | .map m =>
    -- `sort.Strings` on the keys, then key and value in that order
    (writeAll ((sortByKey (encodeEntries m)).map fun e => e.2.map (encodeString e.1 ++ ·))).map
      fun s => 100 :: s ++ [101]
  | .other typeName => .error (.unsupportedType typeName)

/-- The encodings of the elements of a list. -/
def encodeItems : List Value → List (Except EncodeError Bytes)
  | [] => []
  | v :: l => encode v :: encodeItems l

/-- The encodings of the values of a map, under their keys. -/
def encodeEntries : List (Bytes × Value) → List (Bytes × Except EncodeError Bytes)
  | [] => []
  | (k, v) :: m => (k, encode v) :: encodeEntries m

end

end Bencode
