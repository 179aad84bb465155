import GoProtocols.Torrent.Bencode

/-!
# Package `metainfo`

`Decode` of `torrent/metainfo/metainfo.go`: a `.torrent` file as a record. A field of the wrong type
is left at its zero value, except for `info`, `pieces` and `files`, which are errors. SHA-1 is a
parameter.
-/

namespace Metainfo

open Go Bencode

/-- A SHA-1 digest (`[20]byte`). -/
abbrev Hash := Vector UInt8 20

structure FileInfo where
  path : List Bytes := []
  length : Int64 := 0

structure Info where
  name : Bytes := []
  pieces : List Hash := []
  files : List FileInfo := []
  pieceLength : Int64 := 0
  length : Int64 := 0

structure MetaInfo where
  announce : Bytes := []
  comment : Bytes := []
  createdBy : Bytes := []
  announceList : List (List Bytes) := []
  info : Info := {}
  creationDate : Int64 := 0
  infoHash : Hash

/-- The errors of `Decode`. `bencode` is an error of `bencode.Decode`, or its panic, which passes
through. -/
inductive MetaError
  | bencode (f : Fault)
  | notDict
  | missingInfo
  | infoNotDict
  | reencode (e : EncodeError)
  | missingPieces
  | piecesNotString
  | piecesLength (n : Nat)
  | filesNotList
  | fileNotDict

abbrev Dict := List (Bytes × Value)

/-! ## Type assertions -/

variable (v : Option Value) (d : Dict)

/-- `s, ok := v.(string)`, the zero value if not. -/
def stringOr : Bytes :=
  match v with
  | some (.string s) => s
  | _ => []

/-- `n, ok := v.(int64)`, the zero value if not. -/
def int64Or : Int64 :=
  match v with
  | some (.int64 n) => n
  | _ => 0

/-- The strings of a list; other elements are passed over. -/
def stringsOf (l : List Value) : List Bytes :=
  l.filterMap fun
    | .string s => some s
    | _ => none

/-! ## The info dictionary -/

/-- `copy(hash[:], s)`. -/
def hashOf (s : Bytes) : Hash := Vector.ofFn fun j => s.getD j 0

def parseFileInfo : FileInfo where
  length := int64Or (d.lookup (lit "length"))
  path :=
    match d.lookup (lit "path") with
    | some (.list pathList) => stringsOf pathList
    | _ => []

def parseFiles : List Value → Except MetaError (List FileInfo)
  | [] => .ok []
  | .map fd :: fileList => (parseFiles fileList).map (parseFileInfo fd :: ·)
  | _ :: _ => .error .fileNotDict

def parsePieces : Except MetaError (List Hash) :=
  match d.lookup (lit "pieces") with
  | none => .error .missingPieces
  | some (.string piecesStr) =>
    if piecesStr.length % 20 ≠ 0 then .error (.piecesLength piecesStr.length)
    else
      .ok ((List.range (piecesStr.length / 20)).map fun i =>
        hashOf ((piecesStr.drop (i * 20)).take 20))
  | some _ => .error .piecesNotString

def parseInfo : Except MetaError Info :=
  match parsePieces d with
  | .error e => .error e
  | .ok pieces =>
    let info : Info :=
      { name := stringOr (d.lookup (lit "name")), pieces
        pieceLength := int64Or (d.lookup (lit "piece length"))
        length := int64Or (d.lookup (lit "length")) }
    match d.lookup (lit "files") with
    | none => .ok info
    | some (.list fileList) => (parseFiles fileList).map fun files => { info with files }
    | some _ => .error .filesNotList

/-! ## The file -/

/-- The tiers of `announce-list`; a tier that is no list is passed over. -/
def parseTiers : List (List Bytes) :=
  match v with
  | some (.list tiers) =>
    tiers.filterMap fun
      | .list trackers => some (stringsOf trackers)
      | _ => none
  | _ => []

def decode (sha1 : Bytes → Hash) (data : Bytes) : Except MetaError MetaInfo :=
  match (Bencode.Decode data).2 with
  | .error f => .error (.bencode f)
  | .ok (.map dict, _) =>
    match dict.lookup (lit "info") with
    | none => .error .missingInfo
    | some (.map infoDict) =>
      match encode (.map infoDict) with
      | .error e => .error (.reencode e)
      | .ok infoEncoded =>
        (parseInfo infoDict).map fun info =>
          { infoHash := sha1 infoEncoded, info
            announce := stringOr (dict.lookup (lit "announce"))
            comment := stringOr (dict.lookup (lit "comment"))
            createdBy := stringOr (dict.lookup (lit "created by"))
            creationDate := int64Or (dict.lookup (lit "creation date"))
            announceList := parseTiers (dict.lookup (lit "announce-list")) }
    | some _ => .error .infoNotDict
  | .ok _ => .error .notDict

/-! ## Sizes -/

def Info.totalLength (info : Info) : Int64 :=
  if 0 < info.length then info.length
  else info.files.foldl (fun total f => total + f.length) 0

/-- The size that an info dictionary declares. -/
def Info.size (info : Info) : Int :=
  if 0 < info.length then info.length.toInt else (info.files.map (·.length.toInt)).sum

theorem toInt_foldl_length (files : List FileInfo) (total : Int64) :
    (files.foldl (fun total f => total + f.length) total).toInt =
      (total.toInt + (files.map (·.length.toInt)).sum).bmod (2 ^ 64) := by
  induction files generalizing total with
  | nil => simp
  | cons f files ih =>
    rw [List.foldl_cons, ih, Int64.toInt_add, Int.bmod_add_bmod, List.map_cons, List.sum_cons,
      Int.add_assoc]

/-- **The size of a torrent is exact** if and only if it is a size. -/
theorem totalLength_exact_iff (info : Info) :
    info.totalLength.toInt = info.size ∧ 0 ≤ info.totalLength.toInt ↔
      0 ≤ info.size ∧ info.size < 2 ^ 63 := by
  have hlt := info.totalLength.toInt_lt
  constructor
  · intro h
    omega
  intro h
  unfold Info.totalLength Info.size at *
  split
  · rename_i hpos
    rw [if_pos hpos] at h
    exact ⟨rfl, h.1⟩
  · rename_i hnot
    rw [if_neg hnot] at h
    rw [toInt_foldl_length, Int64.toInt_zero, Int.zero_add,
      Int.bmod_eq_of_le (by omega) (by omega)]
    exact ⟨rfl, h.1⟩

/-- The length of a file may be negative. -/
theorem totalLength_negative :
    (decode (fun _ => .replicate 20 0) (lit "d4:infod5:filesld6:lengthi-1eee6:pieces0:ee")).map
      (·.info.totalLength) = .ok (-1) :=
  rfl

end Metainfo
