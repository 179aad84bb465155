import GoProtocols.Go.Time
import GoProtocols.Lib.BigEndian

/-!
# Package `sftp`: packets

The wire format of `sftp/sftp`: packets, the fields in their payloads, attributes and status
replies. A read that slices or indexes out of range panics; it has no result here (`none`). None of
the functions that read fields does (`readUint32_eq`, `readUint64_eq`, `readString_eq`).
-/

namespace Sftp

open Go List Option

variable {buf bytes s : Bytes} {off : Nat} {α β : Type}

/-! ## Slices and integers -/

/-- `s[lo:hi]`, if it does not panic. The slices in question have no more capacity than length. -/
def slice (s : Bytes) (lo hi : Int) : Option Bytes :=
  if 0 ≤ lo ∧ lo ≤ hi ∧ hi ≤ s.length then some ((s.take hi.toNat).drop lo.toNat) else none

/-- `binary.BigEndian.Uint32`. -/
def beUint32 (b : Bytes) : Option UInt32 :=
  if b.length < 4 then none else some (UInt32.ofNat (BigEndian.decode (b.take 4)))

/-- `binary.BigEndian.Uint64`. -/
def beUint64 (b : Bytes) : Option UInt64 :=
  if b.length < 8 then none else some (UInt64.ofNat (BigEndian.decode (b.take 8)))

def appendUint32 (buf : Bytes) (v : UInt32) : Bytes := buf ++ BigEndian.encode 4 v.toNat

def appendUint64 (buf : Bytes) (v : UInt64) : Bytes := buf ++ BigEndian.encode 8 v.toNat

def appendString (buf s : Bytes) : Bytes :=
  buf ++ BigEndian.encode 4 (UInt32.ofNat s.length).toNat ++ s

/-- What reading a field gives: the field and the offset after it, or an error. -/
abbrev Field (α : Type) := Option (Except Bytes (α × Nat))

def readUint32 (buf : Bytes) (off : Nat) : Field UInt32 :=
  if off + 4 > buf.length then some (.error (lit "sftp: read u32: short buffer"))
  else ((slice buf off (off + 4 : Nat)).bind beUint32).map fun v => .ok (v, off + 4)

def readUint64 (buf : Bytes) (off : Nat) : Field UInt64 :=
  if off + 8 > buf.length then some (.error (lit "sftp: read u64: short buffer"))
  else ((slice buf off (off + 8 : Nat)).bind beUint64).map fun v => .ok (v, off + 8)

def readString (buf : Bytes) (off : Nat) : Field Bytes :=
  if off + 4 > buf.length then some (.error (lit "sftp: read string: short buffer"))
  else
    ((slice buf off (off + 4 : Nat)).bind beUint32).bind fun n =>
      let off := off + 4
      if off + n.toNat > buf.length then some (.error (lit "sftp: read string: short buffer"))
      else (slice buf off (off + n.toNat : Nat)).map fun s => .ok (s, off + n.toNat)

/-- Go on with a field that was read. -/
def Field.andThen (f : Field α) (k : α → Nat → Field β) : Field β :=
  match f with
  | none => none
  | some (.error e) => some (.error e)
  | some (.ok (a, off)) => k a off

/-- A field that is there only if a flag is set. -/
def Field.given (flag : Prop) [Decidable flag] (read : Nat → Field α) (default : α) (off : Nat) :
    Field α :=
  if flag then read off else some (.ok (default, off))

/-! ## Packets -/

structure Packet where
  type : UInt8
  payload : Bytes
  deriving DecidableEq

def typeInit : UInt8 := 1
def typeVersion : UInt8 := 2
def typeStatus : UInt8 := 101
def typeHandle : UInt8 := 102
def typeData : UInt8 := 103
def typeName : UInt8 := 104
def typeAttrs : UInt8 := 105

/-- `Version`. -/
def version : UInt32 := 3

/-- The requests that the server knows. -/
inductive Kind
  | open | close | read | write | lstat | opendir | readdir | remove | mkdir | rmdir | rename | stat
  /-- Every other type. -/
  | other
  deriving DecidableEq

def kinds : List (UInt8 × Kind) :=
  [(3, .open), (4, .close), (5, .read), (6, .write), (7, .lstat), (11, .opendir), (12, .readdir),
    (13, .remove), (14, .mkdir), (15, .rmdir), (16, .rename), (17, .stat)]

def Packet.kind (p : Packet) : Kind := (kinds.lookup p.type).getD .other

/-- The id that a packet carries. -/
def Packet.requestID (p : Packet) : Option UInt32 :=
  if p.payload.length < 4 then none else some (UInt32.ofNat (BigEndian.decode (p.payload.take 4)))

/-- A computation that reads and changes the world. -/
abbrev Ask (W α : Type) := W → α × W

/-- `WritePacket`: the length in one write, the type and the payload in another. -/
def writePacket {W : Type} (write : Bytes → Ask W (Except Bytes Unit)) (p : Packet) :
    Ask W (Except Bytes Unit) := fun w =>
  match write (BigEndian.encode 4 (UInt32.ofNat (1 + p.payload.length)).toNat) w with
  | (.error e, w) => (.error e, w)
  | (.ok _, w) => write (p.type :: p.payload) w

/-- Why `ReadPacket` fails: an error of the reader, or its own. -/
inductive ReadError
  | io (err : IoError)
  | text (msg : Bytes)
  deriving DecidableEq

/-- `ReadPacket`, on the bytes that are left: the packet and the bytes after it. -/
def readPacket (r : Bytes) : Except ReadError (Packet × Bytes) :=
  match readFull 4 r with
  | .error e => .error (.io e)
  | .ok (lenBuf, r) =>
    let n := UInt32.ofNat (BigEndian.decode lenBuf)
    if n = 0 ∨ n.toNat > 1 <<< 24 then
      .error (.text (lit "sftp: unreasonable packet length " ++ itoa n.toNat))
    else
      match readFull n.toNat r with
      | .error e => .error (.io e)
      | .ok ([], _) => .error (.text (lit "sftp: zero-length payload"))
      | .ok (type :: payload, r) => .ok ({ type, payload }, r)

/-! ## Attributes -/

/-- The zero `time.Time`: the first of January of the year 1. -/
def zeroTime : Time := ⟨-62135596800 * 1000000000, 0⟩

/-- `time.Unix(sec, 0)`. -/
def unixTime (sec : Int) : Time := ⟨sec * 1000000000, 0⟩

structure FileAttr where
  size : UInt64 := 0
  uid : UInt32 := 0
  gid : UInt32 := 0
  mode : UInt32 := 0
  mtime : Time := zeroTime
  atime : Time := zeroTime

variable (a : FileAttr)

def attrSize : UInt32 := 1
def attrUIDGID : UInt32 := 2
def attrMode : UInt32 := 4
def attrMtime : UInt32 := 8
def attrAtime : UInt32 := 16

/-- The bits of the fields that are not zero. -/
def FileAttr.flags : UInt32 :=
  (if a.size ≠ 0 then attrSize else 0) ||| (if a.uid ≠ 0 ∨ a.gid ≠ 0 then attrUIDGID else 0) |||
    (if a.mode ≠ 0 then attrMode else 0) |||
    (if a.mtime.nanos ≠ zeroTime.nanos then attrMtime else 0) |||
    (if a.atime.nanos ≠ zeroTime.nanos then attrAtime else 0)

def FileAttr.encode : Bytes :=
  let buf := appendUint32 [] a.flags
  let buf := if a.flags &&& attrSize ≠ 0 then appendUint64 buf a.size else buf
  let buf :=
    if a.flags &&& attrUIDGID ≠ 0 then appendUint32 (appendUint32 buf a.uid) a.gid else buf
  let buf := if a.flags &&& attrMode ≠ 0 then appendUint32 buf a.mode else buf
  let buf :=
    if a.flags &&& attrMtime ≠ 0 then appendUint32 buf (UInt32.ofInt a.mtime.unix) else buf
  if a.flags &&& attrAtime ≠ 0 then appendUint32 buf (UInt32.ofInt a.atime.unix) else buf

/-- A time in seconds. -/
def readTime (buf : Bytes) (off : Nat) : Field Time :=
  (readUint32 buf off).andThen fun t next => some (.ok (unixTime t.toNat, next))

def decodeAttrs (buf : Bytes) (off : Nat) : Field FileAttr :=
  (readUint32 buf off).andThen fun flags next =>
    (Field.given (flags &&& attrSize ≠ 0) (readUint64 buf) 0 next).andThen fun size next =>
      (Field.given (flags &&& attrUIDGID ≠ 0) (readUint32 buf) 0 next).andThen fun uid next =>
        (Field.given (flags &&& attrUIDGID ≠ 0) (readUint32 buf) 0 next).andThen fun gid next =>
          (Field.given (flags &&& attrMode ≠ 0) (readUint32 buf) 0 next).andThen fun mode next =>
            (Field.given (flags &&& attrMtime ≠ 0) (readTime buf) zeroTime next).andThen
              fun mtime next =>
                (Field.given (flags &&& attrAtime ≠ 0) (readTime buf) zeroTime next).andThen
                  fun atime next => some (.ok ({ size, uid, gid, mode, mtime, atime }, next))

/-! ## Status replies -/

def statusOK : UInt32 := 0
def statusEOF : UInt32 := 1
def statusNoSuchFile : UInt32 := 2
def statusPermissionDenied : UInt32 := 3
def statusFailure : UInt32 := 4
def statusBadMessage : UInt32 := 5
def statusOpUnsupported : UInt32 := 8

def encodeStatus (id code : UInt32) (msg lang : Bytes) : Bytes :=
  appendString (appendString (appendUint32 (appendUint32 [] id) code) msg) lang

/-- `DecodeStatus`: the id, the code and the message. -/
def decodeStatus (buf : Bytes) : Option (Except Bytes (UInt32 × UInt32 × Bytes)) :=
  if buf.length < 8 then some (.error (lit "sftp: status: short buffer"))
  else
    ((slice buf 0 4).bind beUint32).bind fun id =>
      ((slice buf 4 8).bind beUint32).bind fun code =>
        (readString buf 8).map (Except.map fun msg => (id, code, msg.1))

/-! ## Reading does not panic -/

theorem slice_of_le {n : Nat} (h : off + n ≤ s.length) :
    slice s off (off + n : Nat) = some ((s.drop off).take n) := by
  rw [slice, if_pos ⟨by omega, by omega, by omega⟩, Int.toNat_natCast, Int.toNat_natCast,
    drop_take, Nat.add_sub_cancel_left]

theorem slice_bind_beUint32 (h : off + 4 ≤ s.length) :
    (slice s off (off + 4 : Nat)).bind beUint32 =
      some (UInt32.ofNat (BigEndian.decode ((s.drop off).take 4))) := by
  have hlen : ¬ ((s.drop off).take 4).length < 4 := by
    rw [length_take, length_drop]
    omega
  rw [slice_of_le h, bind_some, beUint32, if_neg hlen, take_take, Nat.min_self]

theorem readUint32_eq (buf : Bytes) (off : Nat) :
    readUint32 buf off =
      if off + 4 > buf.length then some (.error (lit "sftp: read u32: short buffer"))
      else some (.ok (UInt32.ofNat (BigEndian.decode ((buf.drop off).take 4)), off + 4)) := by
  rw [readUint32]
  split
  · rfl
  · rw [slice_bind_beUint32 (by omega), map_some]

theorem readUint64_eq (buf : Bytes) (off : Nat) :
    readUint64 buf off =
      if off + 8 > buf.length then some (.error (lit "sftp: read u64: short buffer"))
      else some (.ok (UInt64.ofNat (BigEndian.decode ((buf.drop off).take 8)), off + 8)) := by
  rw [readUint64]
  split
  · rfl
  · rename_i h
    have hlen : ¬ ((buf.drop off).take 8).length < 8 := by
      rw [length_take, length_drop]
      omega
    rw [slice_of_le (by omega), bind_some, beUint64, if_neg hlen, map_some,
      take_take, Nat.min_self]

theorem readString_eq (buf : Bytes) (off : Nat) :
    readString buf off =
      if off + 4 > buf.length then some (.error (lit "sftp: read string: short buffer"))
      else
        let n := (UInt32.ofNat (BigEndian.decode ((buf.drop off).take 4))).toNat
        if off + 4 + n > buf.length then some (.error (lit "sftp: read string: short buffer"))
        else some (.ok ((buf.drop (off + 4)).take n, off + 4 + n)) := by
  rw [readString]
  split
  · rfl
  · rw [slice_bind_beUint32 (by omega), bind_some]
    dsimp only
    split
    · rfl
    · rw [slice_of_le (by omega), map_some]

theorem readUint32_ne_none (buf : Bytes) (off : Nat) : readUint32 buf off ≠ none := by
  rw [readUint32_eq]
  split <;> simp

theorem readUint64_ne_none (buf : Bytes) (off : Nat) : readUint64 buf off ≠ none := by
  rw [readUint64_eq]
  split <;> simp

theorem readString_ne_none (buf : Bytes) (off : Nat) : readString buf off ≠ none := by
  rw [readString_eq]
  split
  · simp
  · dsimp only
    split <;> simp

/-! ## Reading what was appended -/

/-- The bytes stand at the offset. -/
def StandsAt (buf : Bytes) (off : Nat) (bytes : Bytes) : Prop := bytes <+: buf.drop off

theorem standsAt_append {a b : Bytes} :
    StandsAt buf off (a ++ b) ↔ StandsAt buf off a ∧ StandsAt buf (off + a.length) b := by
  constructor
  · rintro ⟨t, ht⟩
    refine ⟨⟨b ++ t, by rw [← ht, append_assoc]⟩, t, ?_⟩
    rw [← drop_drop, ← ht, append_assoc, drop_left]
  · rintro ⟨⟨t, ht⟩, u, hu⟩
    rw [← drop_drop, ← ht, drop_left] at hu
    exact ⟨u, by rw [← ht, ← hu, append_assoc]⟩

theorem standsAt_self (pre bytes post : Bytes) :
    StandsAt (pre ++ bytes ++ post) pre.length bytes :=
  ⟨post, by rw [append_assoc, drop_left]⟩

theorem StandsAt.take {n : Nat} (h : StandsAt buf off bytes)
    (hn : bytes.length = n) : (buf.drop off).take n = bytes := by
  obtain ⟨t, ht⟩ := h
  rw [← ht]
  exact take_left' hn

theorem StandsAt.le (h : StandsAt buf off bytes)
    (hne : bytes ≠ []) : off + bytes.length ≤ buf.length := by
  have hlen := h.length_le
  have hpos := length_pos_iff.2 hne
  rw [length_drop] at hlen
  omega

theorem encode_ne_nil (w n : Nat) : BigEndian.encode (w + 1) n ≠ [] := nofun

theorem readUint32_at {v : UInt32}
    (h : StandsAt buf off (BigEndian.encode 4 v.toNat)) :
    readUint32 buf off = some (.ok (v, off + 4)) := by
  have hle := h.le (encode_ne_nil 3 _)
  rw [BigEndian.length_encode] at hle
  rw [readUint32_eq, if_neg (by omega), h.take (BigEndian.length_encode 4 _),
    BigEndian.decode_encode_of_lt v.toNat_lt, UInt32.ofNat_toNat]

theorem readUint64_at {v : UInt64}
    (h : StandsAt buf off (BigEndian.encode 8 v.toNat)) :
    readUint64 buf off = some (.ok (v, off + 8)) := by
  have hle := h.le (encode_ne_nil 7 _)
  rw [BigEndian.length_encode] at hle
  rw [readUint64_eq, if_neg (by omega), h.take (BigEndian.length_encode 8 _),
    BigEndian.decode_encode_of_lt v.toNat_lt, UInt64.ofNat_toNat]

theorem readString_at (hs : s.length < 2 ^ 32)
    (h : StandsAt buf off (appendString [] s)) :
    readString buf off = some (.ok (s, off + 4 + s.length)) := by
  have hn : (UInt32.ofNat s.length).toNat = s.length := UInt32.toNat_ofNat_of_lt hs
  rw [appendString, nil_append, hn] at h
  have hle := h.le (by simp [BigEndian.encode])
  obtain ⟨hlen, hstr⟩ := standsAt_append.1 h
  rw [BigEndian.length_encode] at hstr
  rw [length_append, BigEndian.length_encode] at hle
  rw [readString_eq, if_neg (by omega), hlen.take (BigEndian.length_encode 4 _),
    BigEndian.decode_encode_of_lt hs, hn]
  dsimp only
  rw [if_neg (by omega), hstr.take rfl]

theorem appendString_eq (pre s : Bytes) : appendString pre s = pre ++ appendString [] s := by
  simp [appendString]

theorem length_appendString (s : Bytes) : (appendString [] s).length = 4 + s.length := by
  simp [appendString]

theorem readString_append (hs : s.length < 2 ^ 32) (pre post : Bytes) :
    readString (appendString pre s ++ post) pre.length =
      some (.ok (s, pre.length + 4 + s.length)) := by
  rw [appendString_eq]
  exact readString_at hs (standsAt_self pre _ post)

/-! ## Attributes read back -/

/-- A time that is stored in seconds: the zero time, or one of the years 1970 to 2106. -/
def Storable (t : Time) : Prop := t = zeroTime ∨ ∃ s : Nat, s < 2 ^ 32 ∧ t = unixTime s

theorem unixTime_ne_zeroTime (s : Nat) : (unixTime s).nanos ≠ zeroTime.nanos := by
  simp only [unixTime, zeroTime]
  omega

theorem readTime_at {t : Time} (ht : Storable t)
    (hne : t.nanos ≠ zeroTime.nanos)
    (h : StandsAt buf off (BigEndian.encode 4 (UInt32.ofInt t.unix).toNat)) :
    readTime buf off = some (.ok (t, off + 4)) := by
  rcases ht with rfl | ⟨s, hs, rfl⟩
  · exact absurd rfl hne
  · have hunix : (unixTime s).unix = s := by
      simp [unixTime, Time.unix]
    have hnat : (UInt32.ofInt (s : Int)).toNat = s := by
      simp [UInt32.ofInt]
      omega
    rw [hunix] at h
    rw [readTime, readUint32_at h, Field.andThen, hnat]

theorem given_at {flag : Prop} [Decidable flag] {read : Nat → Field α} {a d : α}
    (h : StandsAt buf off (if flag then bytes else []))
    (hread : flag → StandsAt buf off bytes → read off = some (.ok (a, off + bytes.length)))
    (hdefault : ¬ flag → a = d) :
    Field.given flag read d off =
      some (.ok (a, off + (if flag then bytes else []).length)) := by
  unfold Field.given
  split
  · rename_i hf
    rw [if_pos hf] at h
    exact hread hf h
  · rename_i hf
    rw [hdefault hf]
    rfl

theorem flag_bits (p₁ p₂ p₃ p₄ p₅ : Prop) [Decidable p₁] [Decidable p₂] [Decidable p₃]
    [Decidable p₄] [Decidable p₅] :
    let f := (if p₁ then attrSize else 0) ||| (if p₂ then attrUIDGID else 0) |||
      (if p₃ then attrMode else 0) ||| (if p₄ then attrMtime else 0) |||
        (if p₅ then attrAtime else 0)
    (f &&& attrSize ≠ 0 ↔ p₁) ∧ (f &&& attrUIDGID ≠ 0 ↔ p₂) ∧ (f &&& attrMode ≠ 0 ↔ p₃) ∧
      (f &&& attrMtime ≠ 0 ↔ p₄) ∧ (f &&& attrAtime ≠ 0 ↔ p₅) := by
  by_cases h₁ : p₁ <;> by_cases h₂ : p₂ <;> by_cases h₃ : p₃ <;> by_cases h₄ : p₄ <;>
    by_cases h₅ : p₅ <;>
      simp only [h₁, h₂, h₃, h₄, h₅, if_true, if_false, iff_true, iff_false] <;> decide

theorem encode_attr :
    a.encode = BigEndian.encode 4 a.flags.toNat ++
      ((if a.flags &&& attrSize ≠ 0 then BigEndian.encode 8 a.size.toNat else []) ++
        ((if a.flags &&& attrUIDGID ≠ 0 then BigEndian.encode 4 a.uid.toNat else []) ++
          ((if a.flags &&& attrUIDGID ≠ 0 then BigEndian.encode 4 a.gid.toNat else []) ++
            ((if a.flags &&& attrMode ≠ 0 then BigEndian.encode 4 a.mode.toNat else []) ++
              ((if a.flags &&& attrMtime ≠ 0 then
                  BigEndian.encode 4 (UInt32.ofInt a.mtime.unix).toNat else []) ++
                (if a.flags &&& attrAtime ≠ 0 then
                  BigEndian.encode 4 (UInt32.ofInt a.atime.unix).toNat else [])))))) := by
  unfold FileAttr.encode appendUint32 appendUint64
  split <;> split <;> split <;> split <;> split <;> simp

theorem andThen_ok {f : Field α} {a : α} (h : f = some (.ok (a, off))) (k : α → Nat → Field β) :
    f.andThen k = k a off := by
  rw [h, Field.andThen]

theorem eq_zeroTime {t : Time} (ht : Storable t) (h : ¬ t.nanos ≠ zeroTime.nanos) :
    t = zeroTime := by
  rcases ht with rfl | ⟨s, -, rfl⟩
  · rfl
  · exact absurd (unixTime_ne_zeroTime s) h

theorem decodeAttrs_at {a : FileAttr} (hm : Storable a.mtime)
    (ha : Storable a.atime) (h : StandsAt buf off a.encode) :
    decodeAttrs buf off = some (.ok (a, off + a.encode.length)) := by
  obtain ⟨hsize, huidgid, hmode, hmtime, hatime⟩ :=
    flag_bits (a.size ≠ 0) (a.uid ≠ 0 ∨ a.gid ≠ 0) (a.mode ≠ 0) (a.mtime.nanos ≠ zeroTime.nanos)
      (a.atime.nanos ≠ zeroTime.nanos)
  rw [encode_attr] at h ⊢
  obtain ⟨h0, h⟩ := standsAt_append.1 h
  obtain ⟨h1, h⟩ := standsAt_append.1 h
  obtain ⟨h2, h⟩ := standsAt_append.1 h
  obtain ⟨h3, h⟩ := standsAt_append.1 h
  obtain ⟨h4, h⟩ := standsAt_append.1 h
  obtain ⟨h5, h6⟩ := standsAt_append.1 h
  rw [BigEndian.length_encode] at h1 h2 h3 h4 h5 h6
  have g1 := given_at (d := 0) h1 (fun _ hs => readUint64_at hs)
    fun hf => not_not.1 fun hne => hf (hsize.2 hne)
  have g2 := given_at (d := 0) h2 (fun _ hs => readUint32_at hs)
    fun hf => not_not.1 fun hne => hf (huidgid.2 (.inl hne))
  have g3 := given_at (d := 0) h3 (fun _ hs => readUint32_at hs)
    fun hf => not_not.1 fun hne => hf (huidgid.2 (.inr hne))
  have g4 := given_at (d := 0) h4 (fun _ hs => readUint32_at hs)
    fun hf => not_not.1 fun hne => hf (hmode.2 hne)
  have g5 := given_at (d := zeroTime) h5 (fun hf hs => readTime_at hm (hmtime.1 hf) hs)
    fun hf => eq_zeroTime hm fun hne => hf (hmtime.2 hne)
  have g6 := given_at (d := zeroTime) h6 (fun hf hs => readTime_at ha (hatime.1 hf) hs)
    fun hf => eq_zeroTime ha fun hne => hf (hatime.2 hne)
  rw [decodeAttrs, andThen_ok (readUint32_at h0), andThen_ok g1, andThen_ok g2, andThen_ok g3,
    andThen_ok g4, andThen_ok g5, andThen_ok g6]
  simp only [length_append, BigEndian.length_encode, Nat.add_assoc]

end Sftp
