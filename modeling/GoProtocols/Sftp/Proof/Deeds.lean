import GoProtocols.Sftp.Server

/-!
# What the server does for a request

`Deed` lists everything that a request can lead to: the calls on the backend, the replies, what
becomes of the tables, and whether the loop goes on. `servePacket_deed` says that there is nothing
else; the properties of whole connections are read off it.
-/

namespace Sftp

open Go List

/-! ## The fields of requests -/

variable {α : Type} {f : Field α}

def Field.toOption : Field α → Option (α × Nat)
  | some (.ok a) => some a
  | _ => none

inductive FieldType
  | string
  | uint32
  | uint64

/-- The offset after a field. -/
def FieldType.next (buf : Bytes) (off : Nat) : FieldType → Option Nat
  | .string => (Field.toOption (readString buf off)).map Prod.snd
  | .uint32 => (Field.toOption (readUint32 buf off)).map Prod.snd
  | .uint64 => (Field.toOption (readUint64 buf off)).map Prod.snd

/-- The fields of each request. -/
def Kind.layout : Kind → List FieldType
  | .open => [.string, .uint32]
  | .read => [.string, .uint64, .uint32]
  | .write => [.string, .uint64, .string]
  | .rename => [.string, .string]
  | .close | .lstat | .opendir | .readdir | .remove | .mkdir | .rmdir | .stat => [.string]
  | .other => []

/-- Fields of the given types can be read one after the other. -/
def complete (buf : Bytes) : Nat → List FieldType → Bool
  | _, [] => true
  | off, t :: ts => (t.next buf off).elim false fun off => complete buf off ts

variable (p : Packet) {call : Call} (type : UInt8)

def Packet.Truncated : Prop := complete (p.payload.drop 4) 0 p.kind.layout = false

instance : Decidable p.Truncated := inferInstanceAs (Decidable (_ = false))

def stringArg (rest : Bytes) : Option Bytes := (Field.toOption (readString rest 0)).map Prod.fst

/-- The fields of a `READ`: handle, offset and size. -/
def readArgs (rest : Bytes) : Option (Bytes × UInt64 × UInt32) :=
  (Field.toOption (readString rest 0)).bind fun h =>
    (Field.toOption (readUint64 rest h.2)).bind fun offset =>
      (Field.toOption (readUint32 rest offset.2)).map fun size => (h.1, offset.1, size.1)

/-- The fields of a `WRITE`: handle, offset and data. -/
def writeArgs (rest : Bytes) : Option (Bytes × UInt64 × Bytes) :=
  (Field.toOption (readString rest 0)).bind fun h =>
    (Field.toOption (readUint64 rest h.2)).bind fun offset =>
      (Field.toOption (readString rest offset.2)).map fun data => (h.1, offset.1, data.1)

def Kind.namesHandle : Kind → Bool
  | .close | .read | .write | .readdir => true
  | _ => false

def Kind.isPlain : Kind → Bool
  | .lstat | .remove | .mkdir | .rmdir | .rename | .stat | .other => true
  | _ => false

/-! ## Replies -/

variable (id code : UInt32) (msg : Bytes) (entries : List FileStat) (n : Int) (data : Bytes)

def statusPacket : Packet :=
  { type := typeStatus, payload := encodeStatus id code msg [] }

def handlePacket (h : Bytes) : Packet :=
  { type := typeHandle, payload := appendString (appendUint32 [] id) h }

def dataPacket : Packet :=
  { type := typeData, payload := appendUint32 (appendUint32 [] id) (UInt32.ofInt n) ++ data }

def namePacket : Packet :=
  { type := typeName, payload := appendUint32 [] id ++ entries.flatMap nameEntry }

theorem requestID_appendUint32 (post : Bytes) :
    Packet.requestID { type, payload := appendUint32 [] id ++ post } = some id := by
  have hlen : ¬ (appendUint32 [] id ++ post).length < 4 := by simp [appendUint32]
  have htake : (appendUint32 [] id ++ post).take 4 = BigEndian.encode 4 id.toNat :=
    take_left' (BigEndian.length_encode 4 id.toNat)
  have hdecode : BigEndian.decode (BigEndian.encode 4 id.toNat) = id.toNat :=
    BigEndian.decode_encode_of_lt id.toNat_lt
  rw [Packet.requestID, if_neg hlen, htake, hdecode, UInt32.ofNat_toNat]

@[simp] theorem requestID_statusPacket : (statusPacket id code msg).requestID = some id := by
  have h := requestID_appendUint32 typeStatus id (BigEndian.encode 4 code.toNat ++
    (BigEndian.encode 4 (UInt32.ofNat msg.length).toNat ++ (msg ++
      BigEndian.encode 4 (UInt32.ofNat 0).toNat)))
  simpa [statusPacket, encodeStatus, appendUint32, appendString] using h

@[simp] theorem requestID_handlePacket (h : Bytes) : (handlePacket id h).requestID = some id := by
  have hid := requestID_appendUint32 typeHandle id
    (BigEndian.encode 4 (UInt32.ofNat h.length).toNat ++ h)
  simpa [handlePacket, appendString] using hid

@[simp] theorem requestID_dataPacket : (dataPacket id n data).requestID = some id := by
  have h := requestID_appendUint32 typeData id
    (BigEndian.encode 4 (UInt32.ofInt n).toNat ++ data)
  simpa [dataPacket, appendUint32] using h

@[simp] theorem requestID_namePacket :
    (namePacket id entries).requestID = some id := requestID_appendUint32 _ _ _

/-! ## Deeds -/

/-- The handle table, the marks and the counter. -/
structure Tables where
  handles : Map Bytes Bytes
  drained : Map Bytes Bool
  nextID : UInt32

variable {W : Type} {h : Bytes} {off : Nat} (c : Conn W) (real : Bytes) {st : Served W} {e : End}

def Conn.tables : Tables := ⟨c.handles, c.drained, c.nextID⟩

/-- What is left of a step when the world is left out. -/
structure Report where
  calls : List Call
  replies : List Packet
  tables : Tables
  outcome : Outcome

def Step.report (r : Step W) : Report :=
  { calls := r.1.calls, replies := r.1.replies, tables := r.1.tables, outcome := r.2 }

def Call.isPlain : Call → Bool
  | .open _ _ _ | .close _ => false
  | _ => true

/-- What a request can lead to. -/
inductive Deed (env : Env W) (c : Conn W) (id : UInt32) (rest : Bytes) : Kind → Report → Prop
  | truncated (k : Kind) (msg : Bytes) (err : Except Bytes Unit)
      (hfields : complete rest 0 k.layout = false) :
      Deed env c id rest k ⟨[], [statusPacket id statusBadMessage msg], c.tables, .return err⟩
  | noHandle (k : Kind) (h : Bytes) (hk : k.namesHandle = true) (hh : stringArg rest = some h)
      (hnone : c.resolve h = none) (hdrained : k = .readdir → c.isDrained h = false)
      (hfields : complete rest 0 k.layout = true) :
      Deed env c id rest k
        ⟨[], [statusPacket id statusFailure (lit "invalid handle")], c.tables, .next⟩
  | openFailed (path : Bytes) (flags : UInt32) (e : BackendError)
      (hfields : complete rest 0 Kind.open.layout = true) :
      Deed env c id rest .open
        ⟨[.open path flags (.error e)], [statusPacket id (mapErr e) e.text], c.tables, .next⟩
  | opened (path : Bytes) (flags : UInt32) (real : Bytes)
      (hfields : complete rest 0 Kind.open.layout = true) :
      Deed env c id rest .open
        ⟨[.open path flags (.ok real)], [handlePacket id (c.newHandle real).1],
          (c.newHandle real).2.tables, .next⟩
  | closed (h real : Bytes) (hh : stringArg rest = some h) (hreal : c.resolve h = some real)
      (hfields : complete rest 0 Kind.close.layout = true) :
      Deed env c id rest .close
        ⟨[.close real], [statusPacket id statusOK []], (c.drop h).tables, .next⟩
  | readFailed (h real : Bytes) (offset : UInt64) (size code : UInt32) (msg : Bytes)
      (hargs : readArgs rest = some (h, offset, size)) (hreal : c.resolve h = some real)
      (hfields : complete rest 0 Kind.read.layout = true) :
      Deed env c id rest .read
        ⟨[.read real offset size], [statusPacket id code msg], c.tables, .next⟩
  | read (h real : Bytes) (offset : UInt64) (size : UInt32) (n : Int) (data : Bytes)
      (hargs : readArgs rest = some (h, offset, size)) (hreal : c.resolve h = some real)
      (hfields : complete rest 0 Kind.read.layout = true) :
      Deed env c id rest .read
        ⟨[.read real offset size], [dataPacket id n data], c.tables, .next⟩
  | readTooMuch (h real : Bytes) (offset : UInt64) (size : UInt32)
      (hargs : readArgs rest = some (h, offset, size)) (hreal : c.resolve h = some real)
      (hfields : complete rest 0 Kind.read.layout = true)
      (herr : (env.backend.read real offset size c.world).1.err = none)
      (hn : ¬ (0 ≤ (env.backend.read real offset size c.world).1.n ∧
        (env.backend.read real offset size c.world).1.n ≤ size.toNat)) :
      Deed env c id rest .read ⟨[.read real offset size], [], c.tables, .panic⟩
  | wrote (h real : Bytes) (offset : UInt64) (data : Bytes) (code : UInt32) (msg : Bytes)
      (hargs : writeArgs rest = some (h, offset, data)) (hreal : c.resolve h = some real)
      (hfields : complete rest 0 Kind.write.layout = true) :
      Deed env c id rest .write
        ⟨[.write real offset data], [statusPacket id code msg], c.tables, .next⟩
  | opendirFailed (path : Bytes) (e : BackendError)
      (hfields : complete rest 0 Kind.opendir.layout = true) :
      Deed env c id rest .opendir
        ⟨[.readdir path], [statusPacket id (mapErr e) e.text], c.tables, .next⟩
  | openedDir (path : Bytes) (hfields : complete rest 0 Kind.opendir.layout = true) :
      Deed env c id rest .opendir
        ⟨[.readdir path], [handlePacket id (c.newHandle (lit "dir:" ++ path)).1],
          (c.newHandle (lit "dir:" ++ path)).2.tables, .next⟩
  | drained (h : Bytes) (hh : stringArg rest = some h) (hdrained : c.isDrained h = true)
      (hfields : complete rest 0 Kind.readdir.layout = true) :
      Deed env c id rest .readdir ⟨[], [statusPacket id statusEOF []], c.tables, .next⟩
  | short (h real : Bytes) (hh : stringArg rest = some h) (hreal : c.resolve h = some real)
      (hdrained : c.isDrained h = false) (hshort : slice real 4 real.length = none)
      (hfields : complete rest 0 Kind.readdir.layout = true) :
      Deed env c id rest .readdir ⟨[], [], c.tables, .panic⟩
  | listFailed (h real path : Bytes) (e : BackendError) (hh : stringArg rest = some h)
      (hreal : c.resolve h = some real) (hdrained : c.isDrained h = false)
      (hpath : slice real 4 real.length = some path)
      (hlist : (env.backend.readdir path c.world).1 = .error e)
      (hfields : complete rest 0 Kind.readdir.layout = true) :
      Deed env c id rest .readdir
        ⟨[.readdir path], [statusPacket id (mapErr e) e.text], c.tables, .next⟩
  | listed (h real path : Bytes) (entries : List FileStat) (hh : stringArg rest = some h)
      (hreal : c.resolve h = some real) (hdrained : c.isDrained h = false)
      (hpath : slice real 4 real.length = some path)
      (hlist : (env.backend.readdir path c.world).1 = .ok entries)
      (hfields : complete rest 0 Kind.readdir.layout = true) :
      Deed env c id rest .readdir
        ⟨[.readdir path], [namePacket id entries], (c.markDrained h).tables, .next⟩
  | plain (k : Kind) (calls : List Call) (reply : Packet) (hk : k.isPlain = true)
      (hcalls : ∀ call ∈ calls, call.isPlain = true) (hid : reply.requestID = some id)
      (htype : reply.type ≠ typeHandle) (hfields : complete rest 0 k.layout = true) :
      Deed env c id rest k ⟨calls, [reply], c.tables, .next⟩

/-! ## Every request is one of these -/

section
variable {env : Env W} {c : Conn W} {id : UInt32} {rest : Bytes} {k : Kind} {p}

theorem field_eq {a : α} (h : Field.toOption f = some (a, off)) (k : α → Nat → Step W) :
    c.field env id f k = k a off := by
  unfold Field.toOption at h
  split at h
  · cases h
    rfl
  · cases h

theorem slice_zero {size : Nat} (a : ReadAnswer size) :
    slice a.buf 0 a.n = none ↔ ¬ (0 ≤ a.n ∧ a.n ≤ size) := by
  rw [slice, a.length_buf]
  simp

theorem report_status (c : Conn W) (code : UInt32) (msg : Bytes) :
    Step.report (c.status env id code msg) =
      ⟨c.calls, c.replies ++ [statusPacket id code msg], c.tables, .next⟩ := rfl

theorem report_reply (c : Conn W) (type : UInt8) (payload : Bytes) :
    Step.report (c.reply env type payload) =
      ⟨c.calls, c.replies ++ [⟨type, payload⟩], c.tables, .next⟩ := rfl

theorem stringArg_eq (hh : Field.toOption (readString rest 0) = some (h, off)) :
    stringArg rest = some h := by
  simp [stringArg, hh]

theorem complete_of_stringArg (hh : stringArg rest = some h) :
    complete rest 0 [.string] = true := by
  obtain ⟨q, hq, -⟩ := Option.map_eq_some_iff.1 hh
  simp [complete, FieldType.next, hq]

attribute [local simp] Kind.layout complete FieldType.next Conn.ask Conn.failed Conn.tables
  report_status report_reply

section
variable (hc : c.calls = [] ∧ c.replies = [])
include hc

theorem field_deed {next : α → Nat → Step W} (hf : f ≠ none)
    (hshort : Field.toOption f = none → complete rest 0 k.layout = false)
    (hnext : ∀ a off, Field.toOption f = some (a, off) →
      Deed env c id rest k (Step.report (next a off))) :
        Deed env c id rest k (Step.report (c.field env id f next)) := by
  cases hopt : Field.toOption f with
  | some q =>
    rw [field_eq hopt]
    exact hnext _ _ hopt
  | none =>
    unfold Field.toOption at hopt
    split at hopt
    · cases hopt
    · rename_i hne
      cases f with
      | none => contradiction
      | some r =>
        cases r with
        | ok a => exact absurd rfl (hne a)
        | error e =>
          have hd : Deed env c id rest k _ :=
            Deed.truncated k e (c.sendStatus env id statusBadMessage e).2 (hshort rfl)
          simpa [Step.report, Conn.field, Conn.sendStatus, Conn.send, hc, statusPacket] using hd

theorem withHandle_deed {next : Bytes → Step W} (hk : k.namesHandle = true)
    (hh : stringArg rest = some h) (hdrained : k = .readdir → c.isDrained h = false)
    (hfields : complete rest 0 k.layout = true)
    (hnext : ∀ real, c.resolve h = some real → Deed env c id rest k (Step.report (next real))) :
    Deed env c id rest k (Step.report (c.withHandle env id h next)) := by
  unfold Conn.withHandle
  split
  · rename_i hnone
    have hd : Deed env c id rest k _ := Deed.noHandle k h hk hh hnone hdrained hfields
    simpa [Step.report, Conn.status, Conn.sendStatus, Conn.send, hc, statusPacket] using hd
  · exact hnext _ ‹_›

theorem serveOpen_deed :
    Deed env c id rest .open (Step.report (serveOpen env c id rest)) := by
  refine field_deed hc (readString_ne_none _ _) (fun hshort => ?_) fun path off hpath => ?_
  · simp [hshort]
  refine field_deed hc (readUint32_ne_none _ _) (fun hshort => ?_) fun flags off' hflags => ?_
  · simp [hpath, hshort]
  have hfields : complete rest 0 Kind.open.layout = true := by simp [hpath, hflags]
  cases hopen : (env.backend.open_ path flags c.world).1 with
  | error e =>
    have hd : Deed env c id rest .open _ := Deed.openFailed path flags e hfields
    simpa [hopen, hc] using hd
  | ok real =>
    have hd : Deed env c id rest .open _ := Deed.opened path flags real hfields
    simpa [hopen, Conn.sendHandle, hc, Conn.newHandle, handlePacket] using hd

theorem serveClose_deed :
    Deed env c id rest .close (Step.report (serveClose env c id rest)) := by
  refine field_deed hc (readString_ne_none _ _) (fun hshort => ?_) fun h off hh => ?_
  · simp [hshort]
  have hfields : complete rest 0 Kind.close.layout = true := by simp [hh]
  refine withHandle_deed hc rfl (stringArg_eq hh) nofun hfields fun real hreal => ?_
  have hd : Deed env c id rest .close _ := Deed.closed h real (stringArg_eq hh) hreal hfields
  simpa [hc, Conn.drop] using hd

theorem serveRead_deed :
    Deed env c id rest .read (Step.report (serveRead env c id rest)) := by
  refine field_deed hc (readString_ne_none _ _) (fun hshort => ?_) fun h off hh => ?_
  · simp [hshort]
  refine field_deed hc (readUint64_ne_none _ _) (fun hshort => ?_) fun offset off' hoffset => ?_
  · simp [hh, hshort]
  refine field_deed hc (readUint32_ne_none _ _) (fun hshort => ?_) fun size off'' hsize => ?_
  · simp [hh, hoffset, hshort]
  have hfields : complete rest 0 Kind.read.layout = true := by simp [hh, hoffset, hsize]
  have hargs : readArgs rest = some (h, offset, size) := by simp [readArgs, hh, hoffset, hsize]
  refine withHandle_deed hc rfl (stringArg_eq hh) nofun hfields fun real hreal => ?_
  cases herr : (env.backend.read real offset size c.world).1.err with
  | some e =>
    have hd (code : UInt32) (msg : Bytes) : Deed env c id rest .read _ :=
      Deed.readFailed h real offset size code msg hargs hreal hfields
    by_cases heof : e.kind = .eof
    · simpa [herr, heof, hc] using hd statusEOF []
    · simpa [herr, heof, hc] using hd (mapErr e) e.text
  | none =>
    cases hslice : slice (env.backend.read real offset size c.world).1.buf 0
        (env.backend.read real offset size c.world).1.n with
    | none =>
      have hd : Deed env c id rest .read _ :=
        Deed.readTooMuch h real offset size hargs hreal hfields herr ((slice_zero _).1 hslice)
      simpa [herr, hslice, Step.report, hc] using hd
    | some data =>
      have hd : Deed env c id rest .read _ :=
        Deed.read h real offset size (env.backend.read real offset size c.world).1.n data hargs
          hreal hfields
      simpa [herr, hslice, hc, dataPacket] using hd

theorem serveWrite_deed :
    Deed env c id rest .write (Step.report (serveWrite env c id rest)) := by
  refine field_deed hc (readString_ne_none _ _) (fun hshort => ?_) fun h off hh => ?_
  · simp [hshort]
  refine field_deed hc (readUint64_ne_none _ _) (fun hshort => ?_) fun offset off' hoffset => ?_
  · simp [hh, hshort]
  refine field_deed hc (readString_ne_none _ _) (fun hshort => ?_) fun data off'' hdata => ?_
  · simp [hh, hoffset, hshort]
  have hfields : complete rest 0 Kind.write.layout = true := by simp [hh, hoffset, hdata]
  have hargs : writeArgs rest = some (h, offset, data) := by simp [writeArgs, hh, hoffset, hdata]
  refine withHandle_deed hc rfl (stringArg_eq hh) nofun hfields fun real hreal => ?_
  have hd (code : UInt32) (msg : Bytes) : Deed env c id rest .write _ :=
    Deed.wrote h real offset data code msg hargs hreal hfields
  cases hwrite : (env.backend.write real offset data c.world).1 with
  | error e =>
    simpa [Conn.perform, hwrite, hc] using hd (mapErr e) e.text
  | ok u =>
    simpa [Conn.perform, hwrite, hc] using hd statusOK []

theorem serveOpendir_deed :
    Deed env c id rest .opendir (Step.report (serveOpendir env c id rest)) := by
  refine field_deed hc (readString_ne_none _ _) (fun hshort => ?_) fun path off hpath => ?_
  · simp [hshort]
  have hfields : complete rest 0 Kind.opendir.layout = true := by simp [hpath]
  cases hlist : (env.backend.readdir path c.world).1 with
  | error e =>
    have hd : Deed env c id rest .opendir _ := Deed.opendirFailed path e hfields
    simpa [hlist, hc] using hd
  | ok entries =>
    have hd : Deed env c id rest .opendir _ := Deed.openedDir path hfields
    simpa [hlist, Conn.sendHandle, hc, Conn.newHandle, handlePacket] using hd

theorem serveReaddir_deed :
    Deed env c id rest .readdir (Step.report (serveReaddir env c id rest)) := by
  refine field_deed hc (readString_ne_none _ _) (fun hshort => ?_) fun h off hh => ?_
  · simp [hshort]
  have hfields : complete rest 0 Kind.readdir.layout = true := by simp [hh]
  have harg := stringArg_eq hh
  cases hdrained : c.isDrained h with
  | true =>
    have hd : Deed env c id rest .readdir _ := Deed.drained h harg hdrained hfields
    simpa [hdrained, hc] using hd
  | false =>
    rw [if_neg (by simp)]
    refine withHandle_deed hc rfl harg (fun _ => hdrained) hfields fun real hreal => ?_
    cases hpath : slice real 4 real.length with
    | none =>
      have hd : Deed env c id rest .readdir _ := Deed.short h real harg hreal hdrained hpath hfields
      simpa [hpath, Step.report, hc] using hd
    | some path =>
      cases hlist : (env.backend.readdir path c.world).1 with
      | error e =>
        have hd : Deed env c id rest .readdir _ :=
          Deed.listFailed h real path e harg hreal hdrained hpath hlist hfields
        simpa [hpath, hlist, hc] using hd
      | ok entries =>
        have hd : Deed env c id rest .readdir _ :=
          Deed.listed h real path entries harg hreal hdrained hpath hlist hfields
        simpa [hpath, hlist, Conn.send, Step.report, hc, Conn.markDrained, namePacket] using hd

/-! ### Requests without handles -/

theorem perform_deed {q : Ask W (Except BackendError Unit)} (hk : k.isPlain = true)
    (hcall : call.isPlain = true) (hfields : complete rest 0 k.layout = true) :
    Deed env c id rest k (Step.report (c.perform env id call q)) := by
  have hd (code : UInt32) (msg : Bytes) : Deed env c id rest k _ :=
    Deed.plain k [call]
    (statusPacket id code msg) hk (by simpa using hcall) (requestID_statusPacket id code msg)
    (show typeStatus ≠ typeHandle by decide) hfields
  cases hq : (q c.world).1 with
  | error e =>
    simpa [Conn.perform, hq, hc] using hd (mapErr e) e.text
  | ok u =>
    simpa [Conn.perform, hq, hc] using hd statusOK []

theorem getStat_deed {q : Ask W (Except BackendError FileStat)} (hk : k.isPlain = true)
    (hcall : call.isPlain = true) (hfields : complete rest 0 k.layout = true) :
    Deed env c id rest k (Step.report (c.getStat env id call q)) := by
  have hd (reply : Packet) (hid : reply.requestID = some id) (htype : reply.type ≠ typeHandle) :
      Deed env c id rest k _ :=
    Deed.plain k [call] reply hk (by simpa using hcall) hid htype hfields
  cases hq : (q c.world).1 with
  | error e =>
    simpa [Conn.getStat, hq, hc] using
      hd _ (requestID_statusPacket id (mapErr e) e.text) (show typeStatus ≠ typeHandle by decide)
  | ok st =>
    simpa [Conn.getStat, hq, Conn.sendAttrs, hc] using
      hd _ (requestID_appendUint32 typeAttrs id st.attr.encode)
        (show typeAttrs ≠ typeHandle by decide)

theorem servePath_deed {next : Bytes → Step W} (hlayout : k.layout = [.string])
    (hnext : ∀ path, complete rest 0 k.layout = true →
      Deed env c id rest k (Step.report (next path))) :
    Deed env c id rest k (Step.report (servePath env c id rest next)) := by
  refine field_deed hc (readString_ne_none _ _) (fun hshort => ?_) fun path off hpath => ?_
  · rw [hlayout]
    simp [hshort]
  · exact hnext path (by rw [hlayout]; simp [hpath])

theorem serveRename_deed :
    Deed env c id rest .rename (Step.report (serveRename env c id rest)) := by
  refine field_deed hc (readString_ne_none _ _) (fun hshort => ?_) fun src off hsrc => ?_
  · simp [hshort]
  refine field_deed hc (readString_ne_none _ _) (fun hshort => ?_) fun dst off' hdst => ?_
  · simp [hsrc, hshort]
  exact perform_deed hc rfl rfl (by simp [hsrc, hdst])

theorem serveRequest_deed (k : Kind) :
    Deed env c id rest k (Step.report (serveRequest env c k id rest)) := by
  cases k with
  | «open» => exact serveOpen_deed hc
  | close => exact serveClose_deed hc
  | read => exact serveRead_deed hc
  | write => exact serveWrite_deed hc
  | opendir => exact serveOpendir_deed hc
  | readdir => exact serveReaddir_deed hc
  | rename => exact serveRename_deed hc
  | stat | lstat => exact servePath_deed hc rfl fun _ => getStat_deed hc rfl rfl
  | mkdir | rmdir | remove => exact servePath_deed hc rfl fun _ => perform_deed hc rfl rfl
  | other =>
    have hd : Deed env c id rest .other _ :=
      Deed.plain .other [] _ rfl nofun
      (requestID_statusPacket id statusOpUnsupported (lit "unsupported"))
      (show typeStatus ≠ typeHandle by decide) rfl
    simpa [serveRequest, hc] using hd

end

theorem servePacket_request (env : Env W) (c : Conn W) (hid : p.requestID = some id) :
    servePacket env c p = serveRequest env c p.kind id (p.payload.drop 4) := by
  have hlen : ¬ p.payload.length < 4 := fun hlt => by simp [Packet.requestID, hlt] at hid
  have hslice : (slice p.payload 0 4).bind beUint32 =
      some (UInt32.ofNat (BigEndian.decode ((p.payload.drop 0).take 4))) :=
    slice_bind_beUint32 (show 0 + 4 ≤ p.payload.length by omega)
  have hrest : slice p.payload 4 (4 + (p.payload.length - 4) : Nat) =
      some ((p.payload.drop 4).take (p.payload.length - 4)) :=
    slice_of_le (show 4 + (p.payload.length - 4) ≤ p.payload.length by omega)
  rw [show 4 + (p.payload.length - 4) = p.payload.length by omega,
    take_of_length_le (by simp)] at hrest
  rw [Packet.requestID, if_neg hlen] at hid
  rw [drop_zero, hid] at hslice
  rw [servePacket, if_neg hlen, hslice, hrest]

/-- **What the server does for a packet is one of its deeds.** -/
theorem servePacket_deed (hc : c.calls = [] ∧ c.replies = []) (hid : p.requestID = some id) :
    Deed env c id (p.payload.drop 4) p.kind (Step.report (servePacket env c p)) := by
  rw [servePacket_request env c hid]
  exact serveRequest_deed hc p.kind

end

/-! ## What the client sees -/

def Packet.rest : Option Bytes :=
  if p.payload.length < 4 then none else some (p.payload.drop 4)

def Packet.handle : Option Bytes :=
  p.rest.bind fun rest => (Field.toOption (readString rest 0)).map Prod.fst

/-- The handle in a `HANDLE` reply. -/
def Packet.issued : Option Bytes :=
  if p.type = typeHandle then (Field.toOption (readString p.payload 4)).map Prod.fst else none

/-- A `STATUS` reply that reports success. -/
def Packet.isOK : Bool :=
  p.type = typeStatus && (Field.toOption (readUint32 p.payload 4)).map Prod.fst = some statusOK

theorem rest_eq_some {p : Packet} (hlen : ¬ p.payload.length < 4) :
    p.rest = some (p.payload.drop 4) := if_neg hlen

theorem handle_eq {p : Packet} (hlen : ¬ p.payload.length < 4) :
    p.handle = stringArg (p.payload.drop 4) := by
  simp [Packet.handle, rest_eq_some hlen, stringArg]

@[simp] theorem isOK_statusPacket :
    (statusPacket id code msg).isOK = decide (code = statusOK) := by
  have hread : readUint32 (encodeStatus id code msg []) 4 = some (.ok (code, 8)) := by
    have h := readUint32_at (v := code) (standsAt_self (appendUint32 [] id) _
      (BigEndian.encode 4 (UInt32.ofNat msg.length).toNat ++ msg ++
        BigEndian.encode 4 (UInt32.ofNat 0).toNat))
    simpa [encodeStatus, appendUint32, appendString] using h
  simp [Packet.isOK, statusPacket, hread, Field.toOption]

theorem readString_appendUint32 (hlen : h.length < 2 ^ 32) (id : UInt32) :
    readString (appendString (appendUint32 [] id) h) 4 = some (.ok (h, 4 + 4 + h.length)) := by
  have hread := readString_append hlen (appendUint32 [] id) []
  rwa [append_nil, show (appendUint32 [] id).length = 4 by simp [appendUint32]] at hread

theorem length_newHandle_le : (c.newHandle real).1.length ≤ 11 := by
  have hlt : (c.nextID + 1).toNat < 10 ^ (9 + 1) := lt_trans (c.nextID + 1).toNat_lt (by decide)
  have hlen := Decimal.length_render_le hlt
  simp only [Conn.newHandle, itoa_eq_render, length_append]
  have hone : (lit "h").length = 1 := by decide
  omega

theorem length_newHandle : (c.newHandle real).1.length < 2 ^ 32 :=
  lt_of_le_of_lt (length_newHandle_le c real) (by decide)

theorem slice_dir (path : Bytes) :
    slice (lit "dir:" ++ path) 4 (lit "dir:" ++ path).length = some path := by
  have hlen : (lit "dir:" ++ path).length = 4 + path.length := by
    rw [length_append]
    rfl
  have hslice : slice (lit "dir:" ++ path) 4 (4 + path.length : Nat) =
      some (((lit "dir:" ++ path).drop 4).take path.length) := slice_of_le hlen.ge
  rw [hlen, hslice, show (lit "dir:" ++ path).drop 4 = path from rfl, take_length]

/-! ## The loop -/

section
variable {env : Env W}

/-- The exchange of a packet. -/
def exchange (env : Env W) (c : Conn W) (p : Packet) : Exchange :=
  { request := p, calls := (servePacket env c p).1.calls
    replies := (servePacket env c p).1.replies }

theorem exchange_short {c : Conn W} (hc : c.calls = [] ∧ c.replies = []) {p : Packet}
    (hlen : p.payload.length < 4) : exchange env c p = ⟨p, [], []⟩ := by
  rw [exchange, servePacket, if_pos hlen, hc.1, hc.2]

theorem step_ended (h : st.ended = some e) (p : Packet) : st.step env p = st := by
  simp [Served.step, h]

theorem step_loop (h : st.ended = none) (hready : st.ready = true) (p : Packet) :
    st.step env p =
      { st with
        conn := (servePacket env st.fresh p).1
        trace := st.trace ++ [exchange env st.fresh p]
        ended := (servePacket env st.fresh p).2.end } := by
  simp [Served.step, h, hready, exchange]

theorem step_handshake (h : st.ended = none) (hready : st.ready = false) (p : Packet) :
    st.step env p =
      { st with
        conn := (handshake env st.fresh p).1, ready := true
        ended := (handshake env st.fresh p).2.end } := by
  simp [Served.step, h, hready]

theorem Outcome.end_ne_panicked {out : Outcome} : out.end ≠ some .panicked ↔ out ≠ .panic := by
  cases out <;> simp [Outcome.end]

end

end Sftp
