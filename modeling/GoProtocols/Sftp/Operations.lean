import GoProtocols.Sftp.Packet

/-!
# The operations of the SFTP client

The methods of `sftp/client/client.go` on top of `Client.do`, which is a parameter here (`Do`): a
method encodes a request, and decodes the reply to it. `File` is a handle with an offset. `ReadDir`
asks for entries until there are no more, which may be never: `readDir` gives up after some rounds.
-/

namespace Sftp.Client

open Go

variable {buf : Bytes} {next off : Nat} (op : Bytes) (p : Packet)

/-- What a method fails with: `io.EOF`, a `StatusError`, or an error with a text. -/
inductive Error
  | eof
  | status (code : UInt32) (msg : Bytes)
  | text (msg : Bytes)
  deriving DecidableEq

/-- What a method returns. A method that blocks for ever or panics returns nothing. -/
abbrev Answer (α : Type) := Option (Except Error α)

/-- `Client.do`: send a request of a type and wait for its reply. -/
abbrev Do (W : Type) := UInt8 → Bytes → Ask W (Answer Packet)

def typeOpen : UInt8 := 3
def typeClose : UInt8 := 4
def typeRead : UInt8 := 5
def typeWrite : UInt8 := 6
def typeOpendir : UInt8 := 11
def typeReaddir : UInt8 := 12

def openRead : UInt32 := 1
def openWrite : UInt32 := 2
def openCreate : UInt32 := 8
def openTrunc : UInt32 := 16

/-! ## Payloads -/

def openPayload (path : Bytes) (pFlags : UInt32) : Bytes :=
  appendUint32 (appendString [] path) pFlags

def closePayload (handle : Bytes) : Bytes := appendString [] handle

def readPayload (handle : Bytes) (offset : UInt64) (size : Nat) : Bytes :=
  appendUint32 (appendUint64 (appendString [] handle) offset) (UInt32.ofNat size)

def writePayload (handle : Bytes) (offset : UInt64) (data : Bytes) : Bytes :=
  appendUint64 (appendString [] handle) offset ++
    (appendUint32 [] (UInt32.ofNat data.length) ++ data)

/-! ## Replies -/

/-- The code and the message of a status; both are zero if it cannot be read. -/
def statusOf : UInt32 × Bytes :=
  match decodeStatus p.payload with
  | some (.ok (_, code, msg)) => (code, msg)
  | _ => (0, [])

/-- The string in a reply, after the id. -/
def stringOf : Answer Bytes :=
  (readString p.payload 4).map fun
    | .ok (s, _) => .ok s
    | .error e => .error (.text e)

/-- The reply to a request that is answered with a status. -/
def statusReply : Answer Unit :=
  if (statusOf p).1 ≠ statusOK then some (.error (.status (statusOf p).1 (statusOf p).2))
  else some (.ok ())

/-- The reply to a request for a handle. -/
def handleReply : Answer Bytes :=
  if p.type = typeStatus then some (.error (.status (statusOf p).1 (statusOf p).2))
  else if p.type ≠ typeHandle then
    some (.error (.text (lit "sftp: " ++ op ++ lit ": unexpected reply " ++ itoa p.type.toNat)))
  else stringOf p

def openReply : Packet → Answer Bytes := handleReply (lit "OPEN")

def opendirReply : Packet → Answer Bytes := handleReply (lit "OPENDIR")

/-- The reply to a `READ`: what is copied into a buffer of `size` bytes. -/
def readReply (size : Nat) (p : Packet) : Answer Bytes :=
  if p.type = typeStatus then
    if (statusOf p).1 = statusEOF then some (.error .eof)
    else some (.error (.status (statusOf p).1 (statusOf p).2))
  else if p.type ≠ typeData then
    some (.error (.text (lit "sftp: READ: unexpected reply " ++ itoa p.type.toNat)))
  else (stringOf p).map (Except.map fun n => n.take size)

structure DirEntry where
  name : Bytes
  attr : FileAttr

/-- One entry of a `NAME` reply. -/
def readEntry (buf : Bytes) (off : Nat) : Field DirEntry :=
  (readString buf off).andThen fun name off =>
    (readString buf off).andThen fun _ off =>
      (decodeAttrs buf off).andThen fun attr next => some (.ok ({ name, attr }, next))

theorem readString_next {s : Bytes}
    (h : readString buf off = some (.ok (s, next))) : off < next := by
  rw [readString_eq] at h
  split at h
  · cases h
  · dsimp only at h
    split at h
    · cases h
    · cases h
      omega

theorem readUint32_next {v : UInt32}
    (h : readUint32 buf off = some (.ok (v, next))) : off < next := by
  rw [readUint32_eq] at h
  split at h
  · cases h
  · cases h
    omega

theorem andThen_eq_ok {α β : Type} {f : Field α} {k : α → Nat → Field β} {b : β}
    (h : f.andThen k = some (.ok (b, next))) :
    ∃ a off, f = some (.ok (a, off)) ∧ k a off = some (.ok (b, next)) := by
  unfold Field.andThen at h
  split at h
  · cases h
  · cases h
  · exact ⟨_, _, rfl, h⟩

theorem given_next {α : Type} {flag : Prop} [Decidable flag] {read : Nat → Field α} {a default : α}
    (h : Field.given flag read default off = some (.ok (a, next)))
    (hread : ∀ {a : α}, read off = some (.ok (a, next)) → off < next) : off ≤ next := by
  unfold Field.given at h
  split at h
  · exact (hread h).le
  · cases h
    exact le_refl _

theorem readUint64_next {v : UInt64}
    (h : readUint64 buf off = some (.ok (v, next))) : off < next := by
  rw [readUint64_eq] at h
  split at h
  · cases h
  · cases h
    omega

theorem readTime_next {t : Time}
    (h : readTime buf off = some (.ok (t, next))) : off < next := by
  obtain ⟨v, off', hv, h⟩ := andThen_eq_ok h
  cases h
  exact readUint32_next hv

theorem decodeAttrs_next {a : FileAttr}
    (h : decodeAttrs buf off = some (.ok (a, next))) : off < next := by
  obtain ⟨flags, off0, h0, h⟩ := andThen_eq_ok h
  obtain ⟨size, off1, h1, h⟩ := andThen_eq_ok h
  obtain ⟨uid, off2, h2, h⟩ := andThen_eq_ok h
  obtain ⟨gid, off3, h3, h⟩ := andThen_eq_ok h
  obtain ⟨mode, off4, h4, h⟩ := andThen_eq_ok h
  obtain ⟨mtime, off5, h5, h⟩ := andThen_eq_ok h
  obtain ⟨atime, off6, h6, h⟩ := andThen_eq_ok h
  cases h
  calc off < off0 := readUint32_next h0
    _ ≤ off1 := given_next h1 readUint64_next
    _ ≤ off2 := given_next h2 readUint32_next
    _ ≤ off3 := given_next h3 readUint32_next
    _ ≤ off4 := given_next h4 readUint32_next
    _ ≤ off5 := given_next h5 readTime_next
    _ ≤ next := given_next h6 readTime_next

theorem readEntry_next {e : DirEntry}
    (h : readEntry buf off = some (.ok (e, next))) : off < next := by
  obtain ⟨name, off1, h1, h⟩ := andThen_eq_ok h
  obtain ⟨long, off2, h2, h⟩ := andThen_eq_ok h
  obtain ⟨attr, off3, h3, h⟩ := andThen_eq_ok h
  cases h
  calc off < off1 := readString_next h1
    _ < off2 := readString_next h2
    _ < next := decodeAttrs_next h3

/-- The loop of `ReadDir` over the entries of a reply. -/
def readEntries (buf : Bytes) (off : Nat) (entries : List DirEntry) : Answer (List DirEntry) :=
  if off < buf.length then
    match h : readEntry buf off with
    | none => none
    | some (.error e) => some (.error (.text e))
    | some (.ok (e, next)) =>
      have := readEntry_next h
      if e.name = lit "." ∨ e.name = lit ".." then readEntries buf next entries
      else readEntries buf next (entries ++ [e])
  else some (.ok entries)
termination_by buf.length - off

/-! ## Methods -/

section
variable {W : Type} (do_ : Do W) (path : Bytes) (pFlags : UInt32)

/-- Send a request and decode the reply. -/
def request {α : Type} (type : UInt8) (payload : Bytes) (decode : Packet → Answer α) :
    Ask W (Answer α) := fun w =>
  match do_ type payload w with
  | (none, w) => (none, w)
  | (some (.error e), w) => (some (.error e), w)
  | (some (.ok p), w) => (decode p, w)

/-- `Client.open`. -/
def open_ : Ask W (Answer Bytes) :=
  request do_ typeOpen (openPayload path pFlags) openReply

def closeHandle (handle : Bytes) : Ask W (Answer Unit) :=
  request do_ typeClose (closePayload handle) statusReply

/-- `Client.Read`: the bytes read. -/
def read (handle : Bytes) (offset : UInt64) (size : Nat) : Ask W (Answer Bytes) :=
  request do_ typeRead (readPayload handle offset size) (readReply size)

/-- `Client.Write`: the number of bytes written. -/
def write (handle : Bytes) (offset : UInt64) (data : Bytes) : Ask W (Answer Nat) :=
  request do_ typeWrite (writePayload handle offset data) fun p =>
    (statusReply p).map (Except.map fun _ => data.length)

/-- The rounds of `ReadDir`. -/
def readdirRounds (handle : Bytes) : Nat → List DirEntry → Ask W (Answer (List DirEntry))
  | 0, _, w => (none, w)
  | rounds + 1, entries, w =>
    match do_ typeReaddir (appendString [] handle) w with
    | (none, w) => (none, w)
    | (some (.error e), w) => (some (.error e), w)
    | (some (.ok p), w) =>
      if p.type = typeStatus then
        if (statusOf p).1 = statusEOF then (some (.ok entries), w)
        else (some (.error (.status (statusOf p).1 [])), w)
      else
        match readEntries p.payload 4 entries with
        | none => (none, w)
        | some (.error e) => (some (.error e), w)
        | some (.ok entries) => readdirRounds handle rounds entries w

/-- `Client.ReadDir`, if it is done after some rounds. The handle is closed in any case. -/
def readDir (rounds : Nat) (dir : Bytes) : Ask W (Answer (List DirEntry)) := fun w =>
  match request do_ typeOpendir (appendString [] dir) opendirReply w with
  | (none, w) => (none, w)
  | (some (.error e), w) => (some (.error e), w)
  | (some (.ok handle), w) =>
    match readdirRounds do_ handle rounds [] w with
    | (none, w) => (none, w)
    | (some r, w) => (some r, (closeHandle do_ handle w).2)

/-! ## Files -/

structure File where
  handle : Bytes
  off : UInt64 := 0

def openFile : Ask W (Answer File) := fun w =>
  let r := open_ do_ path pFlags w
  (r.1.map (Except.map fun handle => { handle }), r.2)

/-- `Client.Open`. -/
def openForRead : Ask W (Answer File) := openFile do_ path openRead

def create : Ask W (Answer File) :=
  openFile do_ path (openWrite ||| openCreate ||| openTrunc)

/-- `File.Read`, into a buffer of `size` bytes. -/
def File.read (f : File) (size : Nat) : Ask W (Answer Bytes × File) := fun w =>
  match Client.read do_ f.handle f.off size w with
  | (some (.ok data), w) =>
    ((some (.ok data), { f with off := f.off + UInt64.ofNat data.length }), w)
  | (r, w) => ((r, f), w)

def File.write (f : File) (data : Bytes) : Ask W (Answer Nat × File) := fun w =>
  match Client.write do_ f.handle f.off data w with
  | (some (.ok n), w) => ((some (.ok n), { f with off := f.off + UInt64.ofNat n }), w)
  | (r, w) => ((r, f), w)

/-- `File.Close`; the error `io.ErrClosedPipe` is dropped. -/
def File.close (f : File) : Ask W (Answer Unit) := fun w =>
  match closeHandle do_ f.handle w with
  | (some (.error e), w) =>
    if e = .text (lit "io: read/write on closed pipe") then (some (.ok ()), w)
    else (some (.error e), w)
  | r => r

end

end Sftp.Client
