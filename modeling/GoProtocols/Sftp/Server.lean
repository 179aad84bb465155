import GoProtocols.Go.Map
import GoProtocols.Lib.Run
import GoProtocols.Sftp.Packet

/-!
# The SFTP server

`Serve` of `sftp/server/server.go` as a system: the events are the packets that arrive on the
channel. The backend and the channel answer from a world `W` (`Env`). Next to the tables of the
source the state records what was done for each request (`Exchange`): the calls on the backend and
the packets written. A run-time panic is an end of its own (`End.panicked`).
-/

namespace Sftp

open Go

/-! ## Backends -/

structure FileStat where
  name : Bytes := []
  size : UInt64 := 0
  mode : UInt32 := 0
  isDir : Bool := false
  mtime : Int64 := 0
  uid : UInt32 := 0
  gid : UInt32 := 0

/-- What the server asks about an error: whether it is `io.EOF`, `os.ErrNotExist` or
`os.ErrPermission`. -/
inductive ErrorKind
  | eof | notExist | permission | other
  deriving DecidableEq

structure BackendError where
  kind : ErrorKind := .other
  text : Bytes := []

/-- The answer to a read into a buffer of `size` bytes: the buffer afterwards, the number of bytes
that the backend says it has read, and the error. -/
structure ReadAnswer (size : Nat) where
  buf : Bytes
  length_buf : buf.length = size
  n : Int
  err : Option BackendError

structure Backend (W : Type) where
  stat : Bytes → Ask W (Except BackendError FileStat)
  lstat : Bytes → Ask W (Except BackendError FileStat)
  open_ : Bytes → UInt32 → Ask W (Except BackendError Bytes)
  read : Bytes → UInt64 → (size : UInt32) → Ask W (ReadAnswer size.toNat)
  write : Bytes → UInt64 → Bytes → Ask W (Except BackendError Unit)
  close : Bytes → Ask W (Except BackendError Unit)
  readdir : Bytes → Ask W (Except BackendError (List FileStat))
  mkdir : Bytes → Ask W (Except BackendError Unit)
  rmdir : Bytes → Ask W (Except BackendError Unit)
  remove : Bytes → Ask W (Except BackendError Unit)
  rename : Bytes → Bytes → Ask W (Except BackendError Unit)

/-- A backend and the channel to the client. -/
structure Env (W : Type) where
  backend : Backend W
  write : Bytes → Ask W (Except Bytes Unit)

/-- A call on the backend; of `Open` also the answer. -/
inductive Call
  | stat (path : Bytes)
  | lstat (path : Bytes)
  | open (path : Bytes) (flags : UInt32) (answer : Except BackendError Bytes)
  | read (handle : Bytes) (offset : UInt64) (size : UInt32)
  | write (handle : Bytes) (offset : UInt64) (data : Bytes)
  | close (handle : Bytes)
  | readdir (path : Bytes)
  | mkdir (path : Bytes)
  | rmdir (path : Bytes)
  | remove (path : Bytes)
  | rename (src dst : Bytes)

/-! ## A connection -/

structure Conn (W : Type) where
  world : W
  handles : Map Bytes Bytes := ∅
  drained : Map Bytes Bool := ∅
  nextID : UInt32 := 0
  /-- The calls made for the request at hand. -/
  calls : List Call := []
  /-- The packets written for the request at hand. -/
  replies : List Packet := []

/-- How a request ends: the loop goes on, `Serve` returns, or it panics. -/
inductive Outcome
  | next
  | return (err : Except Bytes Unit)
  | panic

abbrev Step (W : Type) := Conn W × Outcome

def mapErr (err : BackendError) : UInt32 :=
  match err.kind with
  | .notExist => statusNoSuchFile
  | .permission => statusPermissionDenied
  | .eof | .other => statusFailure

section
variable {W : Type} (c : Conn W) (h : Bytes)

/-- `newHandle`: the handle issued. -/
def Conn.newHandle (real : Bytes) : Bytes × Conn W :=
  let nextID := c.nextID + 1
  let h := lit "h" ++ itoa nextID.toNat
  (h, { c with nextID, handles := c.handles.insert h real })

def Conn.resolve : Option Bytes := c.handles.lookup h

def Conn.markDrained : Conn W :=
  { c with drained := c.drained.insert h true }

def Conn.isDrained : Bool := (c.drained.lookup h).getD false

def Conn.drop : Conn W :=
  { c with handles := c.handles.erase h, drained := c.drained.erase h }

/-- Call the backend. -/
def Conn.ask {α : Type} (c : Conn W) (call : α → Call) (q : Ask W α) : α × Conn W :=
  ((q c.world).1, { c with world := (q c.world).2, calls := c.calls ++ [call (q c.world).1] })

variable (env : Env W) (c : Conn W) (id code : UInt32) (msg : Bytes)

/-- Write a packet. It is among the `replies` also if the write fails: these are what is written as
long as the writes to the channel succeed. -/
def Conn.send (p : Packet) : Conn W × Except Bytes Unit :=
  ({ c with world := (writePacket env.write p c.world).2, replies := c.replies ++ [p] },
    (writePacket env.write p c.world).1)

/-- Write a packet and go on, whether or not the write succeeds. -/
def Conn.reply (type : UInt8) (payload : Bytes) : Step W :=
  ((c.send env { type, payload }).1, .next)

def Conn.sendStatus : Conn W × Except Bytes Unit :=
  c.send env { type := typeStatus, payload := encodeStatus id code msg [] }

/-- Report a status and go on. -/
def Conn.status : Step W :=
  ((c.sendStatus env id code msg).1, .next)

/-- Report an error of the backend and go on. -/
def Conn.failed (err : BackendError) : Step W :=
  c.status env id (mapErr err) err.text

def Conn.sendHandle (h : Bytes) : Step W :=
  c.reply env typeHandle (appendString (appendUint32 [] id) h)

/-- The attributes in a reply. -/
def FileStat.attr (st : FileStat) : FileAttr :=
  { size := st.size, uid := st.uid, gid := st.gid, mode := st.mode
    mtime := if st.mtime ≠ 0 then unixTime st.mtime.toInt else zeroTime }

def Conn.sendAttrs (st : FileStat) : Step W :=
  c.reply env typeAttrs (appendUint32 [] id ++ st.attr.encode)

/-- Go on with a field of the request. A request that is too short ends the connection. -/
def Conn.field {α : Type} (c : Conn W) (id : UInt32) (f : Field α) (k : α → Nat → Step W) :
    Step W :=
  match f with
  | none => (c, .panic)
  | some (.error e) =>
    ((c.sendStatus env id statusBadMessage e).1, .return (c.sendStatus env id statusBadMessage e).2)
  | some (.ok (a, off)) => k a off

/-- Go on with what a handle stands for. -/
def Conn.withHandle (h : Bytes) (k : Bytes → Step W) : Step W :=
  match c.resolve h with
  | none => c.status env id statusFailure (lit "invalid handle")
  | some real => k real

/-! ## Requests -/

/-- The requests that make one call and report its success. -/
def Conn.perform (call : Call) (q : Ask W (Except BackendError Unit)) : Step W :=
  match c.ask (fun _ => call) q with
  | (.error e, c) => c.failed env id e
  | (.ok _, c) => c.status env id statusOK []

/-- The requests that ask for attributes. -/
def Conn.getStat (call : Call) (q : Ask W (Except BackendError FileStat)) : Step W :=
  match c.ask (fun _ => call) q with
  | (.error e, c) => c.failed env id e
  | (.ok st, c) => c.sendAttrs env id st

def serveOpen (rest : Bytes) : Step W :=
  c.field env id (readString rest 0) fun path off =>
    c.field env id (readUint32 rest off) fun pFlags _ =>
      match c.ask (.open path pFlags) (env.backend.open_ path pFlags) with
      | (.error e, c) => c.failed env id e
      | (.ok real, c) => (c.newHandle real).2.sendHandle env id (c.newHandle real).1

def serveClose (rest : Bytes) : Step W :=
  c.field env id (readString rest 0) fun h _ =>
    c.withHandle env id h fun real =>
      ((c.ask (fun _ => .close real) (env.backend.close real)).2.drop h).status env id statusOK []

def serveRead (rest : Bytes) : Step W :=
  c.field env id (readString rest 0) fun h off =>
    c.field env id (readUint64 rest off) fun offset off =>
      c.field env id (readUint32 rest off) fun size _ =>
        c.withHandle env id h fun real =>
          match c.ask (fun _ => .read real offset size) (env.backend.read real offset size) with
          | (answer, c) =>
            match answer.err with
            | some e =>
              if e.kind = .eof then c.status env id statusEOF [] else c.failed env id e
            | none =>
              match slice answer.buf 0 answer.n with
              | none => (c, .panic)
              | some data =>
                c.reply env typeData
                  (appendUint32 (appendUint32 [] id) (UInt32.ofInt answer.n) ++ data)

def serveWrite (rest : Bytes) : Step W :=
  c.field env id (readString rest 0) fun h off =>
    c.field env id (readUint64 rest off) fun offset off =>
      c.field env id (readString rest off) fun data _ =>
        c.withHandle env id h fun real =>
          c.perform env id (.write real offset data) (env.backend.write real offset data)

def serveOpendir (rest : Bytes) : Step W :=
  c.field env id (readString rest 0) fun path _ =>
    match c.ask (fun _ => .readdir path) (env.backend.readdir path) with
    | (.error e, c) => c.failed env id e
    | (.ok _, c) =>
      let real := lit "dir:" ++ path
      (c.newHandle real).2.sendHandle env id (c.newHandle real).1

/-- An entry of a directory, in a `NAME` reply. -/
def nameEntry (e : FileStat) : Bytes := appendString (appendString [] e.name) [] ++ e.attr.encode

def serveReaddir (rest : Bytes) : Step W :=
  c.field env id (readString rest 0) fun h _ =>
    if c.isDrained h then c.status env id statusEOF []
    else
      c.withHandle env id h fun real =>
        -- the prefix "dir:" is cut off, whether or not it is there
        match slice real 4 real.length with
        | none => (c, .panic)
        | some path =>
          match c.ask (fun _ => .readdir path) (env.backend.readdir path) with
          | (.error e, c) => c.failed env id e
          | (.ok entries, c) =>
            let payload := appendUint32 [] id ++ entries.flatMap nameEntry
            ((c.send env { type := typeName, payload }).1.markDrained h, .next)

def serveRename (rest : Bytes) : Step W :=
  c.field env id (readString rest 0) fun src off =>
    c.field env id (readString rest off) fun dst _ =>
      c.perform env id (.rename src dst) (env.backend.rename src dst)

/-- The requests with a path as their only field. -/
def servePath (rest : Bytes) (k : Bytes → Step W) : Step W :=
  c.field env id (readString rest 0) fun path _ => k path

def serveRequest (kind : Kind) (id : UInt32) (rest : Bytes) : Step W :=
  match kind with
  | .open => serveOpen env c id rest
  | .close => serveClose env c id rest
  | .read => serveRead env c id rest
  | .write => serveWrite env c id rest
  | .stat => servePath env c id rest fun p => c.getStat env id (.stat p) (env.backend.stat p)
  | .lstat => servePath env c id rest fun p => c.getStat env id (.lstat p) (env.backend.lstat p)
  | .opendir => serveOpendir env c id rest
  | .readdir => serveReaddir env c id rest
  | .mkdir => servePath env c id rest fun p => c.perform env id (.mkdir p) (env.backend.mkdir p)
  | .rmdir => servePath env c id rest fun p => c.perform env id (.rmdir p) (env.backend.rmdir p)
  | .remove => servePath env c id rest fun p => c.perform env id (.remove p) (env.backend.remove p)
  | .rename => serveRename env c id rest
  | .other => c.status env id statusOpUnsupported (lit "unsupported")

/-- One round of the loop. -/
def servePacket (c : Conn W) (p : Packet) : Step W :=
  if p.payload.length < 4 then (c, .next)
  else
    match (slice p.payload 0 4).bind beUint32, slice p.payload 4 p.payload.length with
    | some id, some rest => serveRequest env c p.kind id rest
    | _, _ => (c, .panic)

/-- What comes before the loop: the client's `INIT`. -/
def handshake (p : Packet) : Step W :=
  if p.type ≠ typeInit then
    (c, .return (.error (lit "sftp: expected INIT, got " ++ itoa p.type.toNat)))
  else if p.payload.length < 4 then (c, .return (.error (lit "unexpected EOF")))
  else
    match beUint32 p.payload with
    | none => (c, .panic)
    | some v =>
      if v ≠ version then
        (c, .return (.error (lit "sftp: unsupported client version " ++ itoa v.toNat)))
      else
        match c.send env { type := typeVersion, payload := appendUint32 [] version } with
        | (c, .error e) => (c, .return (.error e))
        | (c, .ok _) => (c, .next)

end

/-! ## Runs -/

/-- A request that was read in the loop, and what was done for it. -/
structure Exchange where
  request : Packet
  calls : List Call
  replies : List Packet

inductive End
  | returned (err : Except Bytes Unit)
  | panicked
  deriving DecidableEq

def Outcome.end : Outcome → Option End
  | .next => none
  | .return err => some (.returned err)
  | .panic => some .panicked

structure Served (W : Type) where
  conn : Conn W
  /-- The client's `INIT` has been answered. -/
  ready : Bool := false
  trace : List Exchange := []
  ended : Option End := none

section
variable {W : Type} (env : Env W) (st : Served W)

/-- The state in which a request is served: nothing has been done for it. -/
def Served.fresh : Conn W := { st.conn with calls := [], replies := [] }

/-- `Serve`, on a packet. Once it has ended, no packet is read. -/
def Served.step (p : Packet) : Served W :=
  match st.ended with
  | some _ => st
  | none =>
    if st.ready then
      let r := servePacket env st.fresh p
      { st with
        conn := r.1
        trace := st.trace ++ [{ request := p, calls := r.1.calls, replies := r.1.replies }]
        ended := r.2.end }
    else
      let r := handshake env st.fresh p
      { st with conn := r.1, ready := true, ended := r.2.end }

/-- A connection from the start. -/
def serve (world : W) : System (Served W) Packet where
  init := { conn := { world } }
  enabled _ _ := True
  step := Served.step env

end

end Sftp
