import GoProtocols.Sftp.Client
import GoProtocols.Sftp.Framing
import GoProtocols.Sftp.Proof.Deeds

/-!
# A client and a server

The two ends of one channel, with one call of the client at a time. `remote b` is `Client.do`: the
request goes to the server as bytes, `Serve` takes a packet from these and handles it, and the client
takes the reply from the bytes that come back. Once the server has ended there are no replies.

A method of the client is then a call on the backend, with the handle that the server's table has for
it (`open_ok`, `close_remote`, `read_remote`, `write_remote`).
-/

namespace Sftp

open Go Client List

variable {data h path real : Bytes} {size : Nat} {reply : Packet} {offset : UInt64} (id : UInt32)
  (code : UInt32) {msg : Bytes} {W V α : Type}

/-! ## The channel -/

def Ask.beside (q : Ask W α) : Ask (W × V) α := fun w =>
  ((q w.1).1, (q w.1).2, w.2)

/-- A backend next to the bytes that go to the client. -/
def Backend.beside {W : Type} (b : Backend W) : Backend (W × Bytes) where
  stat path := Ask.beside (b.stat path)
  lstat path := Ask.beside (b.lstat path)
  open_ path flags := Ask.beside (b.open_ path flags)
  read h offset size := Ask.beside (b.read h offset size)
  write h offset data := Ask.beside (b.write h offset data)
  close h := Ask.beside (b.close h)
  readdir path := Ask.beside (b.readdir path)
  mkdir path := Ask.beside (b.mkdir path)
  rmdir path := Ask.beside (b.rmdir path)
  remove path := Ask.beside (b.remove path)
  rename src dst := Ask.beside (b.rename src dst)

def channel (b : Backend W) : Env (W × Bytes) where
  backend := b.beside
  write bytes w := (.ok (), w.1, w.2 ++ bytes)

structure Link (W : Type) where
  conn : Conn (W × Bytes)
  /-- The last id that the client has issued. -/
  counter : UInt32 := 0
  /-- The server's loop goes on. -/
  alive : Bool := true

/-- The packet that `do` writes. -/
def requestPacket (type : UInt8) (payload : Bytes) : Packet :=
  { type, payload := appendUint32 [] id ++ payload }

def Outcome.isNext : Outcome → Bool
  | .next => true
  | .return _ | .panic => false

section
variable {W : Type}

/-- The server before a request: the client has read everything. -/
def Link.ready (l : Link W) : Conn (W × Bytes) :=
  { l.conn with world := (l.conn.world.1, []), calls := [], replies := [] }

/-- `Client.do`, with the server at the other end of the channel. The server ends on a request that
it cannot read. Bytes after a packet are those of a packet with `2 ^ 32` bytes or more; what the other
end makes of these is left open, and there is no answer. -/
def remote (b : Backend W) : Do (Link W) := fun type payload l =>
  let id := nextID l.counter
  if l.alive = false then (none, { l with counter := id })
  else
    match readPacket (writePacket appendTo (requestPacket id type payload) []).2 with
    | .ok (p, []) =>
      let r := servePacket (channel b) l.ready p
      let l := { l with counter := id, conn := r.1, alive := r.2.isNext }
      match readPacket r.1.world.2 with
      | .ok (reply, []) => if reply.requestID = some id then (some (.ok reply), l) else (none, l)
      | _ => (none, { l with alive := false })
    | _ => (none, { l with counter := id, alive := false })

end

/-! ## Fields of requests and replies -/

theorem standsAt_zero (bytes : Bytes) : StandsAt bytes 0 bytes := prefix_rfl

theorem openPayload_eq (path : Bytes) (pFlags : UInt32) :
    openPayload path pFlags = appendString [] path ++ BigEndian.encode 4 pFlags.toNat := by
  simp [openPayload, appendUint32]

theorem openPayload_fields (hpath : path.length < 2 ^ 32) (pFlags : UInt32) :
    readString (openPayload path pFlags) 0 = some (.ok (path, 4 + path.length)) ∧
      readUint32 (openPayload path pFlags) (4 + path.length) =
        some (.ok (pFlags, 4 + path.length + 4)) := by
  have hbuf := standsAt_zero (openPayload path pFlags)
  nth_rewrite 2 [openPayload_eq] at hbuf
  obtain ⟨h₁, h₂⟩ := standsAt_append.1 hbuf
  rw [length_appendString, Nat.zero_add] at h₂
  exact ⟨by simpa using readString_at hpath h₁, readUint32_at h₂⟩

theorem closePayload_fields (hh : h.length < 2 ^ 32) :
    readString (closePayload h) 0 = some (.ok (h, 4 + h.length)) := by
  simpa [closePayload] using readString_at hh (standsAt_zero (appendString [] h))

theorem readPayload_eq (h : Bytes) (offset : UInt64) (size : Nat) :
    readPayload h offset size = appendString [] h ++ (BigEndian.encode 8 offset.toNat ++
      BigEndian.encode 4 (UInt32.ofNat size).toNat) := by
  simp [readPayload, appendUint32, appendUint64]

theorem handle_offset_fields {buf rest : Bytes} (hh : h.length < 2 ^ 32)
    (hbuf : StandsAt buf 0 (appendString [] h ++ (BigEndian.encode 8 offset.toNat ++ rest))) :
    readString buf 0 = some (.ok (h, 4 + h.length)) ∧
      readUint64 buf (4 + h.length) = some (.ok (offset, 4 + h.length + 8)) ∧
      StandsAt buf (4 + h.length + 8) rest := by
  obtain ⟨h₁, hbuf⟩ := standsAt_append.1 hbuf
  obtain ⟨h₂, h₃⟩ := standsAt_append.1 hbuf
  rw [length_appendString, Nat.zero_add] at h₂ h₃
  rw [BigEndian.length_encode] at h₃
  exact ⟨by simpa using readString_at hh h₁, readUint64_at h₂, h₃⟩

theorem readPayload_fields (hh : h.length < 2 ^ 32) (offset : UInt64) (size : Nat) :
    readString (readPayload h offset size) 0 = some (.ok (h, 4 + h.length)) ∧
      readUint64 (readPayload h offset size) (4 + h.length) =
        some (.ok (offset, 4 + h.length + 8)) ∧
      readUint32 (readPayload h offset size) (4 + h.length + 8) =
        some (.ok (UInt32.ofNat size, 4 + h.length + 8 + 4)) := by
  have hbuf := standsAt_zero (readPayload h offset size)
  nth_rewrite 2 [readPayload_eq] at hbuf
  obtain ⟨h₁, h₂, h₃⟩ := handle_offset_fields hh hbuf
  exact ⟨h₁, h₂, readUint32_at h₃⟩

theorem writePayload_eq (h : Bytes) (offset : UInt64) (data : Bytes) :
    writePayload h offset data = appendString [] h ++ (BigEndian.encode 8 offset.toNat ++
      appendString [] data) := by
  simp [writePayload, appendUint32, appendUint64, appendString]

theorem writePayload_fields (hh : h.length < 2 ^ 32) (offset : UInt64)
    (hdata : data.length < 2 ^ 32) :
    readString (writePayload h offset data) 0 = some (.ok (h, 4 + h.length)) ∧
      readUint64 (writePayload h offset data) (4 + h.length) =
        some (.ok (offset, 4 + h.length + 8)) ∧
      readString (writePayload h offset data) (4 + h.length + 8) =
        some (.ok (data, 4 + h.length + 8 + 4 + data.length)) := by
  have hbuf := standsAt_zero (writePayload h offset data)
  nth_rewrite 2 [writePayload_eq] at hbuf
  obtain ⟨h₁, h₂, h₃⟩ := handle_offset_fields hh hbuf
  exact ⟨h₁, h₂, readString_at hdata h₃⟩

theorem slice_bind_beUint32_at {buf : Bytes} {off : Nat} {v : UInt32}
    (h : StandsAt buf off (BigEndian.encode 4 v.toNat)) :
    (slice buf off (off + 4 : Nat)).bind beUint32 = some v := by
  have hle := h.le (encode_ne_nil 3 _)
  rw [BigEndian.length_encode] at hle
  rw [slice_bind_beUint32 hle, h.take (BigEndian.length_encode 4 _),
    BigEndian.decode_encode_of_lt v.toNat_lt, UInt32.ofNat_toNat]

theorem encodeStatus_eq (msg lang : Bytes) :
    encodeStatus id code msg lang = BigEndian.encode 4 id.toNat ++
      (BigEndian.encode 4 code.toNat ++ (appendString [] msg ++ appendString [] lang)) := by
  simp [encodeStatus, appendUint32, appendString]

theorem decodeStatus_encodeStatus (hmsg : msg.length < 2 ^ 32) (lang : Bytes) :
    decodeStatus (encodeStatus id code msg lang) = some (.ok (id, code, msg)) := by
  have hlen : ¬ (encodeStatus id code msg lang).length < 8 := by
    simp [encodeStatus_eq]
    omega
  have hbuf := standsAt_zero (encodeStatus id code msg lang)
  nth_rewrite 2 [encodeStatus_eq] at hbuf
  obtain ⟨hid, hbuf⟩ := standsAt_append.1 hbuf
  obtain ⟨hcode, hbuf⟩ := standsAt_append.1 hbuf
  obtain ⟨hstr, -⟩ := standsAt_append.1 hbuf
  rw [BigEndian.length_encode] at hcode
  rw [BigEndian.length_encode, BigEndian.length_encode] at hstr
  have hid : (slice (encodeStatus id code msg lang) 0 4).bind beUint32 = some id :=
    slice_bind_beUint32_at hid
  have hcode : (slice (encodeStatus id code msg lang) 4 8).bind beUint32 = some code :=
    slice_bind_beUint32_at hcode
  have hread : readString (encodeStatus id code msg lang) 8 = some (.ok (msg, 8 + 4 + msg.length)) :=
    readString_at hmsg hstr
  rw [decodeStatus, if_neg hlen, hid, Option.bind_some, hcode, Option.bind_some, hread]
  rfl

theorem statusOf_statusPacket (hmsg : msg.length < 2 ^ 32) :
    statusOf (statusPacket id code msg) = (code, msg) := by
  simp [statusOf, statusPacket, decodeStatus_encodeStatus id code hmsg []]

theorem statusReply_ok : statusReply (statusPacket id statusOK []) = some (.ok ()) := by
  have hempty : ([] : Bytes).length < 2 ^ 32 := by decide
  rw [statusReply, statusOf_statusPacket id statusOK hempty]
  rfl

theorem dataPacket_eq (data : Bytes) :
    (dataPacket id data.length data).payload = appendString (appendUint32 [] id) data := by
  have hn : UInt32.ofInt data.length = UInt32.ofNat data.length := by
    apply UInt32.toNat.inj
    simp [UInt32.ofInt]
    omega
  simp [dataPacket, appendString, appendUint32, hn]

theorem openReply_handlePacket (hh : h.length < 2 ^ 32) :
    openReply (handlePacket id h) = some (.ok h) := by
  show stringOf (handlePacket id h) = _
  simp [stringOf, handlePacket, readString_appendUint32 hh]

theorem readReply_eof (size : Nat) :
    readReply size (statusPacket id statusEOF []) = some (.error .eof) := by
  have hempty : ([] : Bytes).length < 2 ^ 32 := by decide
  rw [readReply, statusOf_statusPacket id statusEOF hempty]
  rfl

theorem stringOf_dataPacket (hdata : data.length < 2 ^ 32) :
    stringOf (dataPacket id data.length data) = some (.ok data) := by
  simp [stringOf, dataPacket_eq, readString_appendUint32 hdata]

theorem readReply_dataPacket (hdata : data.length < 2 ^ 32) (hsize : data.length ≤ size) :
    readReply size (dataPacket id data.length data) = some (.ok data) := by
  change (stringOf (dataPacket id data.length data)).map (Except.map fun n => n.take size) = _
  rw [stringOf_dataPacket id hdata, Option.map_some, Except.map, take_of_length_le hsize]

theorem slice_zero_eq_some {s : Bytes} {n : Int} (h : slice s 0 n = some data) :
    n = data.length ∧ data.length ≤ s.length := by
  unfold slice at h
  split at h
  · cases h
    simp
    omega
  · cases h

/-! ## One call -/

section
variable {W : Type} {b : Backend W} {l l' : Link W} {type : UInt8} {payload : Bytes}
  {c : Conn (W × Bytes)} {p : Packet}

theorem send_channel (b : Backend W) (c : Conn (W × Bytes)) (p : Packet) :
    (c.send (channel b) p).1 =
      { c with world := (c.world.1, c.world.2 ++ p.frame), replies := c.replies ++ [p] } := by
  simp [Conn.send, writePacket, channel, Packet.frame, Packet.lengthBytes]

theorem servePacket_requestPacket (env : Env W) (c : Conn W) (id : UInt32) (type : UInt8)
    (payload : Bytes) :
    servePacket env c (requestPacket id type payload) =
      serveRequest env c (requestPacket id type payload).kind id payload := by
  have hid : (requestPacket id type payload).requestID = some id :=
    requestID_appendUint32 type id payload
  have hdrop : (requestPacket id type payload).payload.drop 4 = payload :=
    drop_left' (by simp [appendUint32])
  rw [servePacket_request env c hid, hdrop]

theorem fits_requestPacket (type : UInt8) (payload : Bytes) :
    (requestPacket id type payload).Fits ↔ 5 + payload.length ≤ 2 ^ 24 := by
  simp only [Packet.Fits, requestPacket, appendUint32, nil_append, length_append,
    BigEndian.length_encode]
  omega

theorem reply_eq (hc : c.world.2 = []) (h : (c.send (channel b) p).1.world.2 = reply.frame) :
    reply = p := by
  rw [send_channel, hc, nil_append] at h
  exact (Packet.frame_injective h).symm

/-- What the server does for a request of the client. -/
def Link.serves (b : Backend W) (l : Link W) (type : UInt8) (payload : Bytes) : Step (W × Bytes) :=
  let id := nextID l.counter
  serveRequest (channel b) l.ready (requestPacket id type payload).kind id payload

def Link.next (l : Link W) (r : Step (W × Bytes)) : Link W :=
  { conn := r.1, counter := nextID l.counter, alive := r.2.isNext }

theorem remote_eq (hl : l.alive = true) :
    remote b type payload l =
      if 5 + payload.length ≤ 2 ^ 24 then
        match readPacket (l.serves b type payload).1.world.2 with
        | .ok (reply, []) =>
          if reply.requestID = some (nextID l.counter) then
            (some (.ok reply), l.next (l.serves b type payload))
          else (none, l.next (l.serves b type payload))
        | _ => (none, { l.next (l.serves b type payload) with alive := false })
      else (none, { l with counter := nextID l.counter, alive := false }) := by
  have hfits := fits_requestPacket (nextID l.counter) type payload
  simp only [remote, hl, Bool.true_eq_false, if_false, writePacket_appendTo, nil_append]
  split
  · rename_i p hread
    obtain ⟨hp, hframe⟩ := readPacket_whole.1 hread
    obtain rfl := Packet.frame_injective hframe
    rw [if_pos (hfits.1 hp), servePacket_requestPacket]
    rfl
  · rename_i hread
    rw [if_neg fun hlen => hread _ (readPacket_whole.2 ⟨hfits.2 hlen, rfl⟩)]

theorem remote_eq_some {r : Except Error Packet} :
    remote b type payload l = (some r, l') ↔
      l.alive = true ∧ 5 + payload.length ≤ 2 ^ 24 ∧ l' = l.next (l.serves b type payload) ∧
        ∃ reply, r = .ok reply ∧ reply.Fits ∧ reply.requestID = some (nextID l.counter) ∧
          (l.serves b type payload).1.world.2 = reply.frame := by
  cases hl : l.alive with
  | false => simp [remote, hl]
  | true =>
    rw [remote_eq hl]
    constructor
    · intro h
      split at h
      · rename_i hlen
        split at h
        · rename_i reply hread
          split at h
          · cases h
            obtain ⟨hfits, hframe⟩ := readPacket_whole.1 hread
            exact ⟨rfl, hlen, rfl, reply, rfl, hfits, ‹_›, hframe⟩
          · cases h
        · cases h
      · cases h
    · rintro ⟨-, hlen, rfl, reply, rfl, hfits, hid, hframe⟩
      rw [if_pos hlen, readPacket_whole.2 ⟨hfits, hframe⟩]
      exact if_pos hid

end

/-! ## The methods -/

theorem field_ok {env : Env W} {c : Conn W} {id : UInt32} {f : Field α} {a : α} {off : Nat}
    (h : f = some (.ok (a, off))) (k : α → Nat → Step W) : c.field env id f k = k a off := by
  rw [h]
  rfl

section
variable {W : Type} {b : Backend W} {l l' : Link W} {w : W} {m : Map Bytes Bytes} {flags : UInt32}

/-- The server goes on, with the given world and table. -/
structure Link.Stands (l : Link W) (w : W) (m : Map Bytes Bytes) : Prop where
  alive : l.alive = true
  world : l.conn.world.1 = w
  handles : l.conn.handles = m

/-- The packets of transfers of less than `2 ^ 24 - 64` bytes fit. -/
def shortTransfer : Nat := 2 ^ 24 - 64

theorem shortTransfer_eq : shortTransfer = 16777152 := rfl

theorem request_reply {type : UInt8} {payload : Bytes} (decode : Packet → Answer α)
    {c : Conn (W × Bytes)} (hl : l.alive = true) (hlen : 5 + payload.length ≤ 2 ^ 24)
    (hc : c.world.2 = []) (hserve : l.serves b type payload = ((c.send (channel b) reply).1, .next))
    (hfits : reply.Fits) (hid : reply.requestID = some (nextID l.counter)) :
    request (remote b) type payload decode l =
      (decode reply, l.next ((c.send (channel b) reply).1, .next)) := by
  have hremote : remote b type payload l =
      (some (.ok reply), l.next ((c.send (channel b) reply).1, .next)) := by
    refine remote_eq_some.2 ⟨hl, hlen, by rw [hserve], reply, rfl, hfits, hid, ?_⟩
    rw [hserve, send_channel, hc]
    rfl
  rw [request, hremote]

theorem fits_statusPacket : (statusPacket id code []).Fits := by
  simp [Packet.Fits, statusPacket, encodeStatus_eq, length_appendString]

theorem fits_handlePacket (hh : h.length ≤ 11) : (handlePacket id h).Fits := by
  simp only [Packet.Fits, handlePacket, appendString, appendUint32, length_append,
    BigEndian.length_encode, length_nil]
  omega

theorem fits_dataPacket (n : Int) (hdata : data.length < shortTransfer) :
    (dataPacket id n data).Fits := by
  simp only [Packet.Fits, dataPacket, appendUint32, length_append, BigEndian.length_encode,
    length_nil]
  rw [shortTransfer_eq] at hdata
  omega

theorem close_remote (hl : l.Stands w m) (hreal : m.lookup h = some real)
    (hh : h.length ≤ 11) :
    ∃ l', closeHandle (remote b) h l = (some (.ok ()), l') ∧
      l'.Stands (b.close real w).2 (m.erase h) := by
  obtain ⟨halive, rfl, rfl⟩ := hl
  have hserve : l.serves b typeClose (closePayload h) =
      ((l.ready.ask (fun _ => .close real) (Ask.beside (b.close real))).2.drop h).status
        (channel b) (nextID l.counter) statusOK [] := by
    change serveClose (channel b) l.ready (nextID l.counter) (closePayload h) = _
    have hresolve : l.ready.resolve h = some real := hreal
    rw [serveClose, field_ok (closePayload_fields (by omega)), Conn.withHandle, hresolve]
    rfl
  have hlen : 5 + (closePayload h).length ≤ 2 ^ 24 := by
    rw [closePayload, length_appendString]
    omega
  refine ⟨_, (request_reply statusReply halive hlen rfl hserve (fits_statusPacket _ _)
    (requestID_statusPacket _ _ _)).trans (Prod.ext ?_ rfl), rfl, rfl, rfl⟩
  exact statusReply_ok (nextID l.counter)

theorem write_remote (hl : l.Stands w m)
    (hreal : m.lookup h = some real) (hh : h.length ≤ 11) (hdata : data.length < shortTransfer)
    (hok : (b.write real offset data w).1 = .ok ()) :
    ∃ l', Client.write (remote b) h offset data l = (some (.ok data.length), l') ∧
      l'.Stands (b.write real offset data w).2 m := by
  obtain ⟨halive, rfl, rfl⟩ := hl
  rw [shortTransfer_eq] at hdata
  have hserve : l.serves b typeWrite (writePayload h offset data) =
      (l.ready.ask (fun _ => .write real offset data)
        (Ask.beside (b.write real offset data))).2.status (channel b) (nextID l.counter)
          statusOK [] := by
    change serveWrite (channel b) l.ready (nextID l.counter) (writePayload h offset data) = _
    obtain ⟨hhandle, hoffset, hstr⟩ := writePayload_fields (show h.length < 2 ^ 32 by omega) offset
      (show data.length < 2 ^ 32 by omega)
    have hresolve : l.ready.resolve h = some real := hreal
    have hask : ((channel b).backend.write real offset data l.ready.world).1 = .ok () := hok
    rw [serveWrite, field_ok hhandle, field_ok hoffset, field_ok hstr, Conn.withHandle, hresolve]
    simp only [Conn.perform, Conn.ask, hask]
    rfl
  have hlen : 5 + (writePayload h offset data).length ≤ 2 ^ 24 := by
    simp only [writePayload_eq, length_append, length_appendString, BigEndian.length_encode]
    omega
  refine ⟨_, (request_reply _ halive hlen rfl hserve (fits_statusPacket _ _)
    (requestID_statusPacket _ _ _)).trans (Prod.ext ?_ rfl), rfl, rfl, rfl⟩
  exact congrArg (Option.map _) (statusReply_ok (nextID l.counter))

theorem serves_read (hreal : l.conn.handles.lookup h = some real)
    (hh : h.length ≤ 11) (offset : UInt64) (size : Nat) :
    let r := b.read real offset (UInt32.ofNat size) l.conn.world.1
    let c := (l.ready.ask (fun _ => .read real offset (UInt32.ofNat size))
      (Ask.beside (b.read real offset (UInt32.ofNat size)))).2
    l.serves b typeRead (readPayload h offset size) =
      match r.1.err with
      | some e =>
        if e.kind = .eof then c.status (channel b) (nextID l.counter) statusEOF []
        else c.failed (channel b) (nextID l.counter) e
      | none =>
        match slice r.1.buf 0 r.1.n with
        | none => (c, .panic)
        | some data => ((c.send (channel b) (dataPacket (nextID l.counter) r.1.n data)).1, .next) := by
  intro r c
  change serveRead (channel b) l.ready (nextID l.counter) (readPayload h offset size) = _
  obtain ⟨hhandle, hoffset, hsize⟩ := readPayload_fields (show h.length < 2 ^ 32 by omega) offset size
  have hresolve : l.ready.resolve h = some real := hreal
  rw [serveRead, field_ok hhandle, field_ok hoffset, field_ok hsize, Conn.withHandle, hresolve]
  rfl

theorem length_readPayload (hh : h.length ≤ 11) (offset : UInt64) (size : Nat) :
    5 + (readPayload h offset size).length ≤ 2 ^ 24 := by
  simp only [readPayload_eq, length_append, length_appendString, BigEndian.length_encode]
  omega

theorem read_remote (hl : l.Stands w m)
    (hreal : m.lookup h = some real) (hh : h.length ≤ 11) (hsize : size < shortTransfer)
    (herr : (b.read real offset (UInt32.ofNat size) w).1.err = none)
    (hdata : slice (b.read real offset (UInt32.ofNat size) w).1.buf 0
      (b.read real offset (UInt32.ofNat size) w).1.n = some data) :
    ∃ l', Client.read (remote b) h offset size l = (some (.ok data), l') ∧
      l'.Stands (b.read real offset (UInt32.ofNat size) w).2 m := by
  obtain ⟨halive, rfl, rfl⟩ := hl
  obtain ⟨hn, hle⟩ := slice_zero_eq_some hdata
  have hshort := shortTransfer_eq
  have hmod : (UInt32.ofNat size).toNat ≤ size := by
    rw [UInt32.toNat_ofNat']
    exact Nat.mod_le _ _
  rw [ReadAnswer.length_buf] at hle
  have hserve := serves_read (b := b) hreal hh offset size
  simp only [herr, hdata] at hserve
  rw [hn] at hserve
  refine ⟨_, (request_reply _ halive (length_readPayload hh offset size) rfl hserve
    (fits_dataPacket _ _ (by omega)) (requestID_dataPacket _ _ _)).trans (Prod.ext ?_ rfl),
    rfl, rfl, rfl⟩
  exact readReply_dataPacket (nextID l.counter) (by omega) (by omega)

theorem read_remote_eof (hl : l.Stands w m)
    (hreal : m.lookup h = some real) (hh : h.length ≤ 11) {e : BackendError}
    (herr : (b.read real offset (UInt32.ofNat size) w).1.err = some e) (heof : e.kind = .eof) :
    ∃ l', Client.read (remote b) h offset size l = (some (.error .eof), l') ∧
      l'.Stands (b.read real offset (UInt32.ofNat size) w).2 m := by
  obtain ⟨halive, rfl, rfl⟩ := hl
  have hserve := serves_read (b := b) hreal hh offset size
  simp only [herr, heof, if_true] at hserve
  refine ⟨_, (request_reply _ halive (length_readPayload hh offset size) rfl hserve
    (fits_statusPacket _ _) (requestID_statusPacket _ _ _)).trans (Prod.ext ?_ rfl), rfl, rfl, rfl⟩
  exact readReply_eof (nextID l.counter) size

theorem serves_open (hpath : path.length < 2 ^ 32) (flags : UInt32) :
    let c := (l.ready.ask (.open path flags) (Ask.beside (b.open_ path flags))).2
    (∀ e, (b.open_ path flags l.conn.world.1).1 = .error e →
        l.serves b typeOpen (openPayload path flags) = c.failed (channel b) (nextID l.counter) e) ∧
      ∀ real, (b.open_ path flags l.conn.world.1).1 = .ok real →
        l.serves b typeOpen (openPayload path flags) =
          (((c.newHandle real).2.send (channel b)
            (handlePacket (nextID l.counter) (c.newHandle real).1)).1, .next) := by
  intro c
  obtain ⟨hstr, hflags⟩ := openPayload_fields hpath flags
  have hserve : l.serves b typeOpen (openPayload path flags) =
    serveOpen (channel b) l.ready (nextID l.counter) (openPayload path flags) := rfl
  rw [serveOpen, field_ok hstr, field_ok hflags] at hserve
  constructor
  · intro e hopen
    have hask : l.ready.ask (.open path flags) ((channel b).backend.open_ path flags) =
      (.error e, c) := Prod.ext hopen rfl
    rw [hserve, hask]
  · intro real hopen
    have hask : l.ready.ask (.open path flags) ((channel b).backend.open_ path flags) =
      (.ok real, c) := Prod.ext hopen rfl
    rw [hserve, hask]
    rfl

theorem length_openPayload (path : Bytes) (flags : UInt32) :
    (openPayload path flags).length = path.length + 8 := by
  rw [openPayload_eq, length_append, length_appendString, BigEndian.length_encode]
  omega

theorem open_ok (hl : l.Stands w m) (hopen : open_ (remote b) path flags l = (some (.ok h), l')) :
    ∃ real, (b.open_ path flags w).1 = .ok real ∧ h.length ≤ 11 ∧
      l'.Stands (b.open_ path flags w).2 (m.insert h real) := by
  obtain ⟨halive, rfl, rfl⟩ := hl
  unfold open_ request at hopen
  split at hopen
  · cases hopen
  · cases hopen
  · rename_i reply l'' hremote
    obtain ⟨hreply, rfl⟩ := Prod.mk.inj hopen
    obtain ⟨-, hlen, rfl, reply', heq, hfits, -, hframe⟩ := remote_eq_some.1 hremote
    cases heq
    rw [length_openPayload] at hlen
    obtain ⟨herror, hok⟩ := serves_open (b := b) (l := l) (show path.length < 2 ^ 32 by omega) flags
    cases hopen : (b.open_ path flags l.conn.world.1).1 with
    | error e =>
      rw [herror e hopen] at hframe
      obtain rfl : reply = statusPacket (nextID l.counter) (mapErr e) e.text := reply_eq rfl hframe
      cases hreply
    | ok real =>
      rw [hok real hopen] at hframe ⊢
      obtain rfl : reply = handlePacket (nextID l.counter) _ := reply_eq rfl hframe
      rw [openReply_handlePacket _ (length_newHandle _ _)] at hreply
      cases hreply
      exact ⟨real, rfl, length_newHandle_le _ _, rfl, rfl, rfl⟩

theorem open_remote (hl : l.Stands w m) (hpath : path.length < shortTransfer)
    (hok : (b.open_ path flags w).1 = .ok real) :
    ∃ h l', open_ (remote b) path flags l = (some (.ok h), l') := by
  obtain ⟨halive, rfl, rfl⟩ := hl
  rw [shortTransfer_eq] at hpath
  have hserve := (serves_open (show path.length < 2 ^ 32 by omega) flags).2 real hok
  have hlen : 5 + (openPayload path flags).length ≤ 2 ^ 24 := by
    rw [length_openPayload]
    omega
  have hreply := request_reply openReply halive hlen rfl hserve
    (fits_handlePacket _ (length_newHandle_le _ _)) (requestID_handlePacket _ _)
  rw [openReply_handlePacket _ (length_newHandle _ _)] at hreply
  exact ⟨_, _, hreply⟩

end

end Sftp
