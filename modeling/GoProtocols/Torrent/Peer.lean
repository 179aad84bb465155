import GoProtocols.Lib.BigEndian
import GoProtocols.Torrent.Metainfo

/-!
# Package `peer`

The handshake and the messages of `torrent/peer/peer.go`. A reader is the bytes that are left; a
writer is a function of the bytes and the world. A stream of messages and keepalives is read back
(`readMessages_stream`), and a handshake is accepted if it is the one that is sent, whatever its
reserved bytes are (`recvHandshake_ok`).
-/

namespace Peer

open Go List Metainfo

structure Message where
  payload : Bytes
  id : UInt8
  deriving DecidableEq

inductive PeerError
  | readHandshake (err : IoError)
  | protocolLength (n : UInt8)
  | protocol (name : Bytes)
  | infoHashMismatch (got want : Hash)
  | readLength (err : IoError)
  | readPayload (err : IoError)

/-- Which write failed. -/
inductive WriteError (E : Type)
  | length (err : E)
  | id (err : E)
  | payload (err : E)

def protocolStr : Bytes := lit "BitTorrent protocol"
def protocolStrLen : UInt8 := 19
def handshakeLen : Nat := 68

/-! ## The code -/

section

variable {W E : Type} (write : Bytes → W → Except E Unit × W)

/-- The parts of the buffer, in order; `buf[20:28]` is left as it is. -/
def sendHandshake (infoHash peerID : Hash) : W → Except E Unit × W :=
  write (protocolStrLen :: protocolStr ++ replicate 8 0 ++ infoHash.toList ++ peerID.toList)

def recvHandshake (expectedHash : Hash) (r : Bytes) : Except PeerError (Hash × Bytes) :=
  match readFull handshakeLen r with
  | .error e => .error (.readHandshake e)
  | .ok (buf, r) =>
    if buf.getD 0 0 ≠ protocolStrLen then .error (.protocolLength (buf.getD 0 0))
    else if (buf.take 20).drop 1 ≠ protocolStr then .error (.protocol ((buf.take 20).drop 1))
    else
      let gotHash := hashOf ((buf.take 48).drop 28)
      if gotHash ≠ expectedHash then .error (.infoHashMismatch gotHash expectedHash)
      else .ok (hashOf ((buf.take 68).drop 48), r)

/-- `ReadMessage`: `none` is a keepalive. -/
def readMessage (r : Bytes) : Except PeerError (Option Message × Bytes) :=
  match readFull 4 r with
  | .error e => .error (.readLength e)
  | .ok (b, r) =>
    let length := UInt32.ofNat (BigEndian.decode b)
    if length = 0 then .ok (none, r)
    else
      match readFull length.toNat r with
      | .error e => .error (.readPayload e)
      -- `raw` has at least one byte
      | .ok (raw, r) => .ok (some { id := raw.getD 0 0, payload := raw.drop 1 }, r)

def writeMessage (msg : Message) (w : W) : Except (WriteError E) Unit × W :=
  match write (BigEndian.encode 4 (UInt32.ofNat (1 + msg.payload.length)).toNat) w with
  | (.error e, w) => (.error (.length e), w)
  | (.ok _, w) =>
    match write [msg.id] w with
    | (.error e, w) => (.error (.id e), w)
    | (.ok _, w) =>
      match write msg.payload w with
      | (.error e, w) => (.error (.payload e), w)
      | (.ok _, w) => (.ok (), w)

end

/-! ## Streams -/

/-- A writer that keeps what is written. -/
def buffer (b w : Bytes) : Except Empty Unit × Bytes := (.ok (), w ++ b)

/-- The stream that messages and keepalives make. -/
def stream (msgs : List (Option Message)) : Bytes :=
  msgs.foldl (fun w msg => match msg with
    | none => w ++ [0, 0, 0, 0]
    | some msg => (writeMessage buffer msg w).2) []

/-- `n` calls of `ReadMessage`. -/
def readMessages : Nat → Bytes → Except PeerError (List (Option Message) × Bytes)
  | 0, r => .ok ([], r)
  | n + 1, r =>
    match readMessage r with
    | .error e => .error e
    | .ok (msg, r) => (readMessages n r).map fun q => (msg :: q.1, q.2)

def frame : Option Message → Bytes
  | none => [0, 0, 0, 0]
  | some msg =>
    BigEndian.encode 4 (UInt32.ofNat (1 + msg.payload.length)).toNat ++ msg.id :: msg.payload

theorem stream_eq (msgs : List (Option Message)) : stream msgs = msgs.flatMap frame := by
  have hstep : (fun w msg => match msg with
      | none => w ++ [0, 0, 0, 0]
      | some msg => (writeMessage buffer msg w).2) = fun w msg => w ++ frame msg := by
    funext w msg
    cases msg with
    | none => rfl
    | some msg => simp [writeMessage, buffer, frame]
  rw [stream, hstep, foldl_append_eq_append, nil_append]
  rfl

theorem readMessage_frame {msg : Option Message}
    (h : ∀ m ∈ msg, m.payload.length < 2 ^ 32 - 1) (r : Bytes) :
    readMessage (frame msg ++ r) = .ok (msg, r) := by
  cases msg with
  | none =>
    have hread : readFull 4 (frame none ++ r) = .ok ([0, 0, 0, 0], r) := readFull_eq_ok.2 ⟨rfl, rfl⟩
    rw [readMessage, hread]
    rfl
  | some msg =>
    have hlt := h msg rfl
    have hn : (UInt32.ofNat (1 + msg.payload.length)).toNat = 1 + msg.payload.length :=
      UInt32.toNat_ofNat_of_lt (show _ < 2 ^ 32 by omega)
    have hread : readFull 4 (frame (some msg) ++ r) =
        .ok (BigEndian.encode 4 (1 + msg.payload.length), msg.id :: msg.payload ++ r) :=
      readFull_eq_ok.2 ⟨BigEndian.length_encode 4 _, by rw [frame, hn, append_assoc]⟩
    have hraw : readFull (1 + msg.payload.length) (msg.id :: msg.payload ++ r) =
        .ok (msg.id :: msg.payload, r) := readFull_eq_ok.2 ⟨Nat.add_comm _ 1, rfl⟩
    have hne : UInt32.ofNat (1 + msg.payload.length) ≠ 0 := fun hz => by
      rw [hz] at hn
      simp at hn
      omega
    rw [readMessage, hread]
    dsimp only
    rw [BigEndian.decode_encode_of_lt (show _ < 2 ^ 32 by omega), if_neg hne, hn, hraw]
    rfl

theorem readMessages_stream {msgs : List (Option Message)}
    (h : ∀ m, some m ∈ msgs → m.payload.length < 2 ^ 32 - 1) :
    readMessages msgs.length (stream msgs) = .ok (msgs, []) := by
  rw [stream_eq]
  induction msgs with
  | nil => rfl
  | cons msg msgs ih =>
    have hread := readMessage_frame (fun m hm => h m (hm ▸ mem_cons_self)) (msgs.flatMap frame)
    rw [flatMap_cons, length_cons, readMessages, hread]
    dsimp only
    rw [ih fun m hm => h m (mem_cons_of_mem _ hm)]
    rfl

/-! ## Handshakes -/

theorem hashOf_eq {s : Bytes} (hs : s.length = 20) {v : Hash} : hashOf s = v ↔ s = v.toList := by
  constructor
  · rintro rfl
    refine ext_getElem (by simp [hs]) fun i hi hi' => ?_
    simp [hashOf, hi]
  · rintro rfl
    ext i hi
    simp [hashOf]

theorem append_eq_append {a b c d : Bytes} (h : a.length = c.length) :
    a ++ b = c ++ d ↔ a = c ∧ b = d :=
  ⟨fun heq => append_inj heq h, fun ⟨hac, hbd⟩ => by rw [hac, hbd]⟩

theorem recvHandshake_ok {input : Bytes} (hlen : input.length = 68) (hash peerID : Hash) :
    recvHandshake hash input = .ok (peerID, []) ↔
      input.take 20 ++ replicate 8 0 ++ input.drop 28 =
        (sendHandshake buffer hash peerID []).2 := by
  have hread : readFull handshakeLen input = .ok (input, []) :=
    readFull_eq_ok.2 ⟨hlen, (append_nil _).symm⟩
  have hhead : input.getD 0 0 = protocolStrLen ∧ (input.take 20).drop 1 = protocolStr ↔
      input.take 20 = protocolStrLen :: protocolStr := by
    cases input with
    | nil => cases hlen
    | cons b t => simp
  have hids : (input.take 48).drop 28 ++ (input.take 68).drop 48 = input.drop 28 := by
    rw [take_of_length_le hlen.le, drop_take, ← drop_drop (i := 20) (j := 28), take_append_drop]
  have htail : hashOf ((input.take 48).drop 28) = hash ∧
      hashOf ((input.take 68).drop 48) = peerID ↔
        input.drop 28 = hash.toList ++ peerID.toList := by
    rw [hashOf_eq (by simp [hlen]), hashOf_eq (by simp [hlen]), ← hids,
      append_eq_append (by simp [hlen])]
  have hstr : protocolStr.length = 19 := by decide
  rw [sendHandshake, buffer, nil_append, append_assoc _ hash.toList,
    append_eq_append (by simp [hlen, hstr]), append_eq_append (by simp [hlen, hstr]), ← htail,
    ← hhead, recvHandshake, hread]
  dsimp only
  split_ifs <;> simp_all

/-- **Messages and handshakes are received as they were sent**, up to the reserved bytes. -/
theorem wire_round_trip (msgs : List (Option Message))
    (h : ∀ m, some m ∈ msgs → m.payload.length < 2 ^ 32 - 1) (input : Bytes)
    (hlen : input.length = 68) (hash peerID : Hash) :
    readMessages msgs.length (stream msgs) = .ok (msgs, []) ∧
      (recvHandshake hash input = .ok (peerID, []) ↔
        input.take 20 ++ replicate 8 0 ++ input.drop 28 =
          (sendHandshake buffer hash peerID []).2) :=
  ⟨readMessages_stream h, recvHandshake_ok hlen hash peerID⟩

/-- A keepalive before a message, and a handshake with a reserved bit. -/
theorem wire_round_trip_keepalive :
    let msgs := [none, some ⟨[1], 4⟩]
    let hash : Hash := .replicate 20 7
    let input := protocolStrLen :: protocolStr ++ 1 :: replicate 7 0 ++ replicate 40 7
    readMessages msgs.length (stream msgs) = .ok (msgs, []) ∧
      (recvHandshake hash input = .ok (hash, []) ↔
        input.take 20 ++ replicate 8 0 ++ input.drop 28 = (sendHandshake buffer hash hash []).2) := by
  intro msgs hash input
  exact wire_round_trip msgs (by simp [msgs]) input rfl hash hash

end Peer
