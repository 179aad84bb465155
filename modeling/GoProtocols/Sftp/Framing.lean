import GoProtocols.Sftp.Operations

/-!
# Frames

A packet on the wire is its length, its type and its payload. `WritePacket` writes packets of any
length, `ReadPacket` refuses those with more than `2 ^ 24` bytes (`Packet.Fits`).

* `readAll`: the packets that a loop around `ReadPacket` gets from a stream. From a stream of frames
  that fit it gets the packets (`readAll_frames`). What follows a length is taken for a packet: its
  first byte is the type (`readAll_length`).
-/

namespace Sftp

open Go List

variable {p : Packet} {r r' : Bytes} (id : UInt32) (handle : Bytes) (offset : UInt64) (data : Bytes)

namespace Packet

def lengthBytes (p : Packet) : Bytes :=
  BigEndian.encode 4 (UInt32.ofNat (1 + p.payload.length)).toNat

/-- What `WritePacket` writes. -/
def frame (p : Packet) : Bytes := p.lengthBytes ++ p.type :: p.payload

/-- The length is one that `ReadPacket` accepts. -/
def Fits (p : Packet) : Prop := 1 + p.payload.length ≤ 2 ^ 24

instance (p : Packet) : Decidable p.Fits := inferInstanceAs (Decidable (_ ≤ _))

@[simp] theorem length_lengthBytes (p : Packet) : p.lengthBytes.length = 4 :=
  BigEndian.length_encode 4 _

theorem length_frame (p : Packet) : p.frame.length = 5 + p.payload.length := by
  simp [frame]
  omega

theorem decode_lengthBytes (h : 1 + p.payload.length < 2 ^ 32) :
    UInt32.ofNat (BigEndian.decode p.lengthBytes) = UInt32.ofNat (1 + p.payload.length) := by
  have hn : (UInt32.ofNat (1 + p.payload.length)).toNat = 1 + p.payload.length :=
    UInt32.toNat_ofNat_of_lt h
  rw [lengthBytes, BigEndian.decode_encode_mod, hn, Nat.mod_eq_of_lt (by simpa using h)]

end Packet

def appendTo (b : Bytes) : Ask Bytes (Except Bytes Unit) := fun w => (.ok (), w ++ b)

theorem writePacket_appendTo (p : Packet) (w : Bytes) :
    writePacket appendTo p w = (.ok (), w ++ p.frame) := by
  simp [writePacket, appendTo, Packet.frame, Packet.lengthBytes]

/-! ## One packet -/

theorem readPacket_frame (h : p.Fits) (r : Bytes) :
    readPacket (p.frame ++ r) = .ok (p, r) := by
  have hfits : 1 + p.payload.length ≤ 2 ^ 24 := h
  have hn : (UInt32.ofNat (1 + p.payload.length)).toNat = 1 + p.payload.length :=
    UInt32.toNat_ofNat_of_lt (show _ < 2 ^ 32 by omega)
  have hne : UInt32.ofNat (1 + p.payload.length) ≠ 0 := fun hz => by
    have hzero : 0 = 1 + p.payload.length := by simpa [hz] using hn
    omega
  have hlen : readFull 4 (p.lengthBytes ++ (p.type :: p.payload ++ r)) =
      .ok (p.lengthBytes, p.type :: p.payload ++ r) :=
    readFull_eq_ok.2 ⟨p.length_lengthBytes, rfl⟩
  have hread : readFull (1 + p.payload.length) (p.type :: p.payload ++ r) =
      .ok (p.type :: p.payload, r) := readFull_eq_ok.2 ⟨by simp [Nat.add_comm], rfl⟩
  have hlimit : ¬ 1 + p.payload.length > 1 <<< 24 := by
    rw [show 1 <<< 24 = 2 ^ 24 from rfl]
    omega
  rw [Packet.frame, append_assoc, readPacket, hlen]
  dsimp only
  rw [Packet.decode_lengthBytes (by omega), hn, if_neg (by simp only [hne, hlimit, or_self, not_false_eq_true]), hread]

theorem readPacket_eq_ok :
    readPacket r = .ok (p, r') ↔ p.Fits ∧ r = p.frame ++ r' := by
  refine ⟨fun h => ?_, fun ⟨hfits, hr⟩ => hr ▸ readPacket_frame hfits r'⟩
  unfold readPacket at h
  split at h
  · cases h
  · rename_i b s hlen
    obtain ⟨hb, rfl⟩ := readFull_eq_ok.1 hlen
    dsimp only at h
    split at h
    · cases h
    · rename_i hn
      have hdecode : BigEndian.decode b < 2 ^ 32 := by
        have hlt := BigEndian.decode_lt b
        rwa [hb] at hlt
      have hnat : (UInt32.ofNat (BigEndian.decode b)).toNat = BigEndian.decode b :=
        UInt32.toNat_ofNat_of_lt hdecode
      split at h
      · cases h
      · cases h
      · rename_i type payload s' hbody
        obtain ⟨hcount, rfl⟩ := readFull_eq_ok.1 hbody
        cases h
        have hdec : BigEndian.decode b = 1 + payload.length := by
          rw [← hnat, ← hcount, length_cons, Nat.add_comm]
        refine ⟨?_, ?_⟩
        · show 1 + payload.length ≤ 2 ^ 24
          rw [← hdec, ← hnat]
          exact Nat.le_of_not_lt fun hlt => hn (.inr hlt)
        · have hbytes : Packet.lengthBytes { type, payload } = b := by
            rw [Packet.lengthBytes, ← hdec, hnat, ← hb, BigEndian.encode_decode]
          rw [Packet.frame, hbytes, append_assoc]

theorem readPacket_whole :
    readPacket r = .ok (p, []) ↔ p.Fits ∧ r = p.frame := by
  rw [readPacket_eq_ok, append_nil]

theorem Packet.frame_injective {q : Packet} (h : p.frame = q.frame) : p = q := by
  have hbody := (append_inj h (by rw [Packet.length_lengthBytes, Packet.length_lengthBytes])).2
  obtain ⟨htype, hpayload⟩ := List.cons.inj hbody
  cases p
  cases q
  exact congrArg₂ Packet.mk htype hpayload

/-- **A packet is read back as it was written, with the rest of the stream, exactly if it fits.** -/
theorem readPacket_written_iff (p : Packet) (rest : Bytes) :
    readPacket ((writePacket appendTo p []).2 ++ rest) = .ok (p, rest) ↔
      1 + p.payload.length ≤ 2 ^ 24 := by
  rw [writePacket_appendTo, nil_append, readPacket_eq_ok]
  exact and_iff_left rfl

/-- The packet of a `Client.Write`. -/
def writeRequest : Packet :=
  { type := Client.typeWrite
    payload := appendUint32 [] id ++ Client.writePayload handle offset data }

theorem length_writeRequest :
    (writeRequest id handle offset data).payload.length = handle.length + data.length + 20 := by
  simp [writeRequest, Client.writePayload, appendUint32, appendUint64, appendString]
  omega

/-- A write of sixteen megabytes cannot be read. -/
theorem not_readPacket_sixteenMegabytes :
    let p := writeRequest 1 (lit "h1") 0 (List.replicate (2 ^ 24) 0)
    readPacket ((writePacket appendTo p []).2 ++ []) ≠ .ok (p, []) := by
  intro p h
  rw [writePacket_appendTo, nil_append, readPacket_eq_ok] at h
  have hfits : 1 + p.payload.length ≤ 2 ^ 24 := h.1
  rw [length_writeRequest, length_replicate] at hfits
  omega

/-! ## A stream of packets -/

theorem readPacket_shorter (h : readPacket r = .ok (p, r')) :
    r'.length < r.length := by
  obtain ⟨-, rfl⟩ := readPacket_eq_ok.1 h
  rw [length_append, Packet.length_frame]
  omega

/-- A loop around `ReadPacket`: the packets, and the error that ends it. -/
def readAll (r : Bytes) : List Packet × ReadError :=
  match h : readPacket r with
  | .error e => ([], e)
  | .ok (p, r') =>
    have := readPacket_shorter h
    (p :: (readAll r').1, (readAll r').2)
termination_by r.length

theorem readAll_error {e : ReadError} (h : readPacket r = .error e) :
    readAll r = ([], e) := by
  rw [readAll]
  split
  · rename_i e' h'
    cases h.symm.trans h'
    rfl
  · rename_i p r' h'
    cases h.symm.trans h'

theorem readAll_ok (h : readPacket r = .ok (p, r')) :
    readAll r = (p :: (readAll r').1, (readAll r').2) := by
  rw [readAll]
  split
  · rename_i e h'
    cases h.symm.trans h'
  · rename_i p' s h'
    cases h.symm.trans h'
    rfl

theorem readAll_nil : readAll [] = ([], .io .EOF) := readAll_error rfl

theorem readAll_frames {ps : List Packet} (h : ∀ p ∈ ps, p.Fits) (r : Bytes) :
    readAll (ps.flatMap Packet.frame ++ r) = (ps ++ (readAll r).1, (readAll r).2) := by
  induction ps with
  | nil => rfl
  | cons p ps ih =>
    have hread := readPacket_frame (h p mem_cons_self) (ps.flatMap Packet.frame ++ r)
    rw [flatMap_cons, append_assoc, readAll_ok hread,
      ih fun q hq => h q (mem_cons_of_mem p hq)]
    rfl

theorem readAll_fits (r : Bytes) : ∀ p ∈ (readAll r).1, p.Fits := by
  induction r using readAll.induct with
  | case1 r e h =>
    rw [readAll_error h]
    exact nofun
  | case2 r p r' h hshorter ih =>
    rw [readAll_ok h]
    exact forall_mem_cons.2 ⟨(readPacket_eq_ok.1 h).1, ih⟩

theorem readAll_length {b : Bytes} (hb : b.length = 4) (t : UInt8) (r : Bytes) :
    (readAll (b ++ t :: r)).1 = [] ∨ ∃ p ∈ (readAll (b ++ t :: r)).1, p.type = t := by
  cases h : readPacket (b ++ t :: r) with
  | error e =>
    rw [readAll_error h]
    exact .inl rfl
  | ok q =>
    obtain ⟨p, r'⟩ := q
    rw [readAll_ok h]
    refine .inr ⟨p, mem_cons_self, ?_⟩
    obtain ⟨-, heq⟩ := readPacket_eq_ok.1 h
    rw [Packet.frame, append_assoc] at heq
    have htail := (append_inj heq (by rw [hb, Packet.length_lengthBytes])).2
    exact (List.cons.inj htail).1.symm

theorem Packet.lengthBytes_eq_cons (h : p.Fits) :
    ∃ t r, p.lengthBytes = t :: r ∧ (t = 0 ∨ t = 1) := by
  have hfits : 1 + p.payload.length ≤ 2 ^ 24 := h
  have hn : (UInt32.ofNat (1 + p.payload.length)).toNat = 1 + p.payload.length :=
    UInt32.toNat_ofNat_of_lt (show _ < 2 ^ 32 by omega)
  refine ⟨_, _, rfl, ?_⟩
  rw [hn]
  have hdiv : (1 + p.payload.length) / 256 ^ 3 = 0 ∨ (1 + p.payload.length) / 256 ^ 3 = 1 := by
    omega
  rcases hdiv with hdiv | hdiv
  · exact .inl (by rw [hdiv]; rfl)
  · exact .inr (by rw [hdiv]; rfl)

end Sftp
