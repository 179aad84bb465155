import GoProtocols.Sftp.Handles

/-!
# One reply for every request

Every deed of the server but a panic writes one reply, with the id of the request
(`Deed.one_reply`), and a request with truncated fields is answered with `BadMessage` and ends the
loop (`Deed.of_truncated`). A whole connection is `Answered` accordingly, if its requests do not
panic: if no `READDIR` names the handle of a file, and the backend reads no more than it was asked
to (`one_reply_per_request`).
-/

namespace Sftp

open Go List

variable {packets : List Packet} {p : Packet}

variable {W : Type} (st : Served W)

/-- The requests of the packets have been answered one by one, in their order. A truncated one was
the last. -/
structure Answered (packets : List Packet) (st : Served W) : Prop where
  one : ∀ x ∈ st.trace, ∃ reply, x.replies = [reply] ∧ reply.requestID = x.request.requestID
  truncated : ∀ t x u, st.trace = t ++ x :: u → x.request.Truncated →
    u = [] ∧ (∃ err, st.ended = some (.returned err)) ∧
      ∃ id msg, x.request.requestID = some id ∧ x.replies = [statusPacket id statusBadMessage msg]
  order : st.trace.map Exchange.request <+: packets.tail
  all : st.ended = none → st.trace.map Exchange.request = packets.tail

/-- A read without an error is of at most as many bytes as were asked for. -/
def Backend.KeepsToBuffer (b : Backend W) : Prop :=
  ∀ h offset size w, (b.read h offset size w).1.err = none →
    0 ≤ (b.read h offset size w).1.n ∧ (b.read h offset size w).1.n ≤ size.toNat

/-! ## Single requests -/

section
variable {env : Env W} {c : Conn W} {id : UInt32} {rest : Bytes} {k : Kind} {r : Report}

theorem Deed.one_reply (h : Deed env c id rest k r) (hpanic : r.outcome ≠ .panic) :
    ∃ reply, r.replies = [reply] ∧ reply.requestID = some id := by
  cases h with
  | readTooMuch | short => exact absurd rfl hpanic
  | plain _ calls reply _ _ hid => exact ⟨reply, rfl, hid⟩
  | _ => exact ⟨_, rfl, by simp⟩

theorem Deed.of_truncated (h : Deed env c id rest k r)
    (hfields : complete rest 0 k.layout = false) :
    ∃ msg err, r.replies = [statusPacket id statusBadMessage msg] ∧ r.outcome = .return err := by
  cases h with
  | truncated _ msg err => exact ⟨msg, err, rfl, rfl⟩
  | _ => simp_all

/-! ## Connections -/

/-- The handshake takes the first packet. -/
structure Started (packets : List Packet) (st : Served W) : Prop where
  ready : st.ready = true ↔ packets ≠ []
  idle : st.ready = false → st.trace = [] ∧ st.ended = none

theorem Started.step {st : Served W} (h : Started packets st) (p : Packet) :
    Started (packets ++ [p]) (st.step env p) := by
  have hne : packets ++ [p] ≠ [] := by simp
  cases hready : st.ready with
  | false =>
    rw [step_handshake (h.idle hready).2 hready]
    exact ⟨⟨fun _ => hne, fun _ => rfl⟩, nofun⟩
  | true =>
    have hstays : (st.step env p).ready = true := by
      cases hended : st.ended with
      | some e => rwa [step_ended hended]
      | none => rwa [step_loop hended hready]
    exact ⟨⟨fun _ => hne, fun _ => hstays⟩, fun hr => by simp [hstays] at hr⟩

theorem tail_prefix_concat (packets : List Packet) (p : Packet) :
    packets.tail <+: (packets ++ [p]).tail := by
  cases packets with
  | nil => exact prefix_rfl
  | cons q packets => exact prefix_append _ _

theorem Answered.request {st : Served W} (h : Answered packets st)
    (hne : packets ≠ []) (hended : st.ended = none) (hready : st.ready = true)
    (hlen : 4 ≤ p.payload.length) (hpanic : (servePacket env st.fresh p).2 ≠ .panic) :
    Answered (packets ++ [p]) (st.step env p) := by
  obtain ⟨id, hid⟩ : ∃ id, p.requestID = some id := ⟨_, if_neg (by omega)⟩
  have hdeed : Deed env st.fresh id _ _ (Step.report (servePacket env st.fresh p)) :=
    servePacket_deed ⟨rfl, rfl⟩ hid
  have htail : (packets ++ [p]).tail = packets.tail ++ [p] := by
    rw [tail_append_of_ne_nil hne]
  have hall : (st.trace ++ [exchange env st.fresh p]).map Exchange.request =
      packets.tail ++ [p] := by
    rw [map_append, h.all hended]
    rfl
  rw [step_loop hended hready]
  refine ⟨forall_mem_append.2 ⟨h.one, forall_mem_singleton.2 ?_⟩, fun t x u heq htrunc => ?_, ?_,
    fun _ => hall.trans htail.symm⟩
  · obtain ⟨reply, hreply, hreplyID⟩ := hdeed.one_reply hpanic
    exact ⟨reply, hreply, hreplyID.trans hid.symm⟩
  · have heq : st.trace ++ [exchange env st.fresh p] = t ++ x :: u := heq
    rcases eq_nil_or_concat u with rfl | ⟨u, y, rfl⟩
    · obtain ⟨-, hx⟩ := append_inj' heq rfl
      obtain rfl := (singleton_inj.1 hx).symm
      obtain ⟨msg, err, hreply, hout⟩ := hdeed.of_truncated htrunc
      have hout : (servePacket env st.fresh p).2 = .return err := hout
      exact ⟨rfl, ⟨err, by rw [hout]; rfl⟩, id, msg, hid, hreply⟩
    · -- an earlier truncated request would have ended the connection
      rw [concat_eq_append, ← cons_append, ← append_assoc] at heq
      obtain ⟨htrace, -⟩ := append_inj' heq rfl
      obtain ⟨-, ⟨err, herr⟩, -⟩ := h.truncated t x u htrace htrunc
      simp [hended] at herr
  · rw [htail]
    exact hall ▸ prefix_rfl

theorem Answered.step {st : Served W} (h : Answered packets st)
    (hstart : Started packets st) (hlen : packets ≠ [] → 4 ≤ p.payload.length)
    (hpanic : (st.step env p).ended ≠ some .panicked) :
    Answered (packets ++ [p]) (st.step env p) := by
  cases hended : st.ended with
  | some e =>
    rw [step_ended hended]
    exact ⟨h.one, h.truncated, h.order.trans (tail_prefix_concat packets p), by simp [hended]⟩
  | none =>
    cases hready : st.ready with
    | false =>
      have htrace := (hstart.idle hready).1
      have hnil : packets = [] := by
        by_contra hne
        simp [hstart.ready.2 hne] at hready
      rw [step_handshake hended hready, hnil]
      exact ⟨by simp [htrace], by simp [htrace], by simp [htrace], by simp [htrace]⟩
    | true =>
      have hne := hstart.ready.1 hready
      rw [step_loop hended hready] at hpanic
      exact h.request hne hended hready (hlen hne) (Outcome.end_ne_panicked.1 hpanic)

end

/-- No `READDIR` names the handle of a file. -/
def ListsDirectories (p : Packet) : Prop :=
  p.kind = .readdir → ∀ h, p.handle = some h → origins st.trace h ≠ some .file

instance (p : Packet) : Decidable (ListsDirectories st p) :=
  inferInstanceAs
    (Decidable (p.kind = .readdir → ∀ h ∈ p.handle, origins st.trace h ≠ some .file))

theorem ListsDirectories.respects {env : Env W} (hread : env.backend.KeepsToBuffer)
    {st : Served W} (h : ListsDirectories st p) : Respects env st p :=
  fun _ _ =>
    { readdir := fun hkind key hkey hfile => absurd hfile (h hkind key hkey)
      read := fun _ _ offset size _ real _ => hread real offset size st.conn.world }

/-- **Every request is answered once, with its id, in order**, if no `READDIR` names the handle of a
file and the backend reads no more than it was asked to. -/
theorem one_reply_per_request (env : Env W) (world : W) {packets : List Packet}
    (hread : env.backend.KeepsToBuffer) (hlen : ∀ p ∈ packets.tail, 4 ≤ p.payload.length)
    (hdirs : (serve env world).Each (fun _ st p => ListsDirectories st p) packets) :
    Answered packets ((serve env world).after packets) := by
  have hinv : Robust ((serve env world).after packets) ∧
      Started packets ((serve env world).after packets) ∧
        Answered packets ((serve env world).after packets) := by
    refine (serve env world).invariant
      (I := fun ps st => Robust st ∧ Started ps st ∧ Answered ps st)
      (G := fun ps st p => ListsDirectories st p ∧ (ps ≠ [] → 4 ≤ p.payload.length))
      ⟨robust_init env world, ⟨by simp [serve], fun _ => ⟨rfl, rfl⟩⟩, ?_⟩ ?_ (fun _ _ _ => trivial)
      fun ps p hps => ?_
    · exact ⟨by simp [serve], fun t x u h => by simp [serve] at h, prefix_rfl, fun _ => rfl⟩
    · rintro ps p ⟨hrobust, hstart, hans⟩ - ⟨hdir, hp⟩
      have hstep := hrobust.step (served_linked env world ps) (hdir.respects hread)
      exact ⟨hstep, hstart.step p, hans.step hstart hp hstep.noPanic⟩
    · refine ⟨hdirs ps p hps, fun hne => hlen p ?_⟩
      obtain ⟨u, rfl⟩ := hps
      cases ps with
      | nil => exact absurd rfl hne
      | cons q ps => simp
  exact hinv.2.2

/-- A client that lists a directory twice and then sends half a `READ`. -/
def listsTwice : List Packet :=
  [{ type := typeInit, payload := appendUint32 [] version },
    { type := 3, payload := appendUint32 (appendString (appendUint32 [] 1) (lit "/f")) 1 },
    { type := 11, payload := appendString (appendUint32 [] 2) (lit "/") },
    { type := 12, payload := appendString (appendUint32 [] 3) (lit "h2") },
    { type := 12, payload := appendString (appendUint32 [] 4) (lit "h2") },
    { type := 5, payload := appendString (appendUint32 [] 5) (lit "h1") }]

theorem one_reply_per_request_listsTwice :
    let env : Env Unit := { backend := smallBackend, write := fun _ w => (.ok (), w) }
    env.backend.KeepsToBuffer ∧ Answered listsTwice ((serve env ()).after listsTwice) := by
  intro env
  have hread : env.backend.KeepsToBuffer := fun _ _ _ _ herr => by cases herr
  exact ⟨hread, one_reply_per_request env () hread (by decide +kernel) (by decide +kernel)⟩

def boastfulBackend : Backend Unit :=
  { smallBackend with
    read := fun _ _ size w =>
      (.zeros size.toNat (size.toNat + 1) none, w) }

/-- A client that opens a file and reads it. -/
def readsFile : List Packet :=
  [{ type := typeInit, payload := appendUint32 [] version },
    { type := 3, payload := appendUint32 (appendString (appendUint32 [] 1) (lit "/f")) 1 },
    { type := 5, payload := appendUint32 (appendUint64 (appendString (appendUint32 [] 2)
      (lit "h1")) 0) 1 }]

theorem not_answered_boastful :
    let S := serve { backend := boastfulBackend, write := fun _ w => (.ok (), w) } ()
    (∀ p ∈ readsFile.tail, 4 ≤ p.payload.length) ∧
      S.Each (fun _ st p => ListsDirectories st p) readsFile ∧
        ¬ Answered readsFile (S.after readsFile) := by
  intro S
  refine ⟨by decide +kernel, by decide +kernel, fun h => ?_⟩
  have hsome : ∃ x ∈ (S.after readsFile).trace, x.replies = [] := by
    refine ⟨((S.after readsFile).trace.get ⟨1, by decide +kernel⟩), get_mem _ _, ?_⟩
    decide +kernel
  obtain ⟨x, hx, hnone⟩ := hsome
  obtain ⟨reply, hreply, -⟩ := h.one x hx
  rw [hnone] at hreply
  cases hreply

end Sftp
