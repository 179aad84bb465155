import GoProtocols.Sftp.Client

/-!
# The pending calls of the SFTP client

When the read loop fails it closes the channels of all pending calls and drops the table of these. A
call that registers later writes to a `nil` map and panics.

* `Sound`: where the channel of each call is: in the table, in the hands of the read loop, or filled
  or closed. It is kept by every event, unless a call registers after the failure or an id is used
  again while its call goes on (`Sound.step`).
-/

namespace Sftp

open Go List

namespace Client

variable {m : Map UInt32 Nat} {id : UInt32} {p : Packet} (st : State) (l : Loop) (i : Nat)

/-! ## Specification -/

def Phase.isRegistered : Phase → Bool
  | .idle | .started => false
  | _ => true

def Phase.inProgress : Phase → Bool
  | .registered | .writing | .waiting => true
  | _ => false

def Result.Fine (id : UInt32) : Result → Prop
  | .packet p => p.requestID = some id
  | .error err => err ≠ none

/-- What the read loop has to do with a call: send it a packet, or close its channel. -/
def Loop.at : Option (Option Packet) :=
  match l with
  | .sending j p => if j = i then some (some p) else none
  | .closing j => if j = i then some none else none
  | .reading | .stopped => none

/-- The call has its answer, or the read loop knows its channel. -/
def State.Held : Prop :=
  st.entry (st.calls i).id = some i ∨ (st.loop.at i).isSome = true ∨
    (st.calls i).reply.buf.isSome = true ∨ (st.calls i).reply.closed = true

structure Survives (st : State) : Prop where
  noPanic : st.panicked = false
  results : ∀ i r, (st.calls i).phase = .returned r → r.Fine (st.calls i).id
  held : ∀ i, (st.calls i).phase.inProgress = true → st.Held i
  /-- After the failure no call waits for ever. -/
  unblocked : st.loop = .stopped → ∀ i, (st.calls i).phase = .waiting → st.Enabled (.receive i)

def State.Sole : Prop :=
  ∀ j, j ≠ i → st.entry (st.calls i).id = some j → (st.calls j).phase.inProgress = false

/-- The table is there when a call registers, and no other call loses its place in it. -/
def Respects : Event → Prop
  | .register i => st.pending ≠ none ∧ st.Sole i
  | .abort i => st.Sole i
  | _ => True

/-! ## The invariant -/

structure CallOk (st : State) (i : Nat) : Prop where
  buffered : ∀ p, (st.calls i).reply.buf = some p → p.requestID = some (st.calls i).id
  results : ∀ r, (st.calls i).phase = .returned r → r.Fine (st.calls i).id
  unregistered : (st.calls i).phase.isRegistered = false → (st.calls i).reply = {}
  entered : st.entry (st.calls i).id = some i →
    (st.calls i).phase.isRegistered = true ∧ (st.calls i).reply = {} ∧ st.loop.at i = none
  sending : ∀ p, st.loop.at i = some (some p) →
    (st.calls i).phase.isRegistered = true ∧ (st.calls i).reply = {} ∧
      p.requestID = some (st.calls i).id
  closing : st.loop.at i = some none →
    (st.calls i).phase.isRegistered = true ∧ (st.calls i).reply.closed = false ∧
      ((st.calls i).phase.inProgress = true → (st.calls i).reply.buf.isSome = true)
  held : (st.calls i).phase.inProgress = true →
    st.entry (st.calls i).id = some i ∨ (st.loop.at i).isSome = true ∨
      (st.calls i).reply.buf.isSome = true ∨
        (st.calls i).reply.closed = true ∧ st.readErr.isSome = true

structure Sound (st : State) : Prop where
  noPanic : st.panicked = false
  keys : ∀ k i, st.entry k = some i → (st.calls i).id = k
  call : ∀ i, CallOk st i
  stopped : st.loop = .stopped ↔ st.pending = none

variable {st st' : State} {i j : Nat}

theorem CallOk.congr (h : CallOk st i) (hc : st'.calls i = st.calls i)
    (he : st'.entry (st.calls i).id = some i → st.entry (st.calls i).id = some i)
    (he' : (st.calls i).phase.inProgress = true → st.entry (st.calls i).id = some i →
      st'.entry (st.calls i).id = some i)
    (hl : st'.loop.at i = st.loop.at i)
    (hr : st.readErr.isSome = true → st'.readErr.isSome = true) : CallOk st' i := by
  constructor <;> rw [hc]
  · exact h.buffered
  · exact h.results
  · exact h.unregistered
  · rw [hl]
    exact fun hi => h.entered (he hi)
  · rw [hl]
    exact h.sending
  · rw [hl]
    exact h.closing
  · rw [hl]
    exact fun hp => (h.held hp).imp (he' hp) (.imp_right (.imp_right (.imp_right hr)))

theorem Sound.survives (h : Sound st) : Survives st where
  noPanic := h.noPanic
  results i := (h.call i).results
  held i hi := ((h.call i).held hi).imp_right (.imp_right (.imp_right And.left))
  unblocked hstop i hi := by
    refine ⟨hi, ?_⟩
    have hpending := h.stopped.1 hstop
    rcases (h.call i).held (by rw [hi]; rfl) with he | hl | hb | hc
    · simp [State.entry, hpending] at he
    · simp [hstop, Loop.at] at hl
    · exact .inl hb
    · exact .inr hc.1

theorem Sound.notEntered (h : Sound st) (hi : (st.calls i).phase.isRegistered = false)
    (k : UInt32) :
    st.entry k ≠ some i := by
  intro hk
  have hid := h.keys k i hk
  rw [← hid] at hk
  simp [((h.call i).entered hk).1] at hi

theorem Sound.notAt (h : Sound st) (hi : (st.calls i).phase.isRegistered = false) :
    st.loop.at i = none := by
  cases hl : st.loop.at i with
  | none => rfl
  | some o =>
    cases o with
    | none => simp [((h.call i).closing hl).1] at hi
    | some p => simp [((h.call i).sending p hl).1] at hi

/-! ## The table -/

theorem entry_insert (hm : st.pending = some m) (id k : UInt32) :
    State.entry { st with pending := some (m.insert id i) } k =
      if k = id then some i else st.entry k := by
  simp only [State.entry, hm, Option.bind_some]
  exact Map.lookup_insert_eq m id k i

theorem entry_forget (st : State) (id k : UInt32) :
    (st.forget id).entry k = if k = id then none else st.entry k := by
  cases hm : st.pending with
  | none => simp [State.entry, State.forget, hm]
  | some m =>
    simp only [State.entry, State.forget, hm, Option.map_some, Option.bind_some]
    exact Map.lookup_erase_eq m id k

/-! ## Changing one call -/

@[simp] theorem calls_set (st : State) (i : Nat) (c : Call) : (st.set i c).calls i = c := by
  simp [State.set]

theorem calls_set_ne (st : State) (h : j ≠ i) (c : Call) : (st.set i c).calls j = st.calls j := by
  simp [State.set, h]

/-- A change of one call that leaves its id alone, and of what the read loop has to do with it. -/
theorem Sound.setLoop (h : Sound st) {c : Call} {l : Loop} (hid : c.id = (st.calls i).id)
    (hl : ∀ a, a ≠ i → l.at a = st.loop.at a) (hstop : l = .stopped ↔ st.loop = .stopped)
    (hcall : CallOk { st.set i c with loop := l } i) : Sound { st.set i c with loop := l } where
  noPanic := h.noPanic
  keys k a ha := by
    by_cases hai : a = i
    · subst hai
      exact (congrArg Call.id (calls_set st a c)).trans (hid.trans (h.keys k a ha))
    · exact (congrArg Call.id (calls_set_ne st hai c)).trans (h.keys k a ha)
  call a := by
    by_cases hai : a = i
    · exact hai ▸ hcall
    · exact (h.call a).congr (calls_set_ne st hai c) (fun he => he) (fun _ he => he) (hl a hai)
        fun he => he
  stopped := hstop.trans h.stopped

theorem Sound.set (h : Sound st) {c : Call} (hid : c.id = (st.calls i).id)
    (hcall : CallOk (st.set i c) i) : Sound (st.set i c) :=
  h.setLoop hid (fun _ _ => rfl) Iff.rfl hcall

theorem Sound.setPhase (h : Sound st) {phase : Phase} (hreg : phase.isRegistered = true)
    (hprog : phase.inProgress = true → (st.calls i).phase.inProgress = true)
    (hres : ∀ r, phase = .returned r → r.Fine (st.calls i).id) : Sound (st.setPhase i phase) := by
  refine h.set rfl ?_
  have hcall := h.call i
  constructor <;> simp only [calls_set]
  · exact hcall.buffered
  · exact hres
  · simp [hreg]
  · exact fun he => ⟨hreg, (hcall.entered he).2⟩
  · exact fun p hp => ⟨hreg, (hcall.sending p hp).2⟩
  · exact fun hl => ⟨hreg, (hcall.closing hl).2.1, fun hp => (hcall.closing hl).2.2 (hprog hp)⟩
  · exact fun hp => hcall.held (hprog hp)

/-! ## Steps of a call -/

theorem Sound.begin (h : Sound st) (hi : (st.calls i).phase = .idle) (type : UInt8)
    (payload : Bytes) : Sound (st.step (.begin i type payload)) := by
  have hreg : (st.calls i).phase.isRegistered = false := by rw [hi]; rfl
  refine { noPanic := h.noPanic, keys := fun k a ha => ?_, call := fun a => ?_, stopped := h.stopped }
  · have hai : a ≠ i := fun hai => h.notEntered hreg k (hai ▸ ha)
    exact (congrArg Call.id (calls_set_ne _ hai _)).trans (h.keys k a ha)
  · by_cases hai : a = i
    · subst hai
      have hat := h.notAt hreg
      constructor <;> simp only [State.step, calls_set]
      · exact nofun
      · exact nofun
      · exact fun _ => trivial
      · exact fun he => absurd he (h.notEntered hreg _)
      · exact fun p hp => by cases hat.symm.trans hp
      · exact fun hp => by cases hat.symm.trans hp
      · exact nofun
    · exact (h.call a).congr (calls_set_ne _ hai _) id (fun _ => id) rfl id

theorem Sound.register (h : Sound st) (hi : (st.calls i).phase = .started)
    (hp : Respects st (.register i)) : Sound (st.step (.register i)) := by
  have hreg : (st.calls i).phase.isRegistered = false := by rw [hi]; rfl
  obtain ⟨m, hm⟩ := Option.ne_none_iff_exists'.1 hp.1
  have hstep : st.step (.register i) =
      { st with pending := some (m.insert (st.calls i).id i) }.setPhase i .registered := by
    simp only [State.step, hm]
  have hentry (k : UInt32) : (st.step (.register i)).entry k =
      if k = (st.calls i).id then some i else st.entry k := by
    rw [hstep]
    exact entry_insert hm _ k
  have hself : (st.step (.register i)).calls i = { st.calls i with phase := .registered } := by
    rw [hstep]
    exact calls_set _ i _
  have hother (a : Nat) (ha : a ≠ i) : (st.step (.register i)).calls a = st.calls a := by
    rw [hstep]
    exact calls_set_ne _ ha _
  have hloop : (st.step (.register i)).loop = st.loop := by
    rw [hstep]
    rfl
  refine { noPanic := ?_, keys := fun k a ha => ?_, call := fun a => ?_, stopped := ?_ }
  · rw [hstep]
    exact h.noPanic
  · rw [hentry] at ha
    split at ha
    · rename_i hk
      cases ha
      rw [hself, hk]
    · rw [hother a fun hai => h.notEntered hreg k (hai ▸ ha)]
      exact h.keys k a ha
  · by_cases hai : a = i
    · subst hai
      have hreply := (h.call a).unregistered hreg
      have hat := h.notAt hreg
      constructor <;> rw [hself]
      · exact fun p hp => by simp [hreply] at hp
      · exact nofun
      · exact nofun
      · exact fun _ => ⟨rfl, hreply, by rw [hloop, hat]⟩
      · exact fun p hp => by simp [hloop, hat] at hp
      · exact fun hp => by simp [hloop, hat] at hp
      · exact fun _ => .inl (by rw [hentry]; exact if_pos rfl)
    · -- a call that loses its place does not go on
      have hkeep : st.entry (st.calls a).id = some a →
          (st.calls a).phase.inProgress = true → (st.calls a).id ≠ (st.calls i).id := by
        intro he hprog hid
        rw [hid] at he
        simp [hp.2 a hai he] at hprog
      refine (h.call a).congr (hother a hai) (fun he => ?_) (fun hprog he => ?_) (by rw [hloop]) ?_
      · rw [hentry] at he
        split at he
        · exact absurd (Option.some.inj he).symm hai
        · exact he
      · rw [hentry, if_neg (hkeep he hprog)]
        exact he
      · rw [hstep]
        exact id
  · rw [hstep]
    simp [State.setPhase, State.set, h.stopped, hm]

theorem Sound.wrote (h : Sound st) (hi : (st.calls i).phase.inProgress = true) (data : Bytes)
    (err : Option Bytes) {next : Phase}
    (hnext : next.isRegistered = true ∧ ∀ r, next ≠ .returned r) :
    Sound (st.wrote i data err next) := by
  cases err with
  | none =>
    have hsent : Sound { st with sent := st.sent ++ data } :=
      { noPanic := h.noPanic, keys := h.keys, stopped := h.stopped
        call := fun a => (h.call a).congr rfl id (fun _ => id) rfl id }
    exact hsent.setPhase hnext.1 (fun _ => hi) fun r hr => absurd hr (hnext.2 r)
  | some e => exact h.setPhase rfl nofun nofun

theorem Sound.forget (h : Sound st)
    (hid : ∀ a, st.entry id = some a → (st.calls a).phase.inProgress = false) :
    Sound (st.forget id) := by
  refine { noPanic := h.noPanic, keys := fun k a ha => ?_, call := fun a => ?_, stopped := ?_ }
  · rw [entry_forget] at ha
    split at ha
    · cases ha
    · exact h.keys k a ha
  · refine (h.call a).congr rfl (fun he => ?_) (fun hprog he => ?_) rfl fun he => he
    · rw [entry_forget] at he
      split at he
      · cases he
      · exact he
    · rw [entry_forget, if_neg ?_]
      · exact he
      · intro hk
        rw [hk] at he
        simp [hid a he] at hprog
  · simp [State.forget, h.stopped]

theorem Sound.abort (h : Sound st) {e : Bytes} (hi : (st.calls i).phase = .failing e)
    (hp : Respects st (.abort i)) : Sound (st.step (.abort i)) := by
  have hstep : st.step (.abort i) =
      (st.forget (st.calls i).id).setPhase i (.returned (.error (some e))) := by
    simp only [State.step, hi]
  have hforget : Sound (st.forget (st.calls i).id) := h.forget fun a ha => by
    by_cases hai : a = i
    · rw [hai, hi]
      rfl
    · exact hp a hai ha
  rw [hstep]
  exact hforget.setPhase rfl nofun fun r hr => by
    cases hr
    exact nofun

theorem Sound.receive (h : Sound st) (hi : st.Enabled (.receive i)) :
    Sound (st.step (.receive i)) := by
  obtain ⟨hwait, hready⟩ := hi
  have hcall := h.call i
  have hreply : (st.calls i).reply ≠ {} := fun hr => by simp [hr] at hready
  cases hbuf : (st.calls i).reply.buf with
  | some p =>
    have hstep : st.step (.receive i) =
        st.set i { st.calls i with phase := .returned (.packet p), reply.buf := none } := by
      simp only [State.step, hbuf]
    rw [hstep]
    refine h.set rfl ?_
    constructor <;> simp only [calls_set]
    · exact nofun
    · intro r hr
      cases hr
      exact hcall.buffered p hbuf
    · exact nofun
    · exact fun he => absurd (hcall.entered he).2.1 hreply
    · exact fun q hq => absurd (hcall.sending q hq).2.1 hreply
    · exact fun hl => ⟨rfl, (hcall.closing hl).2.1, nofun⟩
    · exact nofun
  | none =>
    have hstep : st.step (.receive i) = st.setPhase i (.returned (.error st.readErr)) := by
      simp only [State.step, hbuf]
    have hclosed : (st.calls i).reply.closed = true := by simpa [hbuf] using hready
    have hprog : (st.calls i).phase.inProgress = true := by rw [hwait]; rfl
    rw [hstep]
    refine h.setPhase rfl nofun fun r hr => ?_
    cases hr
    -- the channel was closed by the failure: the read loop sends before it closes otherwise
    rcases hcall.held hprog with he | hl | hb | ⟨-, herr⟩
    · exact absurd (hcall.entered he).2.1 hreply
    · cases hat : st.loop.at i with
      | none => simp [hat] at hl
      | some o =>
        cases o with
        | none => simp [(hcall.closing hat).2.1] at hclosed
        | some p => exact absurd (hcall.sending p hat).2.1 hreply
    · simp [hbuf] at hb
    · exact Option.isSome_iff_ne_none.1 herr

/-! ## Steps of the read loop -/

theorem Sound.take (h : Sound st) (hloop : st.loop = .reading)
    (hp : p.requestID = some id) : Sound (st.take id p) := by
  unfold State.take
  split
  · exact h
  · rename_i i hi
    have hid := h.keys id i hi
    have hat (a : Nat) : st.loop.at a = none := by rw [hloop]; rfl
    have hentry (k : UInt32) : State.entry { st.forget id with loop := .sending i p } k =
        if k = id then none else st.entry k := entry_forget st id k
    refine { noPanic := h.noPanic, keys := fun k a ha => ?_, call := fun a => ?_, stopped := ?_ }
    · rw [hentry] at ha
      split at ha
      · cases ha
      · exact h.keys k a ha
    · by_cases hai : a = i
      · subst hai
        obtain ⟨hreg, hreply, -⟩ := (h.call a).entered (hid ▸ hi)
        have hsend : Loop.at (.sending a p) a = some (some p) := if_pos rfl
        constructor
        · exact (h.call a).buffered
        · exact (h.call a).results
        · exact (h.call a).unregistered
        · exact fun he => by
            rw [hentry] at he
            cases (if_pos hid).symm.trans he
        · intro q hq
          cases Option.some.inj (hsend.symm.trans hq)
          exact ⟨hreg, hreply, hp.trans (congrArg some hid.symm)⟩
        · exact fun hl => by cases hsend.symm.trans hl
        · exact fun _ => .inr (.inl (congrArg Option.isSome hsend))
      · refine (h.call a).congr rfl (fun he => ?_) (fun _ he => ?_) ?_ fun he => he
        · rw [hentry] at he
          split at he
          · cases he
          · exact he
        · rw [hentry, if_neg ?_]
          · exact he
          · intro hk
            rw [hk, hi] at he
            exact hai (Option.some.inj he).symm
        · rw [hat]
          exact if_neg (Ne.symm hai)
    · simp [State.forget, ← h.stopped, hloop]

theorem requestID_of_slice (hlen : ¬ p.payload.length < 4)
    (h : (slice p.payload 0 4).bind beUint32 = some id) : p.requestID = some id := by
  have hid : (slice p.payload 0 4).bind beUint32 =
      some (UInt32.ofNat (BigEndian.decode ((p.payload.drop 0).take 4))) :=
    slice_bind_beUint32 (show 0 + 4 ≤ p.payload.length by omega)
  rw [Packet.requestID, if_neg hlen, ← h, hid, drop_zero]

theorem Sound.packet (h : Sound st) (hloop : st.loop = .reading) (p : Packet) :
    Sound (st.step (.packet p)) := by
  simp only [State.step]
  split
  · exact h
  · rename_i hlen
    split
    · rename_i hnone
      have hid : (slice p.payload 0 4).bind beUint32 = some _ :=
        slice_bind_beUint32 (show 0 + 4 ≤ p.payload.length by omega)
      cases hnone.symm.trans hid
    · rename_i id hid
      exact h.take hloop (requestID_of_slice hlen hid)

theorem Sound.deliver (h : Sound st) (hloop : st.loop = .sending i p) :
    Sound (st.step .deliver) := by
  have hat : st.loop.at i = some (some p) := by
    rw [hloop]
    exact if_pos rfl
  obtain ⟨hreg, hreply, hid⟩ := (h.call i).sending p hat
  have hstep : st.step .deliver =
      { st.set i { st.calls i with reply := { buf := some p } } with loop := .closing i } := by
    simp only [State.step, hloop, hreply]
    rfl
  rw [hstep]
  have hclosing (a : Nat) : Loop.at (.closing i) a = if i = a then some none else none := rfl
  have hsending (a : Nat) : st.loop.at a = if i = a then some (some p) else none := by
    rw [hloop]
    rfl
  refine h.setLoop rfl (fun a hai => ?_) (by simp [hloop]) ?_
  · rw [hclosing, hsending, if_neg (Ne.symm hai), if_neg (Ne.symm hai)]
  · constructor <;> simp only [calls_set]
    · intro q hq
      cases hq
      exact hid
    · exact (h.call i).results
    · simp [hreg]
    · intro he
      cases ((h.call i).entered he).2.2.symm.trans hat
    · exact fun q hq => by simp [hclosing] at hq
    · exact fun _ => ⟨hreg, trivial, fun _ => rfl⟩
    · exact fun _ => .inr (.inr (.inl rfl))

theorem Sound.release (h : Sound st) (hloop : st.loop = .closing i) : Sound (st.step .release) := by
  have hat : st.loop.at i = some none := by
    rw [hloop]
    exact if_pos rfl
  obtain ⟨hreg, hopen, hbuf⟩ := (h.call i).closing hat
  have hstep : st.step .release =
      { st.set i { st.calls i with reply.closed := true } with loop := .reading } := by
    simp only [State.step, hloop, State.closeChan, hopen]
    rfl
  rw [hstep]
  refine h.setLoop rfl (fun a hai => ?_) (by simp [hloop]) ?_
  · rw [hloop]
    exact (if_neg (Ne.symm hai)).symm
  · constructor <;> simp only [calls_set]
    · exact (h.call i).buffered
    · exact (h.call i).results
    · simp [hreg]
    · intro he
      cases ((h.call i).entered he).2.2.symm.trans hat
    · exact nofun
    · exact nofun
    · exact fun hp => .inr (.inr (.inl (hbuf hp)))

/-! ## The failure -/

theorem foldl_closeChan {l : List Nat} (hnodup : l.Nodup)
    (hopen : ∀ i ∈ l, (st.calls i).reply.closed = false) :
    l.foldl State.closeChan st =
      { st with
        calls := fun i =>
          if i ∈ l then { st.calls i with reply.closed := true } else st.calls i } := by
  induction l generalizing st with
  | nil => simp
  | cons i l ih =>
    obtain ⟨hi, hnodup⟩ := nodup_cons.1 hnodup
    have hstep : st.closeChan i = st.set i { st.calls i with reply.closed := true } := by
      rw [State.closeChan, hopen i (by simp), if_neg (by decide)]
    have hne (a : Nat) (ha : a ∈ l) : a ≠ i := fun hai => hi (hai ▸ ha)
    rw [foldl_cons, hstep, ih hnodup fun a ha => by
      rw [calls_set_ne st (hne a ha)]
      exact hopen a (mem_cons_of_mem _ ha)]
    simp only [State.set]
    congr 1
    funext a
    by_cases hai : a = i
    · simp [hai, hi]
    · simp [hai]

theorem Sound.mem_chans (h : Sound st) (hm : st.pending = some m) :
    i ∈ m.entries.map (fun e => e.2) ↔ st.entry (st.calls i).id = some i := by
  have hentry (k : UInt32) : st.entry k = some i ↔ ⟨k, i⟩ ∈ m.entries := by
    rw [State.entry, hm, Option.bind_some]
    exact Map.lookup_eq_some_iff
  rw [mem_map]
  constructor
  · rintro ⟨⟨k, a⟩, he, rfl⟩
    have hk := (hentry k).2 he
    rwa [h.keys k a hk]
  · exact fun he => ⟨_, (hentry _).1 he, rfl⟩

theorem Sound.nodup_chans (h : Sound st) (hm : st.pending = some m) :
    (m.entries.map fun e => e.2).Nodup := by
  refine List.Nodup.map_on ?_ m.nodupKeys.nodup
  rintro ⟨k, a⟩ ha ⟨k', b⟩ hb hab
  obtain rfl : a = b := hab
  have hentry {k : UInt32} (hk : ⟨k, a⟩ ∈ m.entries) : st.entry k = some a := by
    rw [State.entry, hm, Option.bind_some]
    exact Map.lookup_eq_some_iff.2 hk
  rw [← h.keys k a (hentry ha), ← h.keys k' a (hentry hb)]

theorem Sound.fail (h : Sound st) (hloop : st.loop = .reading) (err : Bytes) :
    Sound (st.step (.fail err)) := by
  obtain ⟨m, hm⟩ := Option.ne_none_iff_exists'.1 fun hnone => by
    cases hloop.symm.trans (h.stopped.2 hnone)
  have hopen : ∀ i ∈ m.entries.map (fun e => e.2), (st.calls i).reply.closed = false := by
    intro i hi
    rw [((h.call i).entered ((h.mem_chans hm).1 hi)).2.1]
  have hstep : st.step (.fail err) =
      { st with
        calls := fun i =>
          if i ∈ m.entries.map (fun e => e.2) then { st.calls i with reply.closed := true }
          else st.calls i
        readErr := some err, pending := none, loop := .stopped } := by
    simp only [State.step, hm, Option.elim_some, foldl_closeChan (h.nodup_chans hm) hopen]
  have hentry (k : UInt32) : (st.step (.fail err)).entry k = none := by
    rw [hstep]
    rfl
  have hat (a : Nat) : (st.step (.fail err)).loop.at a = none := by
    rw [hstep]
    rfl
  have herr : (st.step (.fail err)).readErr.isSome = true := by
    rw [hstep]
    rfl
  refine { noPanic := ?_, keys := fun k a ha => ?_, call := fun a => ?_, stopped := ?_ }
  · rw [hstep]
    exact h.noPanic
  · cases (hentry k).symm.trans ha
  · by_cases ha : a ∈ m.entries.map fun e => e.2
    · obtain ⟨hreg, hreply, -⟩ := (h.call a).entered ((h.mem_chans hm).1 ha)
      have hcall : (st.step (.fail err)).calls a =
          { st.calls a with reply.closed := true } := by
        rw [hstep]
        exact if_pos ha
      constructor <;> rw [hcall]
      · exact (h.call a).buffered
      · exact (h.call a).results
      · simp [hreg]
      · exact fun he => by cases (hentry _).symm.trans he
      · exact fun p hp => by cases (hat a).symm.trans hp
      · exact fun hp => by cases (hat a).symm.trans hp
      · exact fun _ => .inr (.inr (.inr ⟨rfl, herr⟩))
    · have hcall : (st.step (.fail err)).calls a = st.calls a := by
        rw [hstep]
        exact if_neg ha
      refine (h.call a).congr hcall (fun he => ?_) (fun _ he => ?_) ?_ fun _ => herr
      · cases (hentry _).symm.trans he
      · exact absurd ((h.mem_chans hm).2 he) ha
      · rw [hat, hloop]
        rfl
  · rw [hstep]
    simp

/-! ## Runs -/

/-- **Every event keeps it**, if the table is there for a call that registers and no call loses its
place in it. -/
theorem Sound.step (h : Sound st) {e : Event} (he : st.Enabled e) (hp : Respects st e) :
    Sound (st.step e) := by
  cases e with
  | begin i type payload => exact h.begin he type payload
  | register i => exact h.register he hp
  | writeLength i err =>
    refine h.wrote ?_ _ err ⟨rfl, nofun⟩
    rw [show (st.calls i).phase = .registered from he]
    rfl
  | writeBody i err =>
    refine h.wrote ?_ _ err ⟨rfl, nofun⟩
    rw [show (st.calls i).phase = .writing from he]
    rfl
  | abort i =>
    obtain ⟨err, hi⟩ := he
    exact h.abort hi hp
  | receive i => exact h.receive he
  | cancel i err | pipeClosed i =>
    refine h.setPhase rfl nofun fun r hr => ?_
    cases hr
    exact nofun
  | packet p => exact h.packet he p
  | deliver =>
    obtain ⟨i, p, hloop, -⟩ := he
    exact h.deliver hloop
  | release =>
    obtain ⟨i, hloop⟩ := he
    exact h.release hloop
  | fail err => exact h.fail he err
  | close =>
    exact
      { noPanic := h.noPanic, keys := h.keys, stopped := h.stopped
        call := fun a => (h.call a).congr rfl (fun he => he) (fun _ he => he) rfl fun he => he }

theorem sound_init : Sound client.init where
  noPanic := rfl
  keys := nofun
  call _ :=
    { buffered := nofun, results := nofun, unregistered := fun _ => rfl, entered := nofun
      sending := nofun, closing := nofun, held := nofun }
  stopped := by simp [client]

theorem Sound.sole (h : Sound st) (hs : Survives st') (hl : st'.loop = st.loop)
    (hcalls : ∀ j, j ≠ i → st'.calls j = st.calls j)
    (he : ∀ j, j ≠ i → st'.entry (st.calls i).id ≠ some j) : st.Sole i := by
  intro j hj hentry
  by_contra hprog
  have hid := h.keys _ j hentry
  have hheld := hs.held j (by rw [hcalls j hj]; simpa using hprog)
  obtain ⟨-, hreply, hat⟩ := (h.call j).entered (hid.symm ▸ hentry)
  rw [State.Held, hcalls j hj, hl, hat, hreply, hid] at hheld
  simp [he j hj] at hheld

theorem Sound.respects (h : Sound st) {e : Event} (he : st.Enabled e)
    (hs : Survives (st.step e)) : Respects st e := by
  cases e with
  | register i =>
    have hi : (st.calls i).phase = .started := he
    cases hm : st.pending with
    | none =>
      have hpanic := hs.noPanic
      simp [State.step, hm] at hpanic
    | some m =>
      simp only [State.step, hm] at hs
      refine ⟨by simp [hm], h.sole hs rfl (fun j hj => calls_set_ne _ hj _) fun j hj hself => ?_⟩
      have hinsert := entry_insert (i := i) hm (st.calls i).id (st.calls i).id
      rw [if_pos rfl] at hinsert
      exact hj (Option.some.inj (hinsert.symm.trans hself)).symm
  | abort i =>
    obtain ⟨err, hi⟩ := he
    simp only [State.step, hi] at hs
    refine h.sole hs rfl (fun j hj => calls_set_ne _ hj _) fun j hj hself => ?_
    have hforget := entry_forget st (st.calls i).id (st.calls i).id
    rw [if_pos rfl] at hforget
    cases hforget.symm.trans hself
  | _ => trivial

/-- **The client survives exactly the runs in which no call registers after the failure, and no id
is used again while its call goes on.** -/
theorem survives_iff {es : List Event} (hv : client.Valid es) :
    client.Throughout (fun _ st => Survives st) es ↔ client.Each (fun _ st e => Respects st e) es := by
  exact client.throughout_iff (I := fun _ st => Sound st) sound_init (fun _ _ h => h.survives)
    (fun _ _ h he hp => h.step he.2 hp) (fun _ _ h he hs => h.respects he.2 hs) hv

/-- A call is answered, and the connection is lost before the next call ends. -/
def lostConnection : List Event :=
  [.begin 0 3 [], .register 0, .begin 1 17 [], .writeLength 0 none, .writeBody 0 none,
    .packet { type := typeHandle, payload := appendUint32 [] 1 }, .register 1, .deliver, .receive 0,
    .release, .writeLength 1 none, .fail (lit "EOF"), .writeBody 1 none, .receive 1]

theorem survives_iff_lostConnection :
    client.Valid lostConnection ∧
      (client.Throughout (fun _ st => Survives st) lostConnection ↔
        client.Each (fun _ st e => Respects st e) lostConnection) :=
  ⟨by decide +kernel, survives_iff (by decide +kernel)⟩

def lateCall : List Event := [.fail (lit "EOF"), .begin 0 3 [], .register 0]

theorem not_survives_lateCall :
    client.Valid lateCall ∧ ¬ client.Throughout (fun _ st => Survives st) lateCall := by
  refine ⟨by decide +kernel, fun h => ?_⟩
  have hpanic := (h lateCall prefix_rfl).noPanic
  revert hpanic
  decide +kernel

end Client

end Sftp
