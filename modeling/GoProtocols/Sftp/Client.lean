import GoProtocols.Go.Map
import GoProtocols.Lib.Run
import GoProtocols.Sftp.Packet

/-!
# The SFTP client

`Client.do` and `Client.readLoop` of `sftp/client/client.go` as a system of goroutines. An event is
what one of them does without the others: a step of a call to `do`, a step of the read loop, or a
`Close`. The sections under `pendMu` are single events, as the mutex has it. Calls are numbered; each
has a channel of its own, with room for one packet.

A `nil` map is `none`. Writing to it, closing a channel twice and sending on a closed one panic, which
ends the process.
-/

namespace Sftp.Client

open Go

/-! ## Calls -/

/-- A channel made with `make(chan sftp.Packet, 1)`. -/
structure Chan where
  buf : Option Packet := none
  closed : Bool := false
  deriving DecidableEq

/-- What a call returns: a packet and no error, or no packet and an error, which may be `nil`. -/
inductive Result
  | packet (p : Packet)
  | error (err : Option Bytes)
  deriving DecidableEq

/-- How far a call has come. -/
inductive Phase
  | idle
  /-- It has its id and its channel. -/
  | started
  | registered
  /-- The length of its packet is written. -/
  | writing
  /-- A write has failed. -/
  | failing (err : Bytes)
  | waiting
  | returned (r : Result)
  deriving DecidableEq

structure Call where
  id : UInt32 := 0
  phase : Phase := .idle
  reply : Chan := {}
  type : UInt8 := 0
  payload : Bytes := []

/-- The packet that a call writes. -/
def Call.request (c : Call) : Packet :=
  { type := c.type, payload := appendUint32 [] c.id ++ c.payload }

/-! ## States -/

/-- The read loop: before a packet is read, with a packet for a call in hand, before it closes the
channel of a call, and after it has returned. -/
inductive Loop
  | reading
  | sending (i : Nat) (p : Packet)
  | closing (i : Nat)
  | stopped
  deriving DecidableEq

structure State where
  /-- The last id that was issued. -/
  counter : UInt32 := 0
  pending : Option (Map UInt32 Nat) := some ∅
  readErr : Option Bytes := none
  /-- The channel `readDone` is closed. -/
  readDone : Bool := false
  loop : Loop := .reading
  calls : Nat → Call := fun _ => {}
  /-- What has been written to the server. -/
  sent : Bytes := []
  panicked : Bool := false

variable (st : State) (i : Nat) (c : Call) (id : UInt32) (p : Packet)

inductive Event
  | begin (i : Nat) (type : UInt8) (payload : Bytes)
  | register (i : Nat)
  | writeLength (i : Nat) (err : Option Bytes)
  | writeBody (i : Nat) (err : Option Bytes)
  | abort (i : Nat)
  | receive (i : Nat)
  | cancel (i : Nat) (err : Bytes)
  | pipeClosed (i : Nat)
  | packet (p : Packet)
  | deliver
  | release
  | fail (err : Bytes)
  | close

/-- The event can happen: its goroutine is there, and does not block. -/
def State.Enabled : Event → Prop
  | .begin i _ _ => (st.calls i).phase = .idle
  | .register i => (st.calls i).phase = .started
  | .writeLength i _ => (st.calls i).phase = .registered
  | .writeBody i _ => (st.calls i).phase = .writing
  | .abort i => ∃ err, (st.calls i).phase = .failing err
  | .receive i =>
    (st.calls i).phase = .waiting ∧
      ((st.calls i).reply.buf.isSome = true ∨ (st.calls i).reply.closed = true)
  | .cancel i _ => (st.calls i).phase = .waiting
  | .pipeClosed i => (st.calls i).phase = .waiting ∧ st.readDone = true
  | .packet _ | .fail _ => st.loop = .reading
  | .deliver => ∃ i p, st.loop = .sending i p ∧ (st.calls i).reply.buf = none
  | .release => ∃ i, st.loop = .closing i
  | .close => True

def Phase.isFailing : Phase → Bool
  | .failing _ => true
  | _ => false

theorem Phase.isFailing_iff {p : Phase} : p.isFailing = true ↔ ∃ err, p = .failing err := by
  cases p <;> simp [Phase.isFailing]

instance : (e : Event) → Decidable (st.Enabled e)
  | .begin i _ _ => inferInstanceAs (Decidable ((st.calls i).phase = .idle))
  | .register i => inferInstanceAs (Decidable ((st.calls i).phase = .started))
  | .writeLength i _ => inferInstanceAs (Decidable ((st.calls i).phase = .registered))
  | .writeBody i _ => inferInstanceAs (Decidable ((st.calls i).phase = .writing))
  | .abort _ => decidable_of_iff _ Phase.isFailing_iff
  | .receive i =>
    inferInstanceAs (Decidable ((st.calls i).phase = .waiting ∧
      ((st.calls i).reply.buf.isSome = true ∨ (st.calls i).reply.closed = true)))
  | .cancel i _ => inferInstanceAs (Decidable ((st.calls i).phase = .waiting))
  | .pipeClosed i =>
    inferInstanceAs (Decidable ((st.calls i).phase = .waiting ∧ st.readDone = true))
  | .packet _ | .fail _ => inferInstanceAs (Decidable (st.loop = .reading))
  | .deliver =>
    match h : st.loop with
    | .sending i p =>
      decidable_of_iff ((st.calls i).reply.buf = none) (by simp [State.Enabled, h])
    | .reading | .closing _ | .stopped => .isFalse (by simp [State.Enabled, h])
  | .release =>
    match h : st.loop with
    | .closing i => .isTrue ⟨i, h⟩
    | .reading | .sending _ _ | .stopped => .isFalse (by simp [State.Enabled, h])
  | .close => .isTrue trivial

/-! ## Steps -/

def State.set : State :=
  { st with calls := Function.update st.calls i c }

def State.setPhase (phase : Phase) : State :=
  st.set i { st.calls i with phase }

/-- `NewRequestIDSource`: the id after `c`. -/
def nextID (c : UInt32) : UInt32 := if c + 1 = 0 then 1 else c + 1

/-- `close(ch)` for the channel of a call. -/
def State.closeChan : State :=
  if (st.calls i).reply.closed then { st with panicked := true }
  else st.set i { st.calls i with reply.closed := true }

/-- The rest of a write: the bytes are sent and the call goes on, or it fails. -/
def State.wrote (data : Bytes) (err : Option Bytes) (next : Phase) : State :=
  match err with
  | none => { st with sent := st.sent ++ data }.setPhase i next
  | some e => st.setPhase i (.failing e)

/-- `delete(c.pending, id)`. -/
def State.forget : State :=
  { st with pending := st.pending.map fun m => m.erase id }

/-- `c.pending[id]`. -/
def State.entry : Option Nat := st.pending.bind fun m => m.lookup id

/-- The read loop takes the call with the id out of the table. -/
def State.take : State :=
  match st.entry id with
  | none => st
  | some i => { st.forget id with loop := .sending i p }

def State.step : Event → State
  | .begin i type payload =>
    { st with counter := nextID st.counter }.set i
      { id := nextID st.counter, phase := .started, type, payload }
  | .register i =>
    match st.pending with
    | none => { st with panicked := true }
    | some m =>
      { st with pending := some (m.insert (st.calls i).id i) }.setPhase i .registered
  | .writeLength i err =>
    let length := (UInt32.ofNat (1 + (st.calls i).request.payload.length)).toNat
    st.wrote i (BigEndian.encode 4 length) err .writing
  | .writeBody i err =>
    let p := (st.calls i).request
    st.wrote i (p.type :: p.payload) err .waiting
  | .abort i =>
    match (st.calls i).phase with
    | .failing e => (st.forget (st.calls i).id).setPhase i (.returned (.error (some e)))
    | _ => st
  | .receive i =>
    match (st.calls i).reply.buf with
    | some p => st.set i { st.calls i with phase := .returned (.packet p), reply.buf := none }
    | none => st.setPhase i (.returned (.error st.readErr))
  | .cancel i err => st.setPhase i (.returned (.error (some err)))
  | .pipeClosed i =>
    st.setPhase i (.returned (.error (some (lit "io: read/write on closed pipe"))))
  | .packet p =>
    if p.payload.length < 4 then st
    else
      match (slice p.payload 0 4).bind beUint32 with
      | none => { st with panicked := true }
      | some id => st.take id p
  | .deliver =>
    match st.loop with
    | .sending i p =>
      if (st.calls i).reply.closed then { st with panicked := true }
      else { st.set i { st.calls i with reply.buf := some p } with loop := .closing i }
    | _ => st
  | .release =>
    match st.loop with
    | .closing i => { st.closeChan i with loop := .reading }
    | _ => st
  | .fail err =>
    -- the order in which the channels are closed makes no difference
    let chans := (st.pending.elim [] fun m => m.entries).map fun e => e.2
    { chans.foldl State.closeChan st with readErr := some err, pending := none, loop := .stopped }
  | .close => { st with readDone := true }

/-- A client after `New`. A process that has panicked does nothing more. -/
def client : System State Event where
  init := {}
  enabled st e := st.panicked = false ∧ st.Enabled e
  step := State.step

instance (es : List Event) : Decidable (client.Valid es) :=
  inferInstanceAs (Decidable (client.Each (fun _ st e => st.panicked = false ∧ st.Enabled e) es))

end Sftp.Client
