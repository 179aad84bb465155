import Mathlib.Data.Finset.Basic
import GoProtocols.Go.Bytes
import GoProtocols.Lib.Run

/-!
# The write queue of a session

`Session.enqueue` and `Session.writerLoop` of `irc/server/server.go`. Any number of goroutines call
`enqueue`, and one runs the loop. What is done under `writeMu` is one step, and so is each operation
on a channel and each write to the connection.

* `accepted es`: the lines that `enqueue` has accepted, in their order.
* `Orderly`: what was written are the first of these, the count of bytes is right and bounded, and
  nobody waits for a writer that sleeps.
-/

namespace Irc

open Go List

/-! ## The goroutines -/

/-- `outbound`: a line, or the mark of a `flush`, which has none. -/
structure QueueItem where
  line : Bytes := []
  /-- The channel that tells a `flush` that all before it was written. -/
  done : Option Nat := none
  deriving DecidableEq

def maxQueuedOutput : Int := 16 * 2 ^ 20

/-- Where `writerLoop` is. -/
inductive WriterLoop
  /-- At the `select`. -/
  | selecting
  /-- In the inner loop, before the lock. -/
  | draining
  /-- In the inner loop, with an item taken from the queue. -/
  | writing (item : QueueItem)
  | stopped
  deriving DecidableEq

def WriterLoop.items : WriterLoop → List QueueItem
  | .writing item => [item]
  | _ => []

structure Writer where
  writeQueue : List QueueItem := []
  writeBytes : Int := 0
  /-- There is a token in the channel `writeWake`, which has room for one. -/
  writeWake : Bool := false
  /-- The channel `stopWriter` is closed. -/
  stopWriter : Bool := false
  loop : WriterLoop := .selecting
  /-- The goroutines in `enqueue` that have appended and not yet tried to wake the writer. -/
  waking : Finset Nat := ∅
  /-- The goroutines in `enqueue` whose item did not fit and is not yet released. -/
  refused : List (Nat × QueueItem) := []
  /-- Those that have released it and not yet closed the connection. -/
  closing : Finset Nat := ∅
  /-- The channels `done` that are closed. -/
  flushed : List Nat := []
  connClosed : Bool := false
  /-- The lines written to the connection. -/
  written : List Bytes := []
  /-- What got out of the line whose write failed. -/
  torn : Bytes := []

inductive WriterEvent
  /-- `enqueue`, up to the end of the locked section. -/
  | enqueue (caller : Nat) (item : QueueItem)
  /-- The `select` of `enqueue`. -/
  | wake (caller : Nat)
  /-- `enqueue` of an item that did not fit closes its channel `done`, if it has one. -/
  | release (caller : Nat) (item : QueueItem)
  /-- It closes the connection. -/
  | close (caller : Nat)
  | receive
  /-- The locked section of the loop. -/
  | take
  | write
  /-- A write that fails after some bytes. -/
  | fail (n : Nat)
  /-- `handleSession` closes `stopWriter`. -/
  | stop
  | quit

namespace Writer

variable (w : Writer) (item : QueueItem)

def Fits : Prop :=
  w.writeBytes + item.line.length ≤ maxQueuedOutput

instance : Decidable (w.Fits item) :=
  inferInstanceAs (Decidable (_ ≤ _))

/-- The goroutine is in `enqueue`. -/
def Busy (caller : Nat) : Prop :=
  caller ∈ w.waking ∨ caller ∈ w.refused.map Prod.fst ∨ caller ∈ w.closing

instance (caller : Nat) : Decidable (w.Busy caller) :=
  inferInstanceAs (Decidable (_ ∨ _))

def enabled : WriterEvent → Prop
  | .enqueue caller _ => ¬ w.Busy caller
  | .wake caller => caller ∈ w.waking
  | .release caller item => (caller, item) ∈ w.refused
  | .close caller => caller ∈ w.closing
  | .receive => w.loop = .selecting ∧ w.writeWake = true
  | .take => w.loop = .draining
  | .write => ∃ item ∈ w.loop.items, item.line = [] ∨ w.connClosed = false
  | .fail n => ∃ item ∈ w.loop.items, n ≤ item.line.length ∧ item.line ≠ []
  | .stop => w.stopWriter = false
  | .quit => w.loop = .selecting ∧ w.stopWriter = true

instance : (e : WriterEvent) → Decidable (w.enabled e)
  | .enqueue caller _ => inferInstanceAs (Decidable (¬ w.Busy caller))
  | .wake caller => inferInstanceAs (Decidable (caller ∈ w.waking))
  | .release _ _ => inferInstanceAs (Decidable (_ ∈ w.refused))
  | .close caller => inferInstanceAs (Decidable (caller ∈ w.closing))
  | .receive => inferInstanceAs (Decidable (_ ∧ _))
  | .take => inferInstanceAs (Decidable (w.loop = .draining))
  | .write => inferInstanceAs (Decidable (∃ _ ∈ w.loop.items, _))
  | .fail _ => inferInstanceAs (Decidable (∃ _ ∈ w.loop.items, _))
  | .stop => inferInstanceAs (Decidable (w.stopWriter = false))
  | .quit => inferInstanceAs (Decidable (_ ∧ _))

def step : WriterEvent → Writer
  | .enqueue caller item =>
    if w.Fits item then
      { w with
        writeQueue := w.writeQueue ++ [item], writeBytes := w.writeBytes + item.line.length
        waking := insert caller w.waking }
    else { w with refused := (caller, item) :: w.refused }
  -- the token is sent, or there is one already
  | .wake caller => { w with writeWake := true, waking := w.waking.erase caller }
  | .release caller item =>
    { w with
      refused := w.refused.erase (caller, item), flushed := w.flushed ++ item.done.toList
      closing := insert caller w.closing }
  | .close caller => { w with connClosed := true, closing := w.closing.erase caller }
  | .receive => { w with writeWake := false, loop := .draining }
  | .take =>
    match w.writeQueue with
    | [] => { w with loop := .selecting }
    | item :: queue =>
      { w with
        writeQueue := queue, writeBytes := w.writeBytes - item.line.length
        loop := .writing item }
  | .write =>
    match w.loop with
    | .writing item =>
      { w with
        written := if item.line ≠ [] then w.written ++ [item.line] else w.written
        flushed := w.flushed ++ item.done.toList, loop := .draining }
    | _ => w
  | .fail n =>
    match w.loop with
    | .writing item => { w with torn := item.line.take n, connClosed := true, loop := .stopped }
    | _ => w
  | .stop => { w with stopWriter := true }
  | .quit => { w with loop := .stopped }

end Writer

/-- **The writer of a session**, with those who call `enqueue`. -/
def writer : System Writer WriterEvent where
  init := {}
  enabled := Writer.enabled
  step := Writer.step

instance (w : Writer) (e : WriterEvent) : Decidable (writer.enabled w e) :=
  inferInstanceAs (Decidable (w.enabled e))

/-! ## Specification -/

/-- The lines of some items; a mark has none. -/
def linesOf (items : List QueueItem) : List Bytes :=
  (items.map QueueItem.line).filter (· ≠ [])

@[simp] theorem linesOf_nil : linesOf [] = [] := rfl

@[simp] theorem linesOf_append (a b : List QueueItem) :
    linesOf (a ++ b) = linesOf a ++ linesOf b := by
  simp [linesOf]

def Writer.accepts (w : Writer) : WriterEvent → List QueueItem
  | .enqueue _ item => if w.Fits item then [item] else []
  | _ => []

variable (es : List WriterEvent)

/-- The lines that `enqueue` has accepted, in their order. -/
def accepted : List Bytes := linesOf (writer.collect Writer.accepts es)

def WriterLoop.Drains : WriterLoop → Prop
  | .draining | .writing _ => True
  | .selecting | .stopped => False

def queuedBytes (items : List QueueItem) :
    Int := (items.map fun item => (item.line.length : Int)).sum

structure Orderly (es : List WriterEvent) (w : Writer) : Prop where
  written : w.written <+: accepted es
  /-- Not even a part of a line is out of its place. -/
  torn : w.written.flatten ++ w.torn <+: (accepted es).flatten
  /-- Nothing is lost before the loop ends: what was accepted was written, is being written, or is in
  the queue. -/
  complete : w.loop ≠ .stopped →
    accepted es = w.written ++ linesOf (w.loop.items ++ w.writeQueue) ∧ w.torn = []
  bytes : w.writeBytes = queuedBytes w.writeQueue
  bounded : w.writeBytes ≤ maxQueuedOutput
  /-- No wake-up is lost. -/
  awake : w.writeQueue ≠ [] → w.waking = ∅ →
    w.writeWake = true ∨ w.loop.Drains ∨ w.loop = .stopped

/-! ## Steps -/

@[simp] theorem queuedBytes_append (a b : List QueueItem) :
    queuedBytes (a ++ b) = queuedBytes a + queuedBytes b := by
  simp [queuedBytes]

variable (item : QueueItem)

@[simp] theorem queuedBytes_singleton : queuedBytes [item] = item.line.length := by
  simp [queuedBytes]

theorem queuedBytes_cons (items : List QueueItem) :
    queuedBytes (item :: items) = item.line.length + queuedBytes items := by
  simp [queuedBytes]

theorem linesOf_cons (items : List QueueItem) :
    linesOf (item :: items) =
      (if item.line ≠ [] then [item.line] else []) ++ linesOf items := by
  simp only [linesOf, map_cons, filter_cons]
  split <;> simp_all

theorem accepted_concat (e : WriterEvent) :
    accepted (es ++ [e]) = accepted es ++ linesOf ((writer.after es).accepts e) := by
  rw [accepted, System.collect_concat, linesOf_append]
  rfl

section
variable {es es' : List WriterEvent} {w : Writer} {item : QueueItem}

theorem Orderly.accept (h : Orderly es w) {caller : Nat} (hfits : w.Fits item)
    (hacc : accepted es' = accepted es ++ linesOf [item]) :
    Orderly es' { w with
      writeQueue := w.writeQueue ++ [item], writeBytes := w.writeBytes + item.line.length
      waking := insert caller w.waking } where
  written := by
    rw [hacc]
    exact h.written.trans (prefix_append _ _)
  torn := by
    rw [hacc, flatten_append]
    exact h.torn.trans (prefix_append _ _)
  complete hloop := by
    obtain ⟨hcomplete, htorn⟩ := h.complete hloop
    refine ⟨?_, htorn⟩
    rw [hacc, hcomplete, append_assoc, ← linesOf_append, append_assoc]
  bytes := by rw [queuedBytes_append, queuedBytes_singleton, h.bytes]
  bounded := hfits
  awake _ hwaking := absurd hwaking (Finset.insert_ne_empty _ _)

theorem Orderly.idle (h : Orderly es w) (hacc : accepted es' = accepted es) {w' : Writer}
    (hwritten : w'.written = w.written) (htorn : w'.torn = w.torn)
    (hqueue : w'.writeQueue = w.writeQueue) (hbytes : w'.writeBytes = w.writeBytes)
    (hloop : w'.loop ≠ .stopped → w.loop ≠ .stopped ∧ w'.loop.items = w.loop.items)
    (hawake : w'.writeQueue ≠ [] → w'.waking = ∅ →
      w'.writeWake = true ∨ w'.loop.Drains ∨ w'.loop = .stopped) : Orderly es' w' where
  written := by rw [hacc, hwritten]; exact h.written
  torn := by rw [hacc, hwritten, htorn]; exact h.torn
  complete hrun := by
    obtain ⟨hrun', hitems⟩ := hloop hrun
    rw [hacc, hwritten, hitems, hqueue, htorn]
    exact h.complete hrun'
  bytes := by rw [hbytes, hqueue]; exact h.bytes
  bounded := by rw [hbytes]; exact h.bounded
  awake := hawake

theorem Orderly.take (h : Orderly es w) (hacc : accepted es' = accepted es)
    (hloop : w.loop = .draining) {queue : List QueueItem} (hqueue : w.writeQueue = item :: queue) :
    Orderly es' { w with
      writeQueue := queue, writeBytes := w.writeBytes - item.line.length
      loop := .writing item } where
  written := by rw [hacc]; exact h.written
  torn := by rw [hacc]; exact h.torn
  complete _ := by
    have hcomplete := h.complete (by rw [hloop]; exact nofun)
    rw [hloop, hqueue] at hcomplete
    rw [hacc]
    exact hcomplete
  bytes := by
    have hbytes := h.bytes
    rw [hqueue, queuedBytes_cons] at hbytes
    show w.writeBytes - item.line.length = queuedBytes queue
    omega
  bounded := by
    have hbounded := h.bounded
    show w.writeBytes - item.line.length ≤ maxQueuedOutput
    omega
  awake _ _ := .inr (.inl trivial)

theorem Orderly.write (h : Orderly es w) (hacc : accepted es' = accepted es)
    (hloop : w.loop = .writing item) :
    Orderly es' { w with
      written := if item.line ≠ [] then w.written ++ [item.line] else w.written
      flushed := w.flushed ++ item.done.toList, loop := .draining } := by
  obtain ⟨hcomplete, htorn⟩ := h.complete (by rw [hloop]; exact nofun)
  have hlines : linesOf (w.loop.items ++ w.writeQueue) =
      (if item.line ≠ [] then [item.line] else []) ++ linesOf w.writeQueue := by
    rw [hloop]
    exact linesOf_cons item w.writeQueue
  have hwritten : (if item.line ≠ [] then w.written ++ [item.line] else w.written) =
      w.written ++ if item.line ≠ [] then [item.line] else [] := by
    split <;> simp
  rw [hlines, ← append_assoc, ← hwritten] at hcomplete
  refine ⟨?_, ?_, fun _ => ⟨?_, htorn⟩, h.bytes, h.bounded, fun _ _ => .inr (.inl trivial)⟩
  · rw [hacc, hcomplete]
    exact prefix_append _ _
  · show _ ++ w.torn <+: _
    rw [hacc, hcomplete, htorn, append_nil, flatten_append]
    exact prefix_append _ _
  · rw [hacc, hcomplete]
    rfl

theorem Orderly.fail (h : Orderly es w) (hacc : accepted es' = accepted es)
    (hloop : w.loop = .writing item) (hline : item.line ≠ []) (n : Nat) :
    Orderly es' { w with torn := item.line.take n, connClosed := true, loop := .stopped } := by
  obtain ⟨hcomplete, -⟩ := h.complete (by rw [hloop]; exact nofun)
  have hlines : linesOf (w.loop.items ++ w.writeQueue) = item.line :: linesOf w.writeQueue := by
    rw [hloop]
    exact (linesOf_cons item w.writeQueue).trans (by rw [if_pos hline]; rfl)
  rw [hlines] at hcomplete
  refine ⟨?_, ?_, fun hrun => absurd rfl hrun, h.bytes, h.bounded, fun _ _ => .inr (.inr rfl)⟩
  · rw [hacc]
    exact h.written
  · rw [hacc, hcomplete, flatten_append, flatten_cons]
    refine (prefix_append_right_inj _).2 (( List.take_prefix n item.line).trans ?_)
    exact prefix_append _ _

end

theorem Orderly.step {es : List WriterEvent} (h : Orderly es (writer.after es)) {e : WriterEvent}
    (he : (writer.after es).enabled e) : Orderly (es ++ [e]) ((writer.after es).step e) := by
  have hacc := accepted_concat es e
  generalize writer.after es = w at h he hacc
  cases e with
  | enqueue caller item =>
    by_cases hfits : w.Fits item
    · rw [Writer.accepts, if_pos hfits] at hacc
      rw [Writer.step, if_pos hfits]
      exact h.accept hfits hacc
    · rw [Writer.accepts, if_neg hfits, linesOf_nil, append_nil] at hacc
      rw [Writer.step, if_neg hfits]
      exact h.idle hacc rfl rfl rfl rfl (fun hrun => ⟨hrun, rfl⟩) h.awake
  | wake caller =>
    exact h.idle (hacc.trans (append_nil _)) rfl rfl rfl rfl (fun hrun => ⟨hrun, rfl⟩)
      fun _ _ => .inl rfl
  | receive =>
    refine h.idle (hacc.trans (append_nil _)) rfl rfl rfl rfl (fun _ => ?_)
      fun _ _ => .inr (.inl trivial)
    rw [he.1]
    exact ⟨nofun, rfl⟩
  | take =>
    have hacc : accepted (es ++ [.take]) = accepted es := hacc.trans (append_nil _)
    have hloop : w.loop = .draining := he
    cases hqueue : w.writeQueue with
    | nil =>
      -- the loop goes to sleep only if the queue is empty
      simp only [Writer.step, hqueue]
      refine h.idle hacc rfl rfl hqueue.symm rfl (fun _ => ?_) fun hne => absurd rfl hne
      rw [hloop]
      exact ⟨nofun, rfl⟩
    | cons item queue =>
      simp only [Writer.step, hqueue]
      exact h.take hacc hloop hqueue
  | write =>
    have hacc : accepted (es ++ [.write]) = accepted es := hacc.trans (append_nil _)
    cases hloop : w.loop with
    | writing item =>
      simp only [Writer.step, hloop]
      exact h.write hacc hloop
    | selecting | draining | stopped => simp [Writer.enabled, WriterLoop.items, hloop] at he
  | fail n =>
    have hacc : accepted (es ++ [.fail n]) = accepted es := hacc.trans (append_nil _)
    cases hloop : w.loop with
    | writing item =>
      simp only [Writer.step, hloop]
      obtain ⟨item', hitem, -, hline⟩ := he
      rw [hloop] at hitem
      obtain rfl := mem_singleton.1 hitem
      exact h.fail hacc hloop hline n
    | selecting | draining | stopped => simp [Writer.enabled, WriterLoop.items, hloop] at he
  | release _ _ | close _ | stop =>
    exact h.idle (hacc.trans (append_nil _)) rfl rfl rfl rfl (fun hrun => ⟨hrun, rfl⟩) h.awake
  | quit =>
    exact h.idle (hacc.trans (append_nil _)) rfl rfl rfl rfl (fun hrun => absurd rfl hrun)
      fun _ _ => .inr (.inr rfl)

theorem orderly_init : Orderly [] {} where
  written := nil_prefix
  torn := nil_prefix
  complete _ := ⟨rfl, rfl⟩
  bytes := rfl
  bounded := by decide
  awake hne := absurd rfl hne

/-- **The queue keeps order in every interleaving.** -/
theorem writer_orderly {es : List WriterEvent} (hv : writer.Valid es) :
    Orderly es (writer.after es) :=
  writer.invariant (G := fun _ _ _ => True) orderly_init (fun _ _ h he _ => h.step he) hv
    fun _ _ _ => trivial

/-- Two callers, a flush, and a write that fails. -/
def writerRun : List WriterEvent :=
  [.enqueue 0 { line := lit "a" }, .enqueue 1 { line := lit "b" }, .wake 1, .receive, .take,
    .enqueue 2 { done := some 0 }, .write, .wake 0, .take, .fail 1]

theorem writer_orderly_writerRun :
    writer.Valid writerRun ∧ (writer.after writerRun).written = [lit "a"] ∧
      Orderly writerRun (writer.after writerRun) := by
  have hv : writer.Valid writerRun := by decide +kernel
  exact ⟨hv, by decide +kernel, writer_orderly hv⟩

end Irc
