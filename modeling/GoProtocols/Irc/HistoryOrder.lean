import GoProtocols.Irc.Proof.Reach
import GoProtocols.Irc.Proof.Record
import GoProtocols.Irc.Selection
import GoProtocols.Irc.Server.Interleaved
import Mathlib

/-!
# The order of a channel's history

A handler of `PRIVMSG` or `NOTICE` reads the clock when it begins and appends its message to the
history of the channel under a lock that it takes later. With a clock that never goes back, the
histories are in the order of the times if the handlers append to each channel in the order in which
they have read the clock, and with one that always advances there is no other way
(`ascending_inReadOrder`). Nothing holds the handlers to that order (`not_ascending_overtaken`).

* `readOrder env users es`: who has read the clock when, and for which of the readings each history
  was appended to last. `Dated` ties the times of the messages to it.
-/

namespace Irc

open Go System List

def ChannelHeap.Ascending (h : ChannelHeap) : Prop :=
  ∀ (o : Address) (ch : Channel), h.objects[o]? = some ch → Irc.Ascending ch.history

/-- What is appended to a history is not earlier than the last entry. -/
def ChannelHeap.Timely (h : ChannelHeap) : ChannelOp → Prop
  | .appendHistory o entry =>
    ∀ last ∈ (h.object o).history.getLast?, last.time.nanos ≤ entry.time.nanos
  | _ => True

theorem ascending_trimHistory_iff {history : List ChatHistoryEntry} {entry : ChatHistoryEntry}
    (hasc : Ascending history) :
    Ascending (trimHistory (history ++ [entry])) ↔
      ∀ last ∈ history.getLast?, last.time.nanos ≤ entry.time.nanos := by
  rcases eq_nil_or_concat history with rfl | ⟨init, last, rfl⟩
  · simp [trimHistory, chatHistoryLimit, Ascending]
  · -- the last entry is kept, whatever is dropped before it
    obtain ⟨kept, hkept, htrim⟩ :=
      trimHistory_append init [last, entry] (by simp [chatHistoryLimit])
    rw [concat_eq_append] at hasc
    have hinit := pairwise_append.1 hasc
    rw [concat_eq_append, append_assoc, singleton_append, htrim,
      List.getLast?_concat]
    constructor
    · intro h last' hlast'
      cases hlast'
      exact (pairwise_cons.1 (pairwise_append.1 h).2.1).1 entry (by simp)
    · intro h
      have hle := h last rfl
      refine pairwise_append.2 ⟨hinit.1.sublist hkept.sublist, pairwise_pair.2 hle, ?_⟩
      intro old hold new hnew
      have hold := hinit.2.2 old (hkept.subset hold) last (by simp)
      rcases mem_pair.1 hnew with rfl | rfl
      · exact hold
      · exact hold.trans hle

namespace ChannelHeap

variable {h : ChannelHeap}

theorem Ascending.appendHistory_iff (hasc : h.Ascending) (o : Address)
    (entry : ChatHistoryEntry) :
    (h.update o (·.appendHistory entry)).Ascending ↔
      ∀ last ∈ (h.object o).history.getLast?, last.time.nanos ≤ entry.time.nanos := by
  unfold object
  rw [getD_eq_getElem?_getD]
  cases ho : h.objects[o]? with
  | none =>
    refine ⟨fun _ => by simp, fun _ o' ch hch => ?_⟩
    rw [getElem?_update, ho] at hch
    split at hch
    · cases hch
    · exact hasc o' ch hch
  | some old =>
    rw [Option.getD_some, ← ascending_trimHistory_iff (hasc o old ho)]
    constructor
    · intro h'
      exact h' o _ (by rw [getElem?_update, if_pos rfl, ho, Option.map_some])
    · intro hnew o' ch hch
      rw [getElem?_update, ho] at hch
      split at hch
      · cases hch
        exact hnew
      · exact hasc o' ch hch

variable [UnicodeTables]

/-- What an operation does to the history of a channel that is there after it. -/
inductive HistoryStep (h : ChannelHeap) (op : ChannelOp) (o : Address) (ch : Channel) : Prop
  | empty (hnil : ch.history = [])
  | kept (old : Channel) (hold : h.objects[o]? = some old) (heq : ch.history = old.history)
      (hop : ∀ entry, op ≠ .appendHistory o entry)
  | appended (entry : ChatHistoryEntry) (old : Channel) (hop : op = .appendHistory o entry)
      (heq : ch.history = trimHistory (old.history ++ [entry]))

theorem history_run {env : Env} {op : ChannelOp} {o : Address} {ch : Channel}
    (hch : (op.run env h).2.objects[o]? = some ch) : HistoryStep h op o ch := by
  have hupdate (hop : ∀ entry, op ≠ .appendHistory o entry) {o' : Address} {f : Channel → Channel}
      (hf : ∀ ch, (f ch).history = ch.history) (hnew : (h.update o' f).objects[o]? = some ch) :
      HistoryStep h op o ch := by
    rw [getElem?_update] at hnew
    split at hnew
    · rename_i heq
      obtain ⟨old, hold, rfl⟩ := Option.map_eq_some_iff.1 hnew
      exact .kept old (heq ▸ hold) (hf old) hop
    · exact .kept ch hnew rfl hop
  cases op with
  | getOrCreate name =>
    simp only [ChannelOp.run] at hch
    split at hch
    · exact .kept ch hch rfl fun _ he => nomatch he
    · rw [getElem?_create] at hch
      split at hch
      · cases hch
        exact .empty rfl
      · exact .kept ch hch rfl fun _ he => nomatch he
  | addMember o' s nick status =>
    exact hupdate (f := (·.addMember s nick status)) (fun _ he => nomatch he) (fun _ => rfl) hch
  | removeMember o' nick =>
    exact hupdate (f := (·.removeMember nick)) (fun _ he => nomatch he) (fun _ => rfl) hch
  | applyMode o' change =>
    refine hupdate (fun _ he => nomatch he) (fun ch => ?_) hch
    obtain ⟨modes, members, heq, -⟩ := applyChannelMode_eq ch change
    rw [heq]
  | appendHistory o' entry =>
    simp only [ChannelOp.run, getElem?_update] at hch
    split at hch
    · rename_i heq
      obtain ⟨old, hold, rfl⟩ := Option.map_eq_some_iff.1 hch
      exact .appended entry old (by rw [heq]) rfl
    · rename_i hne
      exact .kept ch hch rfl fun entry' he => hne (ChannelOp.appendHistory.inj he).1.symm
  | get name | remove name | all | read o' | now | randText
  | finish s => exact .kept ch hch rfl fun _ he => nomatch he

theorem Ascending.run_iff (hasc : h.Ascending) (env : Env) (op : ChannelOp) :
    (op.run env h).2.Ascending ↔ h.Timely op := by
  have hother (hop : ∀ o entry, op ≠ .appendHistory o entry) : (op.run env h).2.Ascending := by
    intro o ch hch
    rcases history_run hch with hnil | ⟨old, hold, heq, -⟩ | ⟨entry, -, he⟩
    · rw [hnil]
      exact List.Pairwise.nil
    · rw [heq]
      exact hasc o old hold
    · exact absurd he (hop o entry)
  cases op with
  | appendHistory o entry => exact hasc.appendHistory_iff o entry
  | _ => exact iff_of_true (hother fun _ _ he => nomatch he) trivial

end ChannelHeap

/-! ## Clock and schedule -/

structure ReadOrder where
  /-- The number of the reading that the handler of a session has last taken of the clock. -/
  read : SessionId → Nat := fun _ => 0
  /-- The reading for the message that was last appended to a channel. -/
  appended : Address → Nat := fun _ => 0

/-- One more operation of a session, after `n` readings. -/
def ReadOrder.note (c : ReadOrder) (n : Nat) (s : SessionId) : ChannelOp → ReadOrder
  | .now => { c with read := Function.update c.read s n }
  | .appendHistory o _ => { c with appended := Function.update c.appended o (c.read s) }
  | _ => c

theorem ReadOrder.note_read_of_ne {c : ReadOrder} {n : Nat} {s t : SessionId} {op : ChannelOp}
    (h : t ≠ s ∨ op ≠ .now) : (c.note n s op).read t = c.read t := by
  cases op with
  | now => exact Function.update_of_ne (h.resolve_right fun hne => hne rfl) _ _
  | _ => rfl

theorem ReadOrder.note_appended_of_ne {c : ReadOrder} {n : Nat} {s : SessionId} {o : Address}
    {op : ChannelOp} (h : ∀ entry, op ≠ .appendHistory o entry) :
    (c.note n s op).appended o = c.appended o := by
  cases op with
  | appendHistory o' entry =>
    exact Function.update_of_ne (fun he => h entry (by rw [he])) _ _
  | _ => rfl

/-- A message is appended to a history only if its handler has read the clock after the one of the
message before it. -/
def ReadOrder.Follows (c : ReadOrder) (h : ChannelHeap) (s : SessionId) : ChannelOp → Prop
  | .appendHistory o _ => (h.object o).history ≠ [] → c.appended o ≤ c.read s
  | _ => True

instance (c : ReadOrder) (h : ChannelHeap) (s : SessionId) :
    (op : ChannelOp) → Decidable (c.Follows h s op)
  | .appendHistory o _ =>
    inferInstanceAs (Decidable ((h.object o).history ≠ [] → c.appended o ≤ c.read s))
  | .getOrCreate _ | .get _ | .remove _ | .all | .read _ | .addMember _ _ _ _
  | .removeMember _ _ | .applyMode _ _ | .now | .randText | .finish _ => .isTrue trivial

/-- The operation appends nothing. -/
def ChannelOp.Silent : ChannelOp → Prop
  | .appendHistory _ _ => False
  | _ => True

/-- The operation appends a message of time `t` if it appends one, and does not read the clock. -/
def ChannelOp.Stamped (t : Time) : ChannelOp → Prop
  | .appendHistory _ entry => entry.time = t.utc
  | .now => False
  | _ => True

section
variable [UnicodeTables] (env : Env) (users : SessionId → Session)
  {es : List (Pool.Event SessionId ChannelCommand)}

/-- The order of the readings in a run. -/
def readOrder (es : List (Pool.Event SessionId ChannelCommand)) : ReadOrder :=
  ((channelHandlers env users).system.collect (fun w e => (w.next e).toList.map fun op =>
    (w.shared.reads, e.worker, op)) es).foldl (fun c q => c.note q.1 q.2.1 q.2.2) {}

/-- Where a handler stands: it appends nothing, or it is about to read the clock, or it has read
it. -/
inductive Handler.Dates (t : Time) (r : Handler Unit) : Prop
  | silent (h : r.All ChannelOp.Silent)
  | unread {k : Time → Handler Unit} (hr : r = .call .now k) (h : ∀ t, (k t).All (ChannelOp.Stamped t))
  | read (h : r.All (ChannelOp.Stamped t))

structure Dated (c : ReadOrder) (w : Pool.State SessionId ChannelHeap ChannelOp ChannelOp.Result) :
    Prop where
  handler : ∀ s, Handler.Dates (env.world.now (c.read s)) (w.routine s)
  last : ∀ (o : Address) (ch : Channel), w.shared.objects[o]? = some ch →
    ∀ e ∈ ch.history.getLast?, e.time = (env.world.now (c.appended o)).utc

variable {env users}

namespace Interleaved

variable (s : SessionId) (u : Session) (msg : Message)

theorem silent_handleJoin : (handleJoin s u msg).All ChannelOp.Silent := by
  unfold handleJoin
  refine Routine.all_ite.2 ⟨fun _ => trivial, fun _ => .forM fun c => ?_⟩
  simp [joinChannel, lock, ChannelOp.Silent]

theorem silent_partChannel (c : Bytes) : (partChannel u c).All ChannelOp.Silent := by
  refine Routine.all_perform_bind.2 ⟨trivial, fun r => ?_⟩
  cases r with
  | none => trivial
  | some o => simp [lock, ChannelOp.Silent]

theorem silent_handlePart : (handlePart u msg).All ChannelOp.Silent := by
  unfold handlePart
  exact Routine.all_ite.2 ⟨fun _ => trivial, fun _ => .forM (silent_partChannel u)⟩

theorem silent_handleKick : (handleKick u msg).All ChannelOp.Silent := by
  unfold handleKick
  refine Routine.all_ite.2 ⟨fun _ => trivial, fun _ =>
    Routine.all_perform_bind.2 ⟨trivial, fun r => ?_⟩⟩
  cases r with
  | none => trivial
  | some o =>
    refine Routine.all_perform_bind.2 ⟨trivial, fun ch => ?_⟩
    cases ch.getMembership u.nick with
    | none => trivial
    | some m => simp [lock, ChannelOp.Silent]

theorem silent_handleMode : (handleMode u msg).All ChannelOp.Silent := by
  unfold handleMode
  refine Routine.all_ite.2 ⟨fun _ => trivial, fun _ => Routine.all_ite.2 ⟨fun _ => trivial, fun _ =>
    Routine.all_perform_bind.2 ⟨trivial, fun r => ?_⟩⟩⟩
  cases r with
  | none => trivial
  | some o =>
    refine Routine.all_ite.2 ⟨fun _ => by simp [lock, ChannelOp.Silent], fun _ =>
      Routine.all_perform_bind.2 ⟨trivial, fun ch => ?_⟩⟩
    cases ch.getMembership u.nick with
    | none => trivial
    | some m =>
      refine Routine.all_ite.2 ⟨fun _ => trivial, fun _ => .bind (.foldlM (fun _ _ => ?_) _) fun _ => ?_⟩
      · simp [lock, ChannelOp.Silent]
      · simp [lock, ChannelOp.Silent]

theorem silent_removeSession : (removeSession s u).All ChannelOp.Silent := by
  have hleave (o : Address) : (leaveChannel u o).All ChannelOp.Silent := by
    simp [leaveChannel, lock, ChannelOp.Silent]
  unfold removeSession
  refine Routine.all_ite.2 ⟨fun _ => Routine.all_perform_bind.2 ⟨trivial, fun _ => ?_⟩, fun _ => ?_⟩
  · exact .bind (.forM hleave) fun _ => by simp [lock, ChannelOp.Silent]
  · simp [lock, ChannelOp.Silent]

theorem dates_handlePrivmsg (t : Time) (notice : Bool) :
    Handler.Dates t (handlePrivmsg u msg notice) := by
  unfold handlePrivmsg
  split
  · exact .silent trivial
  · refine .unread rfl fun t => ?_
    refine Routine.all_perform_bind.2 ⟨trivial, fun _ => Routine.all_ite.2 ⟨fun _ => trivial, fun _ =>
      Routine.all_perform_bind.2 ⟨trivial, fun r => ?_⟩⟩⟩
    cases r with
    | none => trivial
    | some o => simp [lock, ChannelOp.Stamped]

end Interleaved

theorem dates_handler (t : Time) (s : SessionId) (u : Session) (c : ChannelCommand) :
    Handler.Dates t (c.handler s u) := by
  unfold ChannelCommand.handler
  split
  · exact .silent (Interleaved.silent_removeSession s u)
  · exact .silent (Interleaved.silent_handleJoin s u _)
  · exact .silent (Interleaved.silent_handlePart u _)
  · exact .silent (Interleaved.silent_handleKick u _)
  · exact .silent (Interleaved.silent_handleMode u _)
  · exact Interleaved.dates_handlePrivmsg u _ t _
  · exact .silent trivial

/-! ## Runs -/

theorem readOrder_concat (e : Pool.Event SessionId ChannelCommand) :
    readOrder env users (es ++ [e]) =
      (((channelHandlers env users).system.after es).next e).elim (readOrder env users es)
        ((readOrder env users es).note ((channelHandlers env users).system.after es).shared.reads
          e.worker) := by
  unfold readOrder
  rw [collect_concat, foldl_append]
  cases ((channelHandlers env users).system.after es).next e <;> rfl

omit [UnicodeTables] in
/-- A handler that appends a message has read the clock for it. -/
theorem Handler.Dates.stamped {t : Time} {o : Address} {entry : ChatHistoryEntry} {r : Handler Unit}
    (h : Handler.Dates t r) (hnext : r.next = some (.appendHistory o entry)) :
    entry.time = t.utc := by
  cases h with
  | silent h => exact (h.of_next hnext).elim
  | unread hr _ =>
    rw [hr] at hnext
    cases hnext
  | read h => exact h.of_next hnext

/-- A step of a handler, with what it notes. -/
theorem Handler.Dates.resume {c : ReadOrder} {h : ChannelHeap} {s : SessionId} {r : Handler Unit}
    (hr : Handler.Dates (env.world.now (c.read s)) r) {op : ChannelOp} (hop : r.next = some op) :
    Handler.Dates (env.world.now ((c.note h.reads s op).read s))
      (r.resume fun op => (op.run env h).1) := by
  cases hr with
  | silent hr => exact .silent (hr.resume _)
  | unread hcall hk =>
    subst hcall
    cases hop
    have hread : (c.note h.reads s .now).read s = h.reads := Function.update_self ..
    rw [hread]
    exact .read (hk _)
  | read hr =>
    have hne : op ≠ .now := by
      rintro rfl
      exact hr.of_next hop
    rw [ReadOrder.note_read_of_ne (.inr hne)]
    exact .read (hr.resume _)

variable {c : ReadOrder} {w : Pool.State SessionId ChannelHeap ChannelOp ChannelOp.Result}

section
variable (h : Dated env c w) (e : Pool.Event SessionId ChannelCommand)
include h

theorem Dated.handler_step (t : SessionId) :
    Handler.Dates
      (env.world.now (((w.next e).elim c (c.note w.shared.reads e.worker)).read t))
      (((channelHandlers env users).system.step w e).routine t) := by
  by_cases hts : t = e.worker
  · subst hts
    cases e with
    | start s cmd =>
      have hroutine : ((channelHandlers env users).system.step w (.start s cmd)).routine s =
          cmd.handler s (users s) := Function.update_self ..
      exact hroutine ▸ dates_handler _ s (users s) cmd
    | advance s =>
      have hroutine : ((channelHandlers env users).system.step w (.advance s)).routine s =
          (w.routine s).resume fun op => (op.run env w.shared).1 := Function.update_self ..
      show Handler.Dates (env.world.now
        (((w.routine s).next.elim c (c.note w.shared.reads s)).read s))
        (((channelHandlers env users).system.step w (.advance s)).routine s)
      rw [hroutine]
      cases hop : (w.routine s).next with
      | none =>
        rw [Routine.resume_of_next_eq_none hop]
        exact h.handler s
      | some op => exact (h.handler s).resume hop
  · rw [Pool.routine_step_ne _ _ hts]
    cases w.next e with
    | none => exact h.handler t
    | some op =>
      rw [Option.elim_some, ReadOrder.note_read_of_ne (.inl hts)]
      exact h.handler t

theorem Dated.last_step {o : Address} {ch : Channel}
    (hch : ((channelHandlers env users).system.step w e).shared.objects[o]? = some ch)
    {last : ChatHistoryEntry} (hlast : last ∈ ch.history.getLast?) :
    last.time = (env.world.now
      (((w.next e).elim c (c.note w.shared.reads e.worker)).appended o)).utc := by
  rw [Pool.shared_step] at hch
  cases hop : w.next e with
  | none =>
    rw [hop] at hch
    exact h.last o ch hch last hlast
  | some op =>
    rw [hop] at hch
    rcases ChannelHeap.history_run hch with hnil | ⟨old, hold, heq, hne⟩ | ⟨entry, old, rfl, heq⟩
    · rw [hnil] at hlast
      cases hlast
    · rw [Option.elim_some, ReadOrder.note_appended_of_ne hne]
      exact h.last o old hold last (heq ▸ hlast)
    · obtain ⟨kept, -, htrim⟩ := trimHistory_append old.history [entry] (by simp [chatHistoryLimit])
      rw [heq, htrim, getLast?_concat] at hlast
      cases hlast
      cases e with
      | start s cmd => cases hop
      | advance s =>
        have happended : (c.note w.shared.reads s (.appendHistory o last)).appended o = c.read s :=
          Function.update_self ..
        show last.time = (env.world.now
          ((c.note w.shared.reads s (.appendHistory o last)).appended o)).utc
        rw [happended]
        exact (h.handler s).stamped hop

end

theorem Dated.step (h : Dated env (readOrder env users es)
      ((channelHandlers env users).system.after es)) (e : Pool.Event SessionId ChannelCommand) :
    Dated env (readOrder env users (es ++ [e]))
      ((channelHandlers env users).system.step ((channelHandlers env users).system.after es) e) := by
  rw [readOrder_concat]
  exact ⟨h.handler_step e, fun _ _ hch _ hlast => h.last_step e hch hlast⟩

theorem dated_after (es : List (Pool.Event SessionId ChannelCommand)) :
    Dated env (readOrder env users es) ((channelHandlers env users).system.after es) := by
  induction es using List.reverseRecOn with
  | nil => exact ⟨fun _ => .silent trivial, fun o ch hch => by cases hch⟩
  | append_singleton es e ih =>
    rw [after_concat]
    exact ih.step e

omit [UnicodeTables] in
/-- What the order of the readings says of the times. -/
theorem Dated.timely_iff (h : Dated env c w) {e : Pool.Event SessionId ChannelCommand}
    {op : ChannelOp} (hop : w.next e = some op) :
    (Monotone (fun n => (env.world.now n).nanos) → c.Follows w.shared e.worker op →
      w.shared.Timely op) ∧
    (StrictMono (fun n => (env.world.now n).nanos) → w.shared.Timely op →
      c.Follows w.shared e.worker op) := by
  cases op with
  | appendHistory o entry =>
    cases e with
    | start s cmd => cases hop
    | advance s =>
      have hentry : entry.time.nanos = (env.world.now (c.read s)).nanos := by
        rw [(h.handler s).stamped hop]
        rfl
      have hlast (last : ChatHistoryEntry) (hl : last ∈ (w.shared.object o).history.getLast?) :
          last.time.nanos = (env.world.now (c.appended o)).nanos := by
        unfold ChannelHeap.object at hl
        rw [getD_eq_getElem?_getD] at hl
        cases ho : w.shared.objects[o]? with
        | none =>
          rw [ho] at hl
          cases hl
        | some ch =>
          rw [ho] at hl
          rw [h.last o ch ho last hl]
          rfl
      refine ⟨fun hmono hfollows last hl => ?_, fun hstrict htimely hne => ?_⟩
      · rw [hlast last hl, hentry]
        exact hmono (hfollows fun hnil => by rw [hnil] at hl; cases hl)
      · have hl := getLast?_eq_getLast_of_ne_nil hne
        have hle := htimely _ hl
        rw [hlast _ hl, hentry] at hle
        exact hstrict.le_iff_le.1 hle
  | _ => exact ⟨fun _ _ => trivial, fun _ _ => trivial⟩

/-- **The histories are in the order of their times if the handlers append to each channel in the
order in which they have read the clock**, which never goes back; with a clock that always advances
only then. -/
theorem ascending_inReadOrder (hclock : Monotone fun n => (env.world.now n).nanos)
    (hv : (channelHandlers env users).system.Valid es) :
    ((channelHandlers env users).system.Each (fun es' w e => ∀ op ∈ w.next e,
        (readOrder env users es').Follows w.shared e.worker op) es →
      (channelHandlers env users).system.Throughout (fun _ w => w.shared.Ascending) es) ∧
    (StrictMono (fun n => (env.world.now n).nanos) →
      (channelHandlers env users).system.Throughout (fun _ w => w.shared.Ascending) es →
      (channelHandlers env users).system.Each (fun es' w e => ∀ op ∈ w.next e,
        (readOrder env users es').Follows w.shared e.worker op) es) := by
  have htimely := Pool.throughout_iff (channelHandlers env users) (A := ChannelHeap.Ascending)
    (G := ChannelHeap.Timely) (fun o ch hch => by simp [channelHandlers] at hch)
    (fun h op hasc => hasc.run_iff env op) hv
  rw [htimely]
  refine ⟨fun hfollows es' e hes' op hop => ?_, fun hstrict ht es' e hes' op hop => ?_⟩
  · exact ((dated_after es').timely_iff hop).1 hclock (hfollows es' e hes' op hop)
  · exact ((dated_after es').timely_iff hop).2 hstrict (ht es' e hes' op hop)

end

section
attribute [local instance] asciiTables

def tickingClock : Env := newServer {} { World.still with now := fun n => ⟨n, 0⟩ }

def saysHi (s : SessionId) : Pool.Event SessionId ChannelCommand :=
  .start s (.privmsg { command := Verb.PRIVMSG.name, params := [lit "#a", lit "hi"] } false)

/-- Two members send a message each, one after the other. -/
def twoMessages : List (Pool.Event SessionId ChannelCommand) :=
  [joinsRoom 0] ++ advances 0 10 ++ [joinsRoom 1] ++ advances 1 10 ++
    [saysHi 0] ++ advances 0 7 ++ [saysHi 1] ++ advances 1 7

theorem strictMono_tickingClock : StrictMono fun n => (tickingClock.world.now n).nanos :=
  fun _ _ h => Int.ofNat_lt.2 h

theorem ascending_inReadOrder_twoMessages :
    (channelHandlers tickingClock twoUsers).system.Throughout (fun _ w => w.shared.Ascending)
      twoMessages :=
  (ascending_inReadOrder strictMono_tickingClock.monotone (by decide +kernel)).1 (by decide +kernel)

/-- The first of them has read the clock when the other one begins, and appends its message when
the other one is done. -/
def overtaken : List (Pool.Event SessionId ChannelCommand) :=
  [joinsRoom 0] ++ advances 0 10 ++ [joinsRoom 1] ++ advances 1 10 ++
    [saysHi 0] ++ advances 0 1 ++ [saysHi 1] ++ advances 1 7 ++ advances 0 6

/-- The clock never goes back, and the history is not in order. -/
theorem not_ascending_overtaken :
    Monotone (fun n => (tickingClock.world.now n).nanos) ∧
      (channelHandlers tickingClock twoUsers).system.Valid overtaken ∧
      ¬ ((channelHandlers tickingClock twoUsers).system.after overtaken).shared.Ascending := by
  refine ⟨strictMono_tickingClock.monotone, by decide +kernel, fun h => ?_⟩
  have hhistory : (((channelHandlers tickingClock twoUsers).system.after
      overtaken).shared.objects[0]?.map fun ch => ch.history.map fun e => e.time.nanos) =
      some [2, 1] := by
    decide +kernel
  obtain ⟨ch, hch, htimes⟩ := Option.map_eq_some_iff.1 hhistory
  have hsorted : (ch.history.map fun e => e.time.nanos).Pairwise (· ≤ ·) :=
    pairwise_map.2 (h 0 ch hch)
  rw [htimes] at hsorted
  exact absurd hsorted (by decide)

end

end Irc
