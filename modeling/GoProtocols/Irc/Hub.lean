import GoProtocols.Irc.Proof.Capture
import GoProtocols.Irc.Proof.Segments
import Mathlib.Logic.Relation

/-!
# Commands at the same time

Every session has a goroutine that reads its lines. The commands of different sessions run at the
same time, under `dispatchMu`: a command without a label holds it for reading, and its operations are
mixed with those of the other readers; a labeled one holds it for writing, so that each of its
segments is one step. What a goroutine does without the lock, to note the time of a line or to queue
a reply, is a step as well. `sendImmediate` is one operation here: its mark is only looked at while a
response is captured, and then nobody reads.

* `Hub.Step`: a step of one of the goroutines.
-/

namespace Irc

open Go Prog Relation

/-- Where the goroutine of a session is. -/
inductive Goroutine
  | idle
  /-- About to lock for reading. -/
  | ready (m : M Unit)
  /-- The lock is held for reading; the program is still to be run. -/
  | reading (m : M Unit)
  /-- About to lock for writing. -/
  | waiting (label : Bytes) (msg : Message)
  /-- In the middle of a labeled command, without the lock. -/
  | checking (label : Bytes) (check : Check) (saved : ResponseState) (rendered : List Message)
  /-- A labeled command is over, its reply is not sent yet. -/
  | replying (label : Bytes) (rendered reply : List Message)

structure Hub where
  st : State := {}
  goroutine : SessionId → Goroutine := fun _ => .idle

variable (h : Hub) (s : SessionId) (st : State) (g : Goroutine)

def Hub.move : Hub :=
  ⟨st, Function.update h.goroutine s g⟩

def Hub.Free : Prop := ∀ t m, h.goroutine t ≠ .reading m

def Hub.alone : Hub :=
  ⟨st, Function.update (fun _ => .idle) s g⟩

theorem Hub.alone_idle : Hub.alone s st .idle = ⟨st, fun _ => .idle⟩ := by
  rw [Hub.alone, Function.update_eq_self]

theorem Hub.alone_goroutine : (Hub.alone s st g).goroutine s = g := by
  simp [Hub.alone]

theorem Hub.alone_move (st' : State) (g g' : Goroutine) :
    (Hub.alone s st g).move s st' g' = Hub.alone s st' g' := by
  rw [Hub.alone, Hub.move, Function.update_idem]
  rfl

section
variable [UnicodeTables] {α : Type} (s : SessionId) (m : M α) (env : Env) {raw : Bytes} {g}

/-- What is left of `disconnect` when the client is no longer counted. -/
def depart : M Unit := do
  removeSession s
  updateSession s fun u => { u with connected := false }

instance {p : Scope} [Decided p.enrolls] [Decided p.seats] (s : SessionId) :
    Script p (depart s) := by
  unfold depart
  infer_instance

/-- The messages that `Send` renders for a session in a program: they are all in its queue if no
response is captured. -/
def renderedBy (st : State) : List Message :=
  ((m env { st with output := fun _ => {} }).2.output s).writeQueue.map Outbound.msg

inductive Hub.Step (env : Env) (h : Hub) : Hub → Prop
  | connect (addr : Bytes) (secure : Bool) (serverName : Bytes) :
      Hub.Step env h { h with st := (Irc.connect addr secure serverName env h.st).2 }
  | tooLong {s : SessionId} {raw : Bytes} (hidle : h.goroutine s = .idle)
      (hconnected : (h.st.srv.session s).connected = true) (hlong : inputTooLong raw = true) :
      Hub.Step env h (h.move s h.st
        (.ready (sendNumeric s .ERR_INPUTTOOLONG [lit "Input line was too long"])))
  | unlabeled {s : SessionId} {raw : Bytes} {msg : Message} (hidle : h.goroutine s = .idle)
      (hconnected : (h.st.srv.session s).connected = true) (hline : lineMessage raw = some msg)
      (hlabel : responseLabel ((noteIdle s env h.st).2.srv.session s) msg = none) :
      Hub.Step env h (h.move s (noteIdle s env h.st).2 (.ready (dispatch s msg)))
  | labeled {s : SessionId} {raw : Bytes} {msg : Message} {label : Bytes}
      (hidle : h.goroutine s = .idle) (hconnected : (h.st.srv.session s).connected = true)
      (hline : lineMessage raw = some msg)
      (hlabel : responseLabel ((noteIdle s env h.st).2.srv.session s) msg = some label) :
      Hub.Step env h (h.move s (noteIdle s env h.st).2 (.waiting label msg))
  | leave {s : SessionId} (hidle : h.goroutine s = .idle)
      (hconnected : (h.st.srv.session s).connected = true) :
      Hub.Step env h (h.move s
        (updateServer (fun srv => { srv with clientsCurrent := srv.clientsCurrent - 1 }) env h.st).2
        (.ready (depart s)))
  | enter {s : SessionId} {m : M Unit} (hready : h.goroutine s = .ready m) :
      Hub.Step env h (h.move s h.st (.reading m))
  /-- Some of the operations of a command; the others of all goroutines may come before the rest. -/
  | operate {s : SessionId} {α : Type} {op : M α} {rest : α → M Unit}
      (hreading : h.goroutine s = .reading (op >>= rest)) (hop : Script .all op)
      (hrest : ∀ a, Script .all (rest a)) :
      Hub.Step env h (h.move s (op env h.st).2 (.reading (rest (op env h.st).1)))
  | exit {s : SessionId} (hreading : h.goroutine s = .reading (pure ())) :
      Hub.Step env h (h.move s h.st .idle)
  | answer {s : SessionId} {label : Bytes} {msg : Message} {reply : List Message} (hfree : h.Free)
      (hwaiting : h.goroutine s = .waiting label msg)
      (hrun : (beginLabeled s label msg env h.st).1 = .inl reply) :
      Hub.Step env h (h.move s (beginLabeled s label msg env h.st).2
        (.replying label (renderedBy s (dispatchSegment s msg) env h.st) reply))
  | suspend {s : SessionId} {label : Bytes} {msg : Message} {check : Check} {saved : ResponseState}
      (hfree : h.Free) (hwaiting : h.goroutine s = .waiting label msg)
      (hrun : (beginLabeled s label msg env h.st).1 = .inr (check, saved)) :
      Hub.Step env h (h.move s (beginLabeled s label msg env h.st).2
        (.checking label check saved (renderedBy s (dispatchSegment s msg) env h.st)))
  | resume {s : SessionId} {label : Bytes} {check : Check} {saved : ResponseState}
      {rendered : List Message} (hfree : h.Free)
      (hchecking : h.goroutine s = .checking label check saved rendered) :
      Hub.Step env h (h.move s (endLabeled s check saved env h.st).2
        (.replying label
          (rendered ++ renderedBy s
            (check.next (env.world.bcryptCheck check.hash check.password)) env h.st)
          (endLabeled s check saved env h.st).1))
  /-- `sendPrepared` holds the lock of the writer for the whole reply. -/
  | reply {s : SessionId} {label : Bytes} {rendered reply : List Message}
      (hreplying : h.goroutine s = .replying label rendered reply) :
      Hub.Step env h (h.move s (sendPrepared s reply env h.st).2 .idle)

def Hub.Reachable : Hub → Prop := ReflTransGen (Hub.Step env) {}

/-! ## Events -/

variable {env : Env} {st : State} {s : SessionId}

theorem Hub.Step.alone {st' : State} {g' : Goroutine}
    (h : Hub.Step env (.alone s st g) ((Hub.alone s st g).move s st' g')) :
    Hub.Step env (.alone s st g) (.alone s st' g') := by
  rwa [Hub.alone_move] at h

theorem Hub.reads {m : M Unit} (hm : Script .all m) :
    ReflTransGen (Hub.Step env) (.alone s st (.ready m)) (.alone s (m env st).2 .idle) := by
  have henter : Hub.Step env (.alone s st (.ready m)) (.alone s st (.reading (m >>= pure))) := by
    rw [bind_pure]
    exact .alone (.enter (Hub.alone_goroutine s st _))
  have hrun : Hub.Step env (.alone s st (.reading (m >>= pure)))
      (.alone s (m env st).2 (.reading (pure ()))) :=
    .alone (.operate (Hub.alone_goroutine s st _) hm fun a => .pure a)
  have hexit : Hub.Step env (.alone s (m env st).2 (.reading (pure ())))
      (.alone s (m env st).2 .idle) :=
    .alone (.exit (Hub.alone_goroutine s _ _))
  exact ((ReflTransGen.single henter).tail hrun).tail hexit

omit [UnicodeTables] in
theorem checkPassword_suspends (hash password : Bytes) (h : (st.output s).response ≠ none) :
    checkPassword s hash password env st =
      (env.world.bcryptCheck hash password,
        (resumeResponse s (suspendResponse s env st).1 env (suspendResponse s env st).2).2) := by
  simp only [checkPassword, bind_run, ite_run]
  exact if_neg h

/-- **A labeled command is its segments.** -/
theorem labeled_eq (env : Env) (hcalm : Calm st.output) (s : SessionId) (label : Bytes)
    (msg : Message) :
    (do
      beginResponse s label
      dispatch s msg
      finishResponse s : M (List Message)) env st =
      match (beginLabeled s label msg env st).1 with
      | .inl reply => (reply, (beginLabeled s label msg env st).2)
      | .inr (check, saved) => endLabeled s check saved env (beginLabeled s label msg env st).2 := by
  obtain ⟨t, ht, -⟩ := (script_dispatchSegment s msg).traced env st.srv st.reads
  have hsegment := ht (capturing st.output s label [] []) hcalm.capturing
  simp only [beginLabeled, bind_run, dispatch_eq, beginResponse_run, hsegment]
  cases t.value with
  | none => rfl
  | some check =>
    simp only [finishCheck, Option.elim_some, bind_run, endLabeled]
    rw [checkPassword_suspends]
    · rfl
    · dsimp only
      rw [foldl_capturing_self hcalm]
      exact Option.some_ne_none _

omit [UnicodeTables] in
theorem Hub.alone_free (h : ∀ m, g ≠ .reading m) (s : SessionId) (st : State) :
    (Hub.alone s st g).Free := by
  intro t m
  by_cases ht : t = s
  · subst ht
    simpa [Hub.alone] using h m
  · simp [Hub.alone, Function.update_of_ne ht]

theorem Hub.writes (hcalm : Calm st.output) (s : SessionId) (label : Bytes) (msg : Message) :
    ReflTransGen (Hub.Step env) (.alone s st (.waiting label msg))
      (.alone s ((do
        beginResponse s label
        dispatch s msg
        let response ← finishResponse s
        sendPrepared s response : M Unit) env st).2 .idle) := by
  have hsegments := labeled_eq env hcalm s label msg
  have hfree : (Hub.alone s st (.waiting label msg)).Free := Hub.alone_free (by simp) s st
  have hreply (st : State) (rendered reply : List Message) :
      Hub.Step env (.alone s st (.replying label rendered reply))
        (.alone s (sendPrepared s reply env st).2 .idle) :=
    .alone (.reply (Hub.alone_goroutine s st _))
  simp only [bind_run] at hsegments ⊢
  cases hbegin : (beginLabeled s label msg env st).1 with
  | inl reply =>
    rw [hbegin] at hsegments
    have hanswer := Hub.Step.answer hfree (Hub.alone_goroutine s st _) hbegin
    rw [hsegments]
    exact (ReflTransGen.single hanswer.alone).tail (hreply _ _ reply)
  | inr suspended =>
    obtain ⟨check, saved⟩ := suspended
    rw [hbegin] at hsegments
    have hsuspend := Hub.Step.suspend hfree (Hub.alone_goroutine s st _) hbegin
    have hresume : Hub.Step env _ _ := .resume (Hub.alone_free (by simp) s _)
      (Hub.alone_goroutine s (beginLabeled s label msg env st).2 (.checking label check saved
        (renderedBy s (dispatchSegment s msg) env st)))
    rw [hsegments]
    exact ((ReflTransGen.single hsuspend.alone).tail hresume.alone).tail (hreply _ _ _)

/-- **An event is the steps of one goroutine**, one after the other. -/
theorem Hub.event {e : Event} (hcalm : Calm st.output) (hen : e.enabled st) :
    ReflTransGen (Hub.Step env) ⟨st, fun _ => .idle⟩ ⟨(e.exec env st).2, fun _ => .idle⟩ := by
  cases e with
  | connect addr secure serverName => exact .single (.connect addr secure serverName)
  | disconnect s =>
    rw [← Hub.alone_idle s ((Event.disconnect s).exec env st).2]
    exact .head (.leave rfl hen) (Hub.reads (m := depart s) inferInstance)
  | line s raw =>
    rw [← Hub.alone_idle s ((Event.line s raw).exec env st).2, Event.exec]
    by_cases hlong : inputTooLong raw = true
    · rw [handleLine_long hlong]
      exact .head (.tooLong rfl hen hlong) (Hub.reads inferInstance)
    cases hline : lineMessage raw with
    | none => rw [handleLine_none hlong hline, Hub.alone_idle]
    | some msg =>
      rw [handleLine_run hline, dispatchCommand, bind_run, server_run]
      cases hlabel : responseLabel ((noteIdle s env st).2.srv.session s) msg with
      | none =>
        exact .head (.unlabeled rfl hen hline hlabel) (Hub.reads (script_dispatch s msg).all)
      | some label =>
        have hnote : Calm (noteIdle s env st).2.output := hcalm
        exact .head (.labeled rfl hen hline hlabel) (Hub.writes hnote s label msg)

end

end Irc
