import GoProtocols.Irc.Proof.Commands
import GoProtocols.Irc.Proof.Trace
import GoProtocols.Irc.Server.Segments

/-!
# Segments are scripts

The first segment of a command, the password check and the rest are the command (`dispatch_eq`). Both
segments are scripts without checks.
-/

namespace Irc

open Go Prog

set_option synthInstance.maxSize 4096

section
variable [UnicodeTables] (s : SessionId) (msg : Message)

/-- The check and the rest of a command. -/
def finishCheck (check : Option Check) : M Unit :=
  check.elim (return) fun check => do
    let ok ← checkPassword s check.hash check.password
    check.next ok

theorem authenticate_eq (encoded : Bytes) :
    authenticate s encoded = (do finishCheck s (← authenticateSegment s encoded)) := by
  funext env st
  simp only [authenticate, authenticateSegment, bind_run]
  cases (decodeBase64 encoded).bind plainCredentials <;> rfl

theorem handleAuthenticate_eq :
    handleAuthenticate s msg = (do finishCheck s (← handleAuthenticateSegment s msg)) := by
  funext env st
  simp only [handleAuthenticate, handleAuthenticateSegment, bind_run, ite_run, authenticate_eq]
  repeat' split
  all_goals rfl

theorem handleOper_eq : handleOper s msg = (do finishCheck s (← handleOperSegment s msg)) := by
  funext env st
  simp only [handleOper, handleOperSegment, bind_run, ite_run]
  split
  · rfl
  · cases (config env st).1.opers.lookup (msg.param 0) <;> rfl

/-- **A command is its first segment, the check and the rest.** -/
theorem dispatch_eq : dispatch s msg = (do finishCheck s (← dispatchSegment s msg)) := by
  unfold dispatchSegment
  split
  · rename_i hv
    unfold dispatch
    rw [hv]
    exact handleAuthenticate_eq s msg
  · rename_i hv
    have hdispatch : dispatch s msg = dispatchOther s msg (toUpper msg.command) := by
      unfold dispatch
      rw [hv]
    have hregistered : dispatchRegistered s msg (toUpper msg.command) = handleOper s msg := by
      unfold dispatchRegistered
      rw [hv]
    funext env st
    simp only [hdispatch, dispatchOther, hregistered, handleOper_eq, bind_run, ite_run]
    split <;> rfl
  · rfl

/-! ## Scripts -/

variable {p : Scope} (s : SessionId) (msg : Message)

instance (encoded : Bytes) : Script p (authenticateSegment s encoded) := by
  unfold authenticateSegment
  infer_instance

instance [Decided p.logs] (s : SessionId) (msg : Message) :
    Script p (handleAuthenticateSegment s msg) := by
  unfold handleAuthenticateSegment
  infer_instance

instance : Script p (handleOperSegment s msg) := by
  unfold handleOperSegment
  infer_instance

theorem script_dispatchSegment : Script msg.scope (dispatchSegment s msg) := by
  have hdispatch := script_dispatch s msg
  unfold dispatchSegment
  split
  · rename_i hv
    have hlogs : Decided msg.scope.logs := ⟨by simp [Message.scope, hv]⟩
    infer_instance
  all_goals infer_instance

variable {s : SessionId} {msg : Message} {env : Env} {st : State} {check : Check}

theorem script_authenticate_next [Decided p.logs] {encoded : Bytes}
    (h : (authenticateSegment s encoded env st).1 = some check) (ok : Bool) :
    Script p (check.next ok) := by
  simp only [authenticateSegment, bind_run] at h
  cases hcred : (decodeBase64 encoded).bind plainCredentials with
  | none =>
    rw [hcred] at h
    cases h
  | some credentials =>
    rw [hcred] at h
    cases h
    infer_instance

theorem script_oper_next [Decided p.moderates]
    (h : (handleOperSegment s msg env st).1 = some check) (ok : Bool) :
    Script p (check.next ok) := by
  simp only [handleOperSegment, bind_run, ite_run] at h
  split at h
  · cases h
  · cases hash : (config env st).1.opers.lookup (msg.param 0) with
    | none =>
      rw [hash] at h
      cases h
    | some hash =>
      rw [hash] at h
      cases h
      infer_instance

/-- **What follows a check is a script**, of no more than modes and logins. -/
theorem script_next [Decided p.moderates] [Decided p.logs]
    (h : (dispatchSegment s msg env st).1 = some check) (ok : Bool) : Script p (check.next ok) := by
  generalize hm : dispatchSegment s msg = m at h
  unfold dispatchSegment at hm
  split at hm <;> subst hm
  · simp only [handleAuthenticateSegment, bind_run, ite_run] at h
    repeat' split at h
    all_goals first | cases h | exact script_authenticate_next h ok
  · simp only [bind_run, ite_run] at h
    split at h
    · cases h
    · exact script_oper_next h ok
  · cases h

end

end Irc
