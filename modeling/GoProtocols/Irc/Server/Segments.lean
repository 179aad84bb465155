import GoProtocols.Irc.Server.Dispatch

/-!
# Labeled commands in segments

A labeled command holds `dispatchMu` for writing, but `checkPassword` releases it for the time of the
check. So the command runs in segments: up to the check, if it makes one, and from there to its end.
`dispatchSegment` is the first one; `AUTHENTICATE` and `OPER` are the commands with a second.
-/

namespace Irc

open Go Prog

/-! ## Suspended responses -/

/-- `responseState`. -/
structure ResponseState where
  label : Bytes
  messages : Option (List Message)
  immediate : List Message

/-- `Session.suspendResponse`. -/
def suspendResponse (s : SessionId) : M ResponseState := do
  let o ← output s
  updateOutput s fun o => { o with responseLabel := [], response := none, responseImmediate := [] }
  return ⟨o.responseLabel, o.response, o.responseImmediate⟩

/-- `Session.resumeResponse`. -/
def resumeResponse (s : SessionId) (saved : ResponseState) : M Unit :=
  updateOutput s fun o =>
    { o with responseLabel := saved.label, response := saved.messages,
             responseImmediate := saved.immediate }

/-- A check that a command waits for, and what it does with the outcome. -/
structure Check where
  hash : Bytes
  password : Bytes
  next : Bool → M Unit

section
variable [UnicodeTables] (s : SessionId) (msg : Message)

/-! ## First segments -/

/-- The first segment of `authenticate`. -/
def authenticateSegment (encoded : Bytes) : M (Option Check) := do
  let table ← accounts
  let w ← world
  ((decodeBase64 encoded).bind plainCredentials).elim
    (do
      sendNumeric s .ERR_SASLFAIL [saslFailed]
      return none)
    fun credentials =>
      let account := table.lookup (toLower credentials.1)
      let hash := (account.map Account.passwordHash).getD w.dummyPasswordHash
      return some ⟨hash, credentials.2, fun passwordOK =>
        (if passwordOK then account else none).elim (sendNumeric s .ERR_SASLFAIL [saslFailed])
          (logIn s)⟩

/-- The first segment of `handleAuthenticate`. -/
def handleAuthenticateSegment : M (Option Check) := do
  let srv ← server
  let u := srv.session s
  if ¬ u.capEnabled .sasl ∨ msg.params = [] then
    saslFailure s .ERR_SASLFAIL saslFailed
    return none
  let chunk := msg.param 0
  if ¬ u.saslActive then
    if u.account ≠ [] then
      sendNumeric s .ERR_SASLALREADY [lit "You have already authenticated using SASL"]
      return none
    if ¬ equalFold chunk (lit "PLAIN") then
      sendNumeric s .RPL_SASLMECHS [lit "PLAIN", lit "are available SASL mechanisms"]
      saslFailure s .ERR_SASLFAIL saslFailed
      return none
    updateSession s fun u => { u with saslActive := true, saslBuffer := [] }
    send s { command := Verb.AUTHENTICATE.name, params := [lit "+"] }
    return none
  if chunk = lit "*" then
    saslFailure s .ERR_SASLABORTED (lit "SASL authentication aborted")
    return none
  if 400 < chunk.length ∨ maxSASLPayload < u.saslBuffer.length + chunk.length then
    saslFailure s .ERR_SASLTOOLONG (lit "SASL message too long")
    return none
  let buffer := if chunk ≠ lit "+" then u.saslBuffer ++ chunk else u.saslBuffer
  if chunk.length = 400 then
    updateSession s fun u => { u with saslBuffer := buffer }
    return none
  updateSession s fun u => { u with saslActive := false, saslBuffer := [] }
  authenticateSegment s buffer

/-- The first segment of `handleOper`. -/
def handleOperSegment : M (Option Check) := do
  if msg.params.length < 2 then
    sendNumeric s .ERR_NEEDMOREPARAMS [Verb.OPER.name, lit "Not enough parameters"]
    return none
  let cfg ← config
  let srv ← server
  let refuse := sendNumeric s .ERR_PASSWDMISMATCH [lit "Password incorrect"]
  (cfg.opers.lookup (msg.param 0)).elim
    (do
      refuse
      return none)
    fun hash => return some ⟨hash, msg.param 1, fun ok => do
      if ¬ ok then return ← refuse
      updateSession s fun u =>
        { u with isOper := true, modes := (u.modes.apply userValidator [⟨true, rune 'o', []⟩]).1 }
      sendNumeric s .RPL_YOUROPER [lit "You are now an IRC operator"]
      sendServer s .MODE [(srv.session s).nick, lit "+o"]⟩

/-- The first segment of `dispatch`. -/
def dispatchSegment : M (Option Check) :=
  match verbOf (toUpper msg.command) with
  | some .AUTHENTICATE => handleAuthenticateSegment s msg
  | some .OPER => do
    let srv ← server
    if (srv.session s).state ≠ .registered then
      sendNumeric s .ERR_NOTREGISTERED [lit "You have not registered"]
      return none
    handleOperSegment s msg
  | _ => do
    dispatch s msg
    return none

/-! ## Labeled commands -/

/-- What `dispatchCommand` does with a labeled command until it releases the lock: the response, or
the check that it waits for with the response so far. -/
def beginLabeled (label : Bytes) (msg : Message) :
    M (List Message ⊕ Check × ResponseState) := do
  beginResponse s label
  let check ← dispatchSegment s msg
  check.elim
    (do return .inl (← finishResponse s))
    fun check => do return .inr (check, ← suspendResponse s)

/-- What it does when it has the lock again. -/
def endLabeled (check : Check) (saved : ResponseState) : M (List Message) := do
  resumeResponse s saved
  let w ← world
  check.next (w.bcryptCheck check.hash check.password)
  finishResponse s

end

end Irc
