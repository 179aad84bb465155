import GoProtocols.Irc.Server.Register

/-!
# Capabilities and SASL

`CAP` and `AUTHENTICATE` of `irc/server/handlers.go`.
-/

namespace Irc

open Go Prog

section
variable [UnicodeTables] (s : SessionId) (msg : Message) (subArg : Bytes)

/-! ## CAP -/

/-- The capabilities that every session is offered. -/
def baseCaps : List Capability :=
  [.serverTime, .messageTags, .batch, .chatHistory, .echoMessage, .multiPrefix, .awayNotify,
    .extendedJoin, .setname, .capNotify, .inviteNotify, .userHostInNames, .noImplicitNames,
    .standardReplies, .accountTag, .accountNotify, .chghost, .extendedMonitor, .labeledResponse]

/-- The value of `sts` that a session is offered. -/
def stsValue (sts : STSConfig) (u : Session) : Option Bytes :=
  if u.capVersion < 302 then none
  else if ¬ u.secure then some (lit "port=" ++ itoa sts.port)
  else if sts.hostnames.any fun h => equalFold h u.serverName then
    some (lit "duration=" ++ itoa (sts.duration / 1000000000) ++
      if sts.preload then lit ",preload" else [])
  else none

/-- `Server.supportedCaps`: the names with their values. -/
def supportedCaps (cfg : Config) (accounts : Map Bytes Account) (u : Session) : Map Bytes Bytes :=
  let caps := Map.ofList (baseCaps.map fun c => (c.name, []))
  let caps := if u.secure ∧ accounts.entries ≠ [] then
    caps.insert Capability.sasl.name (lit "PLAIN") else caps
  match cfg.sts.bind fun sts => stsValue sts u with
  | some value => caps.insert Capability.sts.name value
  | none => caps

/-- `slices.Sort` on strings. -/
def sortStrings (l : List Bytes) : List Bytes := l.insertionSort (· ≤ ·)

def sendCapLS : M Unit := do
  let cfg ← config
  let table ← accounts
  let srv ← server
  let u := srv.session s
  sendCAPList s (lit "LS") (sortStrings ((supportedCaps cfg table u).entries.map fun c =>
    if 302 ≤ u.capVersion ∧ c.2 ≠ [] then c.1 ++ lit "=" ++ c.2 else c.1))

/-- The name of a capability in a request, and whether it is to be disabled. -/
def requestName (cap : Bytes) : Bytes := trimPrefix cap (lit "-")

/-- One round of the second loop of `CAP REQ`. -/
def applyRequest (u : Session) (cap : Bytes) : Session :=
  let disable := hasPrefix cap (lit "-")
  let name := requestName cap
  if disable ∧ (name ≠ Capability.capNotify.name ∨ u.capVersion < 302) then
    { u with caps := u.caps.erase name }
  else if ¬ disable then { u with caps := u.caps.insert name true }
  else u

/-- Open the negotiation, unless the session is registered. -/
def beginNegotiation : M Unit := do
  let srv ← server
  when ((srv.session s).state ≠ .registered)
    (updateSession s fun u => { u with state := .capNeg })

def handleCapLS : M Unit := do
  beginNegotiation s
  (atoi subArg).toOption.elim (return) fun version =>
    when (302 ≤ version) (updateSession s fun u =>
      { u with capVersion := version, caps := u.caps.insert Capability.capNotify.name true })
  sendCapLS s

def handleCapLIST : M Unit := do
  let srv ← server
  sendCAPList s (lit "LIST")
    (sortStrings (((srv.session s).caps.entries.filter fun c => c.2).map fun c => c.1))

def handleCapREQ : M Unit := do
  let cfg ← config
  let table ← accounts
  let srv ← server
  let supported := supportedCaps cfg table (srv.session s)
  beginNegotiation s
  let req := trimPrefix subArg (lit ":")
  if (fields req).any fun cap =>
      (supported.lookup (requestName cap)).isNone || requestName cap = Capability.sts.name then
    return ← sendCAP s (lit "NAK") req
  updateSession s fun u => { u with caps := ((fields req).foldl applyRequest u).caps }
  sendCAP s (lit "ACK") req

/-- `Server.saslFailure`. -/
def saslFailure (n : Numeric) (text : Bytes) : M Unit := do
  updateSession s fun u => { u with saslActive := false, saslBuffer := [] }
  sendNumeric s n [text]

def handleCapEND : M Unit := do
  let srv ← server
  when ((srv.session s).saslActive)
    (saslFailure s .ERR_SASLABORTED (lit "SASL authentication aborted"))
  when ((srv.session s).state = .capNeg)
    (updateSession s fun u => { u with state := .preReg })
  tryRegister s

/-- `Server.handleCAP`. -/
def handleCAP : M Unit := do
  if msg.params = [] then
    return ← sendNumeric s .ERR_INVALIDCAPCMD [lit "*", lit "Invalid CAP command"]
  let subCmd := toUpper (msg.param 0)
  if subCmd = lit "LS" then handleCapLS s (msg.param 1)
  else if subCmd = lit "LIST" then handleCapLIST s
  else if subCmd = lit "REQ" then handleCapREQ s (msg.param 1)
  else if subCmd = lit "END" then handleCapEND s
  else sendNumeric s .ERR_INVALIDCAPCMD [subCmd, lit "Invalid CAP command"]

/-! ## SASL -/

def maxSASLPayload : Nat := 4096

def saslFailed : Bytes := lit "SASL authentication failed"

/-- The account that a payload of the mechanism `PLAIN` asks for, with the password. -/
def plainCredentials (payload : Bytes) : Option (Bytes × Bytes) :=
  match split payload 0 with
  | [authzid, authcid, password] =>
    if authcid = [] ∨ password = [] ∨ authzid ≠ [] ∧ ¬ equalFold authzid authcid then none
    else some (authcid, password)
  | _ => none

/-- The session is logged in to an account: tell its peers of the account and the new host. -/
def logIn (account : Account) : M Unit := do
  let srv ← server
  let u := srv.session s
  updateSession s fun u => { u with account := account.name }
  when (u.state = .registered) (notifyAccount s u.source)
  when (account.host ≠ [] ∧ account.host ≠ u.host) do
    updateSession s fun u => { u with host := account.host }
    when (u.state = .registered) (notifyHostChange s u.source)
  let srv ← server
  let u := srv.session s
  sendNumeric s .RPL_LOGGEDIN
    [u.mask, u.account, lit "You are now logged in as " ++ u.account]
  sendNumeric s .RPL_SASLSUCCESS [lit "SASL authentication successful"]

/-- What a complete exchange leads to; `encoded` is what the chunks add up to. -/
def authenticate (encoded : Bytes) : M Unit := do
  let table ← accounts
  let w ← world
  ((decodeBase64 encoded).bind plainCredentials).elim (sendNumeric s .ERR_SASLFAIL [saslFailed])
    fun credentials => do
      let account := table.lookup (toLower credentials.1)
      -- an unknown name costs a check too
      let hash := (account.map Account.passwordHash).getD w.dummyPasswordHash
      let passwordOK ← checkPassword s hash credentials.2
      (if passwordOK then account else none).elim (sendNumeric s .ERR_SASLFAIL [saslFailed])
        (logIn s)

/-- `Server.handleAuthenticate`. -/
def handleAuthenticate : M Unit := do
  let srv ← server
  let u := srv.session s
  if ¬ u.capEnabled .sasl ∨ msg.params = [] then
    return ← saslFailure s .ERR_SASLFAIL saslFailed
  let chunk := msg.param 0
  if ¬ u.saslActive then
    if u.account ≠ [] then
      return ← sendNumeric s .ERR_SASLALREADY [lit "You have already authenticated using SASL"]
    if ¬ equalFold chunk (lit "PLAIN") then
      sendNumeric s .RPL_SASLMECHS [lit "PLAIN", lit "are available SASL mechanisms"]
      return ← saslFailure s .ERR_SASLFAIL saslFailed
    updateSession s fun u => { u with saslActive := true, saslBuffer := [] }
    return ← send s { command := Verb.AUTHENTICATE.name, params := [lit "+"] }
  if chunk = lit "*" then
    return ← saslFailure s .ERR_SASLABORTED (lit "SASL authentication aborted")
  if 400 < chunk.length ∨ maxSASLPayload < u.saslBuffer.length + chunk.length then
    return ← saslFailure s .ERR_SASLTOOLONG (lit "SASL message too long")
  let buffer := if chunk ≠ lit "+" then u.saslBuffer ++ chunk else u.saslBuffer
  if chunk.length = 400 then
    return ← updateSession s fun u => { u with saslBuffer := buffer }
  updateSession s fun u => { u with saslActive := false, saslBuffer := [] }
  authenticate s buffer

end

end Irc
