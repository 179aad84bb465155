import GoProtocols.Irc.Server.Register

/-!
# Messaging

`PRIVMSG`, `NOTICE`, `TAGMSG` and `CHATHISTORY` of `irc/server/handlers.go`.
-/

namespace Irc

open Go Prog

/-- Whether a target names a channel. -/
def isChannelTarget (target : Bytes) : Bool :=
  hasPrefix target (lit "#") || hasPrefix target (lit "&")

section
variable [UnicodeTables] (s : SessionId) (u : Session) (msg : Message)

/-! ## Relaying -/

/-- The tags of a relayed message: those of the server, and the client-only tags of a sender that
has `message-tags`. -/
def relayTags (msgid time : Bytes) : Tags :=
  let tags := Map.ofList [(lit "msgid", msgid), (lit "time", time)]
  let tags := if u.account ≠ [] then tags.insert (lit "account") u.account else tags
  if u.capEnabled .messageTags then
    msg.tags.entries.foldl (fun tags t =>
      if hasPrefix t.1 (lit "+") then tags.insert t.1 t.2 else tags) tags
  else tags

/-- Why a session may not send to a channel. -/
def channelRefusal (ch : Channel) : Option Bytes :=
  if ¬ ch.hasMember u.nick ∧ ch.modes.has (rune 'n') then some (lit "Cannot send to channel")
  else if ch.modes.has (rune 'm') ∧ ((ch.getMembership u.nick).map Membership.status).getD [] = []
    then some (lit "Cannot send to channel (+m)")
  else none

/-- Relay a message to a channel; `entry` is recorded in its history. -/
def relayToChannel (target : Bytes) (outMsg : Message)
    (entry : Option ChatHistoryEntry) : M Unit := do
  let srv ← server
  let u := srv.session s
  (srv.getChannel target).elim
    (sendNumeric s .ERR_NOSUCHNICK [target, lit "No such nick/channel"]) fun ch =>
      (channelRefusal u ch).elim
        (do
          entry.elim (return) fun e => updateChannel (toLower target) (Channel.appendHistory · e)
          broadcast ch outMsg (some s)
          when (u.capEnabled .echoMessage) (send s outMsg))
        fun text => sendNumeric s .ERR_CANNOTSENDTOCHAN [target, text]

/-- Relay a message to a nick; `entry` is recorded in the histories of both sessions. -/
def relayToNick (target : Bytes) (outMsg : Message)
    (entry : Option ChatHistoryEntry) (notice : Bool) : M Unit := do
  let srv ← server
  let u := srv.session s
  (srv.getSession target).elim
    (sendNumeric s .ERR_NOSUCHNICK [target, lit "No such nick/channel"]) fun dest => do
      entry.elim (return) fun e => do
        updateSession s (Session.appendHistory · (srv.session dest).nick e)
        updateSession dest (Session.appendHistory · u.nick e)
      (if dest = s then sendImmediate s outMsg else send dest outMsg)
      when (u.capEnabled .echoMessage) (send s outMsg)
      when ((srv.session dest).away ≠ [] ∧ ¬ notice)
        (sendNumeric s .RPL_AWAY [target, (srv.session dest).away])

/-- `Server.handlePrivmsg`. -/
def handlePrivmsg (notice : Bool) : M Unit := do
  if msg.params.length < 2 then
    return ← sendNumeric s .ERR_NEEDMOREPARAMS [msg.command, lit "Not enough parameters"]
  let srv ← server
  let u := srv.session s
  let target := msg.param 0
  let verb : Verb := if notice then .NOTICE else .PRIVMSG
  let at_ ← now
  let msgid ← randText
  let outMsg : Message :=
    { tags := relayTags u msg msgid (serverTime at_), source := some u.source
      command := verb.name, params := [target, msg.param 1] }
  let entry : ChatHistoryEntry := ⟨at_.utc, outMsg, verb, rfl⟩
  if isChannelTarget target then relayToChannel s target outMsg (some entry)
  else relayToNick s target outMsg (some entry) notice

/-- `Server.handleTagmsg`. -/
def handleTagmsg : M Unit := do
  if msg.param 0 = [] then
    return ← sendNumeric s .ERR_NORECIPIENT [lit "No recipient given (TAGMSG)"]
  let srv ← server
  let u := srv.session s
  if ¬ u.capEnabled .messageTags then return
  let target := msg.param 0
  let msgid ← randText
  let at_ ← now
  let outMsg : Message :=
    { tags := relayTags u msg msgid (serverTime at_), source := some u.source
      command := Verb.TAGMSG.name, params := [target] }
  if isChannelTarget target then relayToChannel s target outMsg none
  else relayToNick s target outMsg none true

/-! ## History -/

/-- `Server.sendChatHistoryFail`. -/
def sendChatHistoryFail (code subcommand text : Bytes) : M Unit :=
  sendServer s .FAIL [Verb.CHATHISTORY.name, code, subcommand, text]

/-- An entry of a history as it is sent; `batchID` is empty outside a batch. -/
def sendEntry (batchID : Bytes) (entry : ChatHistoryEntry) : M Unit :=
  send s { entry.msg with
    tags := if batchID ≠ [] then entry.msg.tags.insert (lit "batch") batchID else entry.msg.tags }

/-- `Server.sendHistoryBatch`. -/
def sendHistoryBatch (batchType target : Bytes) (entries : List ChatHistoryEntry)
    (complete : Bool) : M Unit := do
  let cfg ← config
  let srv ← server
  if ¬ (srv.session s).capEnabled .batch then return ← entries.forM (sendEntry s [])
  let batchID ← randText
  send s
    { tags := if complete then Map.ofList [(lit "draft/chathistory-end", [])] else ∅
      source := some { nick := cfg.name }, command := Verb.BATCH.name
      params := [lit "+" ++ batchID, batchType] ++ if target ≠ [] then [target] else [] }
  entries.forM (sendEntry s batchID)
  when (batchID ≠ []) (sendServer s .BATCH [lit "-" ++ batchID])

/-- A parameter `timestamp=…`. -/
def timestampParam (param : Bytes) : Option Time :=
  if hasPrefix param (lit "timestamp=") then
    parseServerTime (trimPrefix param (lit "timestamp="))
  else none

/-- The entry that lists a target, if its latest message lies between the times. -/
def targetEntry (first second : Time) (target : Bytes) (entries : List ChatHistoryEntry) :
    Option ChatHistoryEntry :=
  entries.getLast?.bind fun last =>
    let params := [lit "TARGETS", target, serverTime last.time]
    if first.nanos < last.time.nanos ∧ last.time.nanos < second.nanos then
      some ⟨last.time, { command := Verb.CHATHISTORY.name, params }, .CHATHISTORY, rfl⟩
    else none

/-- The targets of a session between two times, latest first. The sort of the source does not keep
the order of equal times, so the targets are shuffled before. -/
def listTargets (first second : Time) : M (List ChatHistoryEntry) := do
  let srv ← server
  let u := srv.session s
  let channels ← allChannels
  let own ← rangeOver Sigma.fst u.history.entries
  let targets ← rangeOver (fun e => e.msg.param 1)
    ((channels.filter fun ch => ch.2.hasMember u.nick).filterMap
        (fun ch => targetEntry first second ch.2.name ch.2.history) ++
      own.filterMap fun h => targetEntry first second h.1 h.2)
  return targets.insertionSort fun a b => b.time.nanos ≤ a.time.nanos

/-- `Server.handleChatHistoryTargets`. -/
def handleChatHistoryTargets : M Unit := do
  if msg.params.length ≠ 4 then
    return ← sendChatHistoryFail s (lit "INVALID_PARAMS") (msg.param 0) (lit "Invalid parameters")
  let badTime := sendChatHistoryFail s (lit "INVALID_PARAMS") (msg.param 0)
    (lit "Invalid timestamp")
  (timestampParam (msg.param 1)).elim badTime fun first =>
    (timestampParam (msg.param 2)).elim badTime fun second =>
      ((atoi (msg.param 3)).toOption.filter (0 < ·)).elim
        (sendChatHistoryFail s (lit "INVALID_PARAMS") (msg.param 0) (lit "Invalid limit"))
        fun limit => do
          let early := if second.nanos < first.nanos then second else first
          let late := if second.nanos < first.nanos then first else second
          let targets ← listTargets s early late
          sendHistoryBatch s (lit "draft/chathistory-targets") [] (targets.take limit.toNat)
            (targets.length ≤ limit.toNat)

/-- The text of the error of a selection. The handler passes `BETWEEN` two selectors and the others
one, so that no selection panics. -/
def selectFaultText {α : Type} : Except SelectFault α → Bytes
  | .error (.error text) => text
  | _ => []

/-- The canonical name of a target and what is stored for it, if the session may read it. -/
def storedHistory (srv : Server) (u : Session) (target : Bytes) :
    Option (Bytes × List ChatHistoryEntry) :=
  if isChannelTarget target then
    ((srv.getChannel target).filter (·.hasMember u.nick)).map fun ch => (ch.name, ch.history)
  else some (target, u.historySnapshot target)

/-- `Server.handleChatHistory`. -/
def handleChatHistory : M Unit := do
  let srv ← server
  let u := srv.session s
  if ¬ u.capEnabled .chatHistory then
    return ← sendNumeric s .ERR_UNKNOWNCOMMAND [Verb.CHATHISTORY.name, lit "Unknown command"]
  let subcommand := toUpper (msg.param 0)
  if subcommand = lit "TARGETS" then return ← handleChatHistoryTargets s msg
  if msg.params.length ≠ (if subcommand = lit "BETWEEN" then 5 else 4) then
    return ← sendChatHistoryFail s (lit "INVALID_PARAMS") (msg.param 0) (lit "Invalid parameters")
  ((atoi (msg.params.getLastD [])).toOption.filter (0 < ·)).elim
    (sendChatHistoryFail s (lit "INVALID_PARAMS") (msg.param 0) (lit "Invalid limit"))
    fun limit =>
      (storedHistory srv u (msg.param 1)).elim
        (sendChatHistoryFail s (lit "INVALID_TARGET") (msg.param 0)
          (lit "Messages could not be retrieved"))
        fun stored =>
          let selected := selectChatHistory stored.2 subcommand (msg.params.drop 2).dropLast
            (min limit chatHistoryLimit)
          let text := selectFaultText selected
          let code := if contains text (lit "unsupported") then lit "INVALID_MSGREFTYPE"
            else lit "INVALID_PARAMS"
          selected.toOption.elim (sendChatHistoryFail s code (msg.param 0) text) fun result =>
            sendHistoryBatch s (lit "chathistory") stored.1 result.1 result.2

end

end Irc
