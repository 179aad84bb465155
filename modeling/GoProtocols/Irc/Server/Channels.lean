import GoProtocols.Irc.Server.Messaging

/-!
# Channels

The channel commands of `irc/server/handlers.go`: `JOIN`, `PART`, `TOPIC`, `NAMES`, `LIST`, `KICK`,
`INVITE` and `MODE`.
-/

namespace Irc

open Go Prog

section
variable [UnicodeTables] (s : SessionId) (msg : Message) (chanName : Bytes) (ch : Channel)

/-! ## Names -/

/-- The status characters that `NAMES` shows. -/
def shownStatus (multiPrefix : Bool) (status : Bytes) : Bytes :=
  if multiPrefix then status else status.take 1

/-- `Server.sendNames`. -/
def sendNames : M Unit := do
  let srv ← server
  let u := srv.session s
  let multiPrefix := u.capEnabled .multiPrefix
  let members ← ch.memberList
  let names := members.map fun m =>
    shownStatus multiPrefix m.status ++
      if u.capEnabled .userHostInNames then (srv.session m.session).mask
      else (srv.session m.session).nick
  (nameLines [] 0 names).forM fun line =>
    sendNumeric s .RPL_NAMREPLY [lit "=", ch.name, join line (lit " ")]
  sendNumeric s .RPL_ENDOFNAMES [ch.name, lit "End of /NAMES list"]

/-- `Server.handleNames`. -/
def handleNames : M Unit := do
  let srv ← server
  if msg.params = [] then
    let channels ← allChannels
    return ← channels.forM fun ch =>
      when (ch.2.hasMember (srv.session s).nick) (sendNames s ch.2)
  (split (msg.param 0) 44).forM fun chanName =>
    (srv.getChannel chanName).elim (return) (sendNames s)

/-! ## JOIN -/

def isValidChannelName (name : Bytes) : Bool :=
  2 ≤ name.length && name.length ≤ 64 && (name.head? = some 35 || name.head? = some 38) &&
    !containsAny name (lit " \x07,")

/-- `ChannelRegistry.GetOrCreate`. -/
def getOrCreate (name : Bytes) : M Channel := do
  let srv ← server
  (srv.getChannel name).elim
    (do
      let ch : Channel := { name, createdAt := ← now }
      updateServer fun srv => { srv with channels := srv.channels.insert (toLower name) ch }
      return ch)
    fun ch => return ch

/-- The topic of a channel, as `JOIN` and `TOPIC` report it. -/
def sendTopic : M Unit := do
  if ch.topic = [] then
    return ← sendNumeric s .RPL_NOTOPIC [chanName, lit "No topic is set"]
  sendNumeric s .RPL_TOPIC [chanName, ch.topic]
  sendNumeric s .RPL_TOPICWHOTIME [chanName, ch.topicSetBy, formatInt ch.topicSetAt.unix]

/-- The limit of a channel keeps a session out. -/
def isFull : Bool :=
  (ch.modes.arg (rune 'l')).any fun limit =>
    let n := (sscanInt limit).getD 0
    0 < n ∧ n ≤ ch.members.entries.length

/-- Tell the channel of a new member, and the member of the channel. -/
def announceJoin : M Unit := do
  let srv ← server
  let u := srv.session s
  let account := if u.account = [] then lit "*" else u.account
  let members ← ch.memberList
  members.forM fun m =>
    send m.session
      { source := some u.source, command := Verb.JOIN.name
        params := chanName ::
          if (srv.session m.session).capEnabled .extendedJoin then [account, u.realname] else [] }
  sendTopic s chanName ch
  when (¬ u.capEnabled .noImplicitNames) (sendNames s ch)

/-- One round of the loop of `JOIN`. -/
def joinChannel (chanName key : Bytes) : M Unit := do
  let srv ← server
  let nick := (srv.session s).nick
  if chanName = [] then return
  if ¬ isValidChannelName chanName then
    return ← sendNumeric s .ERR_NOSUCHCHANNEL [chanName, lit "Invalid channel name"]
  let ch ← getOrCreate chanName
  if (ch.modes.arg (rune 'k')).any (· ≠ key) then
    return ← sendNumeric s .ERR_BADCHANNELKEY [chanName, lit "Cannot join channel (+k)"]
  if ch.modes.has (rune 'i') ∧ ¬ ch.hasMember nick then
    return ← sendNumeric s .ERR_INVITEONLYCHAN [chanName, lit "Cannot join channel (+i)"]
  if isFull ch then
    return ← sendNumeric s .ERR_CHANNELISFULL [chanName, lit "Cannot join channel (+l)"]
  if ch.hasMember nick then return
  let status := if ch.members.entries = [] then lit "@" else []
  updateChannel (toLower chanName) fun ch => ch.addMember s nick status
  announceJoin s chanName (ch.addMember s nick status)

/-- `Server.handleJoin`. -/
def handleJoin : M Unit := do
  if msg.params = [] then
    return ← sendNumeric s .ERR_NEEDMOREPARAMS [Verb.JOIN.name, lit "Not enough parameters"]
  let keys := if 2 ≤ msg.params.length then split (msg.param 1) 44 else []
  (split (msg.param 0) 44).zipIdx.forM fun c => joinChannel s c.1 (keys.getD c.2 [])

/-! ## PART and KICK -/

/-- Remove a member from the channel under a key; if none is left, `ChannelRegistry.Remove` the
name. -/
def Server.removeMember (srv : Server) (key name nick : Bytes) : Server :=
  match srv.channels.lookup key with
  | none => srv
  | some ch =>
    let srv' := { srv with channels := srv.channels.insert key (ch.removeMember nick) }
    if (ch.removeMember nick).members.entries = [] then srv'.removeChannel name else srv'

/-- One round of the loop of `PART`. -/
def partChannel (reason chanName : Bytes) : M Unit := do
  let srv ← server
  let u := srv.session s
  (srv.getChannel chanName).elim
    (sendNumeric s .ERR_NOSUCHCHANNEL [chanName, lit "No such channel"]) fun ch => do
      if ¬ ch.hasMember u.nick then
        return ← sendNumeric s .ERR_NOTONCHANNEL [chanName, lit "You're not on that channel"]
      broadcast ch
        { source := some u.source, command := Verb.PART.name
          params := chanName :: if reason ≠ [] then [reason] else [] } none
      updateServer fun srv => srv.removeMember (toLower chanName) chanName u.nick

/-- `Server.handlePart`. -/
def handlePart : M Unit := do
  if msg.params = [] then
    return ← sendNumeric s .ERR_NEEDMOREPARAMS [Verb.PART.name, lit "Not enough parameters"]
  (split (msg.param 0) 44).forM (partChannel s (msg.param 1))

/-- The status characters of a channel operator. -/
def isOperator (status : Bytes) : Bool := containsAny status (lit "@&~")

/-- `Server.handleKick`. -/
def handleKick : M Unit := do
  if msg.params.length < 2 then
    return ← sendNumeric s .ERR_NEEDMOREPARAMS [Verb.KICK.name, lit "Not enough parameters"]
  let srv ← server
  let u := srv.session s
  let chanName := msg.param 0
  let target := msg.param 1
  let reason := if 3 ≤ msg.params.length then msg.param 2 else u.nick
  (srv.getChannel chanName).elim
    (sendNumeric s .ERR_NOSUCHCHANNEL [chanName, lit "No such channel"]) fun ch =>
      (ch.getMembership u.nick).elim
        (sendNumeric s .ERR_NOTONCHANNEL [chanName, lit "You're not on that channel"]) fun m => do
          if ¬ isOperator m.status then
            return ← sendNumeric s .ERR_CHANOPRIVSNEEDED
              [chanName, lit "You're not channel operator"]
          if ¬ ch.hasMember target then
            return ← sendNumeric s .ERR_USERNOTINCHANNEL
              [target, chanName, lit "They aren't on that channel"]
          broadcast ch
            { source := some u.source, command := Verb.KICK.name
              params := [chanName, target, reason] } none
          updateServer fun srv => srv.removeMember (toLower chanName) chanName target

/-! ## TOPIC, LIST and INVITE -/

/-- `Server.handleTopic`. -/
def handleTopic : M Unit := do
  if msg.params = [] then
    return ← sendNumeric s .ERR_NEEDMOREPARAMS [Verb.TOPIC.name, lit "Not enough parameters"]
  let srv ← server
  let u := srv.session s
  let chanName := msg.param 0
  (srv.getChannel chanName).elim
    (sendNumeric s .ERR_NOSUCHCHANNEL [chanName, lit "No such channel"]) fun ch => do
      if ¬ ch.hasMember u.nick then
        return ← sendNumeric s .ERR_NOTONCHANNEL [chanName, lit "You're not on that channel"]
      if msg.params.length < 2 then return ← sendTopic s chanName ch
      if ch.modes.has (rune 't') ∧
          ¬ isOperator (((ch.getMembership u.nick).map Membership.status).getD []) then
        return ← sendNumeric s .ERR_CHANOPRIVSNEEDED [chanName, lit "You're not channel operator"]
      let at_ ← now
      updateChannel (toLower chanName) fun ch =>
        { ch with topic := msg.param 1, topicSetBy := u.mask, topicSetAt := at_ }
      broadcast ch
        { source := some u.source, command := Verb.TOPIC.name
          params := [chanName, msg.param 1] } none

/-- `Server.handleList`. -/
def handleList (_msg : Message) : M Unit := do
  let srv ← server
  sendNumeric s .RPL_LISTSTART [lit "Channel", lit "Users  Name"]
  let channels ← allChannels
  channels.forM fun ch =>
    when (¬ (ch.2.modes.has (rune 's') || ch.2.modes.has (rune 'p')) ∨
        ch.2.hasMember (srv.session s).nick)
      (sendNumeric s .RPL_LIST [ch.2.name, itoa ch.2.members.entries.length, ch.2.topic])
  sendNumeric s .RPL_LISTEND [lit "End of /LIST"]

/-- `Server.handleInvite`. -/
def handleInvite : M Unit := do
  if msg.params.length < 2 then
    return ← sendNumeric s .ERR_NEEDMOREPARAMS [Verb.INVITE.name, lit "Not enough parameters"]
  let srv ← server
  let u := srv.session s
  let target := msg.param 0
  let chanName := msg.param 1
  let invite : Message :=
    { source := some u.source, command := Verb.INVITE.name, params := [target, chanName] }
  (srv.getSession target).elim
    (sendNumeric s .ERR_NOSUCHNICK [target, lit "No such nick/channel"]) fun dest => do
      if (srv.getChannel chanName).any fun ch => !ch.hasMember u.nick then
        return ← sendNumeric s .ERR_NOTONCHANNEL [chanName, lit "You're not on that channel"]
      sendNumeric s .RPL_INVITING [target, chanName]
      send dest invite
      (srv.getChannel chanName).elim (return) fun ch => do
        let members ← ch.memberList
        members.forM fun m =>
          when (m.session ≠ s ∧ (srv.session m.session).capEnabled .inviteNotify)
            (send m.session invite)

/-! ## MODE -/

/-- `Set.String`. -/
def modeString (modes : ModeSet) : M Bytes := do
  let flags ← rangeOver (fun f => encodeRune f.1) modes.flags.entries
  let args ← rangeOver (fun a => encodeRune a.1) modes.args.entries
  return ModeSet.string flags args

/-- A membership with a status character added or removed, the characters in their order. -/
def changeStatus (status : Bytes) (add : Bool) (c : UInt8) : Bytes :=
  let current := status.filter (· ≠ c)
  let current := if add then current ++ [c] else current
  (lit "~&@%+").filter fun candidate => candidate ∈ current

/-- `Channel.applyMembershipMode`: nothing if the change has no effect. -/
def Channel.applyMembershipMode (change : ModeChange) : Option Channel :=
  match statusModes.find? fun p => p.2.toNat = change.mode with
  | none => none
  | some p =>
    if change.arg = [] then none
    else
      match ch.getMembership change.arg with
      | none => none
      | some m =>
        let status := changeStatus m.status change.add p.1
        if m.status = status then none
        else some { ch with members := ch.members.insert (toLower change.arg) { m with status } }

/-- One round of the loop of `handleChannelMode`: the channel and the changes applied so far. -/
def applyChannelMode (acc : Channel × List ModeChange) (change : ModeChange) :
    Channel × List ModeChange :=
  let (ch, applied) := acc
  if containsRune (lit "qaohv") change.mode then
    match ch.applyMembershipMode change with
    | none => acc
    | some ch => (ch, applied ++ [change])
  else
    let result := ch.modes.apply channelValidator [change]
    ({ ch with modes := result.1 }, applied ++ result.2)

/-- `Server.handleChannelMode`. -/
def handleChannelMode (chanName : Bytes) : M Unit := do
  let srv ← server
  let u := srv.session s
  (srv.getChannel chanName).elim
    (sendNumeric s .ERR_NOSUCHCHANNEL [chanName, lit "No such channel"]) fun ch => do
      if msg.params.length < 2 then
        sendNumeric s .RPL_CHANNELMODEIS [chanName, ← modeString ch.modes]
        return ← sendNumeric s .RPL_CREATIONTIME [chanName, formatInt ch.createdAt.unix]
      let query := ((msg.param 1).headD 0).toNat
      if msg.params.length = 2 ∧ (msg.param 1).length = 1 ∧ channelValidator.type query = .list then
        (ch.modes.list query).forM fun entry => sendNumeric s .RPL_BANLIST [chanName, entry]
        return ← sendNumeric s .RPL_ENDOFBANLIST [chanName, lit "End of ban list"]
      (ch.getMembership u.nick).elim
        (sendNumeric s .ERR_NOTONCHANNEL [chanName, lit "You're not on that channel"]) fun m => do
          if ¬ isOperator m.status ∧ ¬ u.isOper then
            return ← sendNumeric s .ERR_CHANOPRIVSNEEDED
              [chanName, lit "You're not channel operator"]
          let changes := parseModeString (msg.param 1) (msg.params.drop 2)
          let applied := (changes.foldl applyChannelMode (ch, [])).2
          updateChannel (toLower chanName) fun ch => (changes.foldl applyChannelMode (ch, [])).1
          let formatted := formatModeChanges applied
          when (applied ≠ []) (broadcast ch
            { source := some u.source, command := Verb.MODE.name
              params := chanName :: formatted.1 :: formatted.2 } none)

/-- `Server.handleUserMode`. -/
def handleUserMode (target : Bytes) : M Unit := do
  let srv ← server
  let u := srv.session s
  if ¬ equalFold target u.nick ∧ ¬ u.isOper then
    return ← sendNumeric s .ERR_USERSDONTMATCH [lit "Cannot change mode for other users"]
  (srv.getSession target).elim
    (sendNumeric s .ERR_NOSUCHNICK [target, lit "No such nick"]) fun dest => do
      if msg.params.length < 2 then
        return ← sendNumeric s .RPL_UMODEIS [← modeString (srv.session dest).modes]
      let changes := parseModeString (msg.param 1) (msg.params.drop 2)
      let applied := ((srv.session dest).modes.apply userValidator changes).2
      updateSession dest fun d => { d with modes := (d.modes.apply userValidator changes).1 }
      let formatted := formatModeChanges applied
      when (applied ≠ []) (send dest
        { source := some u.source, command := Verb.MODE.name
          params := target :: formatted.1 :: formatted.2 })

/-- `Server.handleMode`. -/
def handleMode : M Unit := do
  if msg.params = [] then
    return ← sendNumeric s .ERR_NEEDMOREPARAMS [Verb.MODE.name, lit "Not enough parameters"]
  if isChannelTarget (msg.param 0) then handleChannelMode s msg (msg.param 0)
  else handleUserMode s msg (msg.param 0)

end

end Irc
