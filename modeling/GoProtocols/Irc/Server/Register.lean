import GoProtocols.Go.Base64
import GoProtocols.Irc.Server.Send

/-!
# Registration

The handshake of `irc/server/handlers.go`: `PASS`, `NICK`, `USER`, capability negotiation and SASL,
with the notifications that a new nick, account or host causes.
-/

namespace Irc

open Go Prog

section
variable [UnicodeTables] (s : SessionId) (msg : Message) (ch : Rune) (target : SessionId)
  (nick : Bytes)

/-! ## Notifications -/

/-- `Server.notifyMonitorOnline`. -/
def notifyMonitorOnline : M Unit := do
  let srv ← server
  let u := srv.session target
  let watchers ← allSessions
  watchers.forM fun w =>
    when (w ≠ target ∧ (srv.session w).isMonitoring u.nick)
      (sendMonitorList w .RPL_MONONLINE [u.mask])

/-- `Server.notifyMonitorOffline`. -/
def notifyMonitorOffline : M Unit := do
  let srv ← server
  let watchers ← allSessions
  watchers.forM fun w =>
    when ((srv.session w).isMonitoring nick) (sendMonitorList w .RPL_MONOFFLINE [nick])

/-- `Server.extendedMonitorPeers`. -/
def extendedMonitorPeers (cap : Capability) : M (List SessionId) := do
  let srv ← server
  let watchers ← allSessions
  return watchers.filter fun w =>
    w ≠ target && (srv.session w).capEnabled .extendedMonitor && (srv.session w).capEnabled cap &&
      (srv.session w).isMonitoring (srv.session target).nick

/-- Send `msg` to a peer with the capability, unless its key is among those that were notified. -/
def notifyPeer {κ : Type} [DecidableEq κ] (key : SessionId → κ) (cap : Capability) (msg : Message)
    (notified : List κ) (peer : SessionId) : M (List κ) := do
  let srv ← server
  if key peer ∈ notified ∨ ¬ (srv.session peer).capEnabled cap then return notified
  send peer msg
  return key peer :: notified

/-- Send `msg` to the sessions with the capability that share a channel with `s`, or watch it with
`extended-monitor`, each at most once. The sessions are told apart by `key`. -/
def notifyPeers {κ : Type} [DecidableEq κ] (key : SessionId → κ) (s : SessionId) (cap : Capability)
    (msg : Message) (notified : List κ) : M Unit := do
  let srv ← server
  let channels ← allChannels
  let notified ← channels.foldlM (fun notified ch =>
    if ch.2.hasMember (srv.session s).nick then do
      let members ← ch.2.memberList
      (members.map Membership.session).foldlM (notifyPeer key cap msg) notified
    else return notified) notified
  let peers ← extendedMonitorPeers s cap
  let _ ← peers.foldlM (notifyPeer key cap msg) notified
  return

/-- `Server.notifyAccount`. -/
def notifyAccount (source : Prefix) : M Unit := do
  let srv ← server
  let u := srv.session s
  let msg : Message :=
    { source := some source, command := Verb.ACCOUNT.name, params := [u.account] }
  when (u.capEnabled .accountNotify) (send s msg)
  notifyPeers id s .accountNotify msg (if u.capEnabled .accountNotify then [s] else [])

/-- The status characters with their modes. -/
def statusModes : List (UInt8 × UInt8) := [(126, 113), (38, 97), (64, 111), (37, 104), (43, 118)]

/-- What a peer without `chghost` is told of a new host, in one channel that it shares: a join, and
a mode for every status. -/
def sendRejoin (peer : SessionId) (ch : Channel) : M Unit := do
  let srv ← server
  let u := srv.session s
  let more := if (srv.session peer).capEnabled .extendedJoin then [u.account, u.realname] else []
  send peer
    { source := some u.source, command := Verb.JOIN.name, params := ch.name :: more }
  (ch.getMembership u.nick).elim (return) fun m =>
    statusModes.forM fun status =>
      when (status.1 ∈ m.status)
        (sendServer peer .MODE [ch.name, [43, status.2], u.nick])

/-- `Server.notifyHostChange`. -/
def notifyHostChange (oldPrefix : Prefix) : M Unit := do
  let srv ← server
  let u := srv.session s
  let msg : Message :=
    { source := some oldPrefix, command := Verb.CHGHOST.name, params := [u.user, u.host] }
  when (u.capEnabled .chghost) (send s msg)
  let channels ← allChannels
  -- the peers that share a channel, each with the shared channels
  let shared ← channels.foldlM (fun (shared : Map SessionId (List Channel)) ch =>
    if ch.2.hasMember u.nick then do
      let members ← ch.2.memberList
      return members.foldl (fun shared m =>
        if m.session = s then shared
        else shared.insert m.session ((shared.lookup m.session).getD [] ++ [ch.2])) shared
    else return shared) ∅
  let peers ← rangeOver (fun p => itoa p.1) shared.entries
  peers.forM fun p =>
    if (srv.session p.1).capEnabled .chghost then send p.1 msg
    else do
      send p.1
        { source := some oldPrefix, command := Verb.QUIT.name, params := [lit "Changing hostname"] }
      p.2.forM (sendRejoin s p.1)
  let notified := s :: (peers.map Sigma.fst).filter fun p => (srv.session p).capEnabled .chghost
  let watchers ← extendedMonitorPeers s .chghost
  let _ ← watchers.foldlM (notifyPeer id .chghost msg) notified
  return

/-! ## Nicks -/

def isLetter : Bool := (97 ≤ ch && ch ≤ 122) || (65 ≤ ch && ch ≤ 90)

def isDigit : Bool := 48 ≤ ch && ch ≤ 57

/-- The other characters with which a nick may begin: underscore, backslash, brackets, braces, bar,
caret and back quote. -/
def isNickSpecial : Bool :=
  ch = 95 ∨ ch = 92 ∨ ch = 91 ∨ ch = 93 ∨ ch = 123 ∨ ch = 125 ∨ ch = 124 ∨ ch = 94 ∨ ch = 96

def isValidNick : Bool :=
  if nick.length = 0 ∨ 30 < nick.length then false
  else
    match runes nick with
    | [] => true
    | first :: rest =>
      (isLetter first || isNickSpecial first) &&
        rest.all fun ch => isLetter ch || isDigit ch || ch == 45 || isNickSpecial ch

/-- `Registry.Add`, and the new state: nothing if the nick is in use. -/
def Server.register (srv : Server) (s : SessionId) : Option Server :=
  let key := toLower (srv.session s).nick
  if key ∈ srv.sessions then none
  else
    some { srv.setSession s fun u => { u with state := .registered } with
           sessions := srv.sessions.insert key s }

/-- `Server.isupport`. -/
def isupport (cfg : Config) : List Bytes :=
  (lit "NETWORK=" ++ cfg.network) ::
    [lit "CASEMAPPING=ascii", lit "CHANMODES=beIq,k,l,imnpstrcCzGSNufjQKLPOARTF",
      lit "CHANTYPES=#&", lit "PREFIX=(qaohv)~&@%+", lit "STATUSMSG=@+", lit "MODES=4",
      lit "MAXCHANNELS=25", lit "MAXNICKLEN=30", lit "MAXBANS=100", lit "TOPICLEN=390",
      lit "KICKLEN=255", lit "AWAYLEN=307", lit "CHANNELLEN=64", lit "EXTBAN=$,ajoqrz", lit "WHOX",
      lit "WALLCHOPS", lit "ELIST=MNUCT", lit "INVEX", lit "EXCEPTS", lit "CALLERID",
      lit "MONITOR=100", lit "CHATHISTORY=50", lit "MSGREFTYPES=timestamp,msgid"]

/-- `Server.sendMOTD`. -/
def sendMOTD : M Unit := do
  let cfg ← config
  if cfg.motd = [] then return ← sendNumeric s .ERR_NOMOTD [lit "MOTD File is missing"]
  sendNumeric s .RPL_MOTDSTART [lit "- " ++ cfg.name ++ lit " Message of the Day -"]
  (split cfg.motd 10).forM fun line => sendNumeric s .RPL_MOTD [lit "- " ++ line]
  sendNumeric s .RPL_ENDOFMOTD [lit "End of /MOTD command."]

/-- `Server.sendLusers`. -/
def sendLusers : M Unit := do
  let srv ← server
  let total := itoa srv.sessions.entries.length
  sendNumeric s .RPL_LUSERCLIENT [lit "There are " ++ total ++ lit " users on 1 server"]
  sendNumeric s .RPL_LUSERCHANNELS [itoa srv.channels.entries.length, lit "channels formed"]
  sendNumeric s .RPL_LUSERME [lit "I have " ++ total ++ lit " clients and 0 servers"]

/-- The batches of thirteen in which `tryRegister` sends the tokens of `isupport`. The text after a
full batch is appended in place and overwrites the first token of the next one, since the batch is
a slice of the array that holds them all. -/
def isupportLines (text : Bytes) : Nat → List Bytes → List (List Bytes)
  | 0, _ => []
  | fuel + 1, tokens =>
    if tokens = [] then []
    else if 13 < tokens.length then
      (tokens.take 13 ++ [text]) :: isupportLines text fuel (text :: tokens.drop 14)
    else [tokens ++ [text]]

/-- The replies to a session that has registered. -/
def sendWelcome : M Unit := do
  let cfg ← config
  let srv ← server
  sendNumeric s .RPL_WELCOME
    [lit "Welcome to the " ++ cfg.network ++ lit " IRC Network " ++ (srv.session s).mask]
  sendNumeric s .RPL_YOURHOST [lit "Your host is " ++ cfg.name ++ lit ", running go-irc"]
  sendNumeric s .RPL_CREATED [lit "This server was created just now"]
  sendNumeric s .RPL_MYINFO [cfg.name, lit "go-irc-1.0", lit "iowzBGHRSXZaegimnpstv",
    lit "beIqaohvIMRScOAQKFLPTuGzjf"]
  let tokens := isupport cfg
  (isupportLines (lit "are supported by this server") tokens.length tokens).forM fun params =>
    sendNumeric s .RPL_ISUPPORT params
  sendLusers s
  sendMOTD s

/-- `Server.tryRegister`. -/
def tryRegister : M Unit := do
  let srv ← server
  let u := srv.session s
  if u.state = .registered then return
  if u.state = .capNeg then return
  if u.nick = [] ∨ u.user = [] then return
  (srv.register s).elim
    (do
      sendNumeric s .ERR_NICKNAMEINUSE [u.nick, lit "Nickname is already in use"]
      updateSession s fun u => { u with nick := [] })
    fun srv' => do
      updateServer fun _ => srv'
      notifyMonitorOnline s
      sendWelcome s

/-- `Server.handlePass`. The password is not looked at. -/
def handlePass (_msg : Message) : M Unit := do
  let srv ← server
  when ((srv.session s).state = .registered)
    (sendNumeric s .ERR_ALREADYREGISTRED [lit "You may not reregister"])

/-- `Server.handleNick`. -/
def handleNick : M Unit := do
  let srv ← server
  if msg.params = [] then return ← sendNumeric s .ERR_NONICKNAMEGIVEN [lit "No nickname given"]
  let nick := msg.param 0
  if ¬ isValidNick nick then
    return ← sendNumeric s .ERR_ERRONEUSNICKNAME [nick, lit "Erroneous Nickname"]
  if (srv.getSession nick).isSome ∧ ¬ equalFold nick (srv.session s).nick then
    return ← sendNumeric s .ERR_NICKNAMEINUSE [nick, lit "Nickname is already in use"]
  updateSession s fun u => { u with nick := nick }
  tryRegister s

/-- `Registry.Rename`. -/
def Server.rename (srv : Server) (oldNick newNick : Bytes) : Option Server :=
  if toLower oldNick = toLower newNick then some srv
  else
    match srv.sessions.lookup (toLower oldNick) with
    | none => none
    | some t =>
      if toLower newNick ∈ srv.sessions then none
      else
        some { srv with
               sessions := (srv.sessions.erase (toLower oldNick)).insert (toLower newNick) t }

/-- Put the membership of the old nick under the new one. -/
def Channel.renameMember (ch : Channel) (oldNick newNick : Bytes) : Channel :=
  match ch.getMembership oldNick with
  | none => ch
  | some m =>
    { ch with members := (ch.members.erase (toLower oldNick)).insert (toLower newNick) m }

/-- `Server.handleNickRegistered`. `dispatch` never gets here: it hands every `NICK` to
`handleNick`. -/
def handleNickRegistered : M Unit := do
  let srv ← server
  if msg.params = [] then return ← sendNumeric s .ERR_NONICKNAMEGIVEN [lit "No nickname given"]
  let u := srv.session s
  let newNick := msg.param 0
  if ¬ isValidNick newNick then
    return ← sendNumeric s .ERR_ERRONEUSNICKNAME [newNick, lit "Erroneous Nickname"]
  if (srv.getSession newNick).isSome ∧ ¬ equalFold newNick u.nick then
    return ← sendNumeric s .ERR_NICKNAMEINUSE [newNick, lit "Nickname is already in use"]
  (srv.rename u.nick newNick).elim
    (sendNumeric s .ERR_NICKNAMEINUSE [newNick, lit "Nickname is already in use"])
    fun srv' => do
      updateServer fun _ => srv'.setSession s fun u => { u with nick := newNick }
      when (¬ equalFold u.nick newNick) do
        notifyMonitorOffline u.nick
        notifyMonitorOnline s
      let nickMsg : Message :=
        { tags := if u.account ≠ [] then Map.ofList [(lit "account", u.account)] else ∅
          source := some u.source, command := Verb.NICK.name, params := [newNick] }
      send s nickMsg
      let channels ← allChannels
      let _ ← channels.foldlM (fun notified ch =>
        if ch.2.hasMember u.nick || ch.2.hasMember newNick then do
          updateChannel ch.1 fun ch => ch.renameMember u.nick newNick
          let members ← (ch.2.renameMember u.nick newNick).memberList
          members.foldlM (fun notified m => do
            let srv ← server
            let key := toLower (srv.session m.session).nick
            if key ∈ notified then return notified
            send m.session nickMsg
            return key :: notified) notified
        else return notified) [toLower u.nick]
      return

def cleanUsername (u : Bytes) : Bytes := (trimPrefix u (lit "~")).take 10

/-- `Server.handleUser`. -/
def handleUser : M Unit := do
  let srv ← server
  if (srv.session s).state = .registered then
    return ← sendNumeric s .ERR_ALREADYREGISTRED [lit "You may not reregister"]
  if msg.params.length < 4 then
    return ← sendNumeric s .ERR_NEEDMOREPARAMS [Verb.USER.name, lit "Not enough parameters"]
  updateSession s fun u => { u with user := cleanUsername (msg.param 0), realname := msg.param 3 }
  tryRegister s

end

end Irc
