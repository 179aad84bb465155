import GoProtocols.Go.Net
import GoProtocols.Irc.Server.Caps
import GoProtocols.Irc.Server.Channels
import GoProtocols.Irc.Server.Queries
import GoProtocols.Lib.Run

/-!
# The server as a system

`dispatch`, the life of a session (`acceptLoop`, `startSession`, `handleSession`, `removeSession`),
and the server as a system of events: a client connects, sends a line, or is gone. Commands run one
at a time.
-/

namespace Irc

open Go Prog

section
variable [UnicodeTables] (s : SessionId) (msg : Message) (addr : Bytes) (secure : Bool)
  (serverName : Bytes) (cmd : Bytes) (u : Session) (ch : Sigma fun _ : Bytes => Channel)

/-! ## Dispatch -/

/-- The second switch of `dispatch`, for registered sessions. -/
def dispatchRegistered : M Unit :=
  match verbOf cmd with
  | some .JOIN => handleJoin s msg
  | some .PART => handlePart s msg
  | some .TOPIC => handleTopic s msg
  | some .NAMES => handleNames s msg
  | some .LIST => handleList s msg
  | some .KICK => handleKick s msg
  | some .INVITE => handleInvite s msg
  | some .MODE => handleMode s msg
  | some .PRIVMSG => handlePrivmsg s msg false
  | some .NOTICE => handlePrivmsg s msg true
  | some .TAGMSG => handleTagmsg s msg
  | some .CHATHISTORY => handleChatHistory s msg
  | some .WHO => handleWho s msg
  | some .WHOIS => handleWhois s msg
  | some .WHOWAS => handleWhowas s msg
  | some .AWAY => handleAway s msg
  | some .NICK => handleNickRegistered s msg
  | some .USERHOST => handleUserhost s msg
  | some .ISON => handleIson s msg
  | some .MONITOR => handleMonitor s msg
  | some .PING => handlePing s msg
  | some .MOTD => sendMOTD s
  | some .LUSERS => sendLusers s
  | some .VERSION => handleVersion s msg
  | some .TIME => handleTime s msg
  | some .ADMIN => handleAdmin s msg
  | some .INFO => handleInfo s msg
  | some .STATS => handleStats s msg
  | some .WALLOPS => handleWallops s msg
  | some .OPER => handleOper s msg
  | some .KILL => handleKill s msg
  | some .SETNAME => handleSetname s msg
  | _ => sendNumeric s .ERR_UNKNOWNCOMMAND [cmd, lit "Unknown command"]

/-- What `dispatch` does with the commands that it does not allow before registration. -/
def dispatchOther : M Unit := do
  let srv ← server
  if (srv.session s).state ≠ .registered then
    return ← sendNumeric s .ERR_NOTREGISTERED [lit "You have not registered"]
  dispatchRegistered s msg cmd

/-- `Server.dispatch`. -/
def dispatch : M Unit :=
  match verbOf (toUpper msg.command) with
  | some .CAP => handleCAP s msg
  | some .PASS => handlePass s msg
  | some .NICK => handleNick s msg
  | some .USER => handleUser s msg
  | some .QUIT => handleQuit s msg
  | some .PING => handlePing s msg
  | some .PONG => return
  | some .AUTHENTICATE => handleAuthenticate s msg
  | _ => dispatchOther s msg (toUpper msg.command)

/-- The label under which the answers to a message are captured. -/
def responseLabel (msg : Message) : Option Bytes :=
  (msg.tags.lookup (lit "label")).filter fun label =>
    label ≠ [] && label.length ≤ 64 && msg.command ≠ Verb.QUIT.name &&
      u.capEnabled .labeledResponse && u.capEnabled .batch

/-- `Server.dispatchCommand`. -/
def dispatchCommand : M Unit := do
  let srv ← server
  (responseLabel (srv.session s) msg).elim (dispatch s msg) fun label => do
    beginResponse s label
    dispatch s msg
    let response ← finishResponse s
    sendPrepared s response

/-- One round of the loop of `handleSession`. -/
def handleLine (line : Bytes) : M Unit := do
  if inputTooLong line then
    return ← sendNumeric s .ERR_INPUTTOOLONG [lit "Input line was too long"]
  (parse line).toOption.elim (return) fun msg => do
    let idleAt ← now
    updateSession s fun u => { u with idleAt := idleAt }
    dispatchCommand s msg

/-! ## The life of a session -/

/-- `newSession` and `startSession`: a session as it begins. -/
def newSession (idleAt signOnAt : Time) : Session :=
  { host := (splitHostPort addr).1, secure, serverName, idleAt, signOnAt, connected := true
    modes := if secure then (ModeSet.apply userValidator {} [⟨true, rune 'z', []⟩]).1 else {} }

/-- `acceptLoop` and `startSession` for a connection. -/
def connect : M Unit := do
  let cfg ← config
  let srv ← server
  if 0 < cfg.maxClients ∧ cfg.maxClients < srv.clientsCurrent + 1 then return
  let idleAt ← now
  let signOnAt ← now
  updateServer fun srv =>
    { srv with
      session := Function.update srv.session srv.allocated
        (newSession addr secure serverName idleAt signOnAt)
      allocated := srv.allocated + 1
      clientsTotal := srv.clientsTotal + 1
      clientsCurrent := srv.clientsCurrent + 1 }

/-- The ring buffer of `WHOWAS` with one more entry. -/
def appendWhowas (whowas : List WhowasEntry) (entry : WhowasEntry) : List WhowasEntry :=
  if 256 < (whowas ++ [entry]).length then (whowas ++ [entry]).drop 1 else whowas ++ [entry]

/-- One round of the loop of `removeSession`. -/
def leaveChannel : M Unit :=
  when (ch.2.hasMember u.nick) do
    broadcast ch.2
      { source := some u.source, command := Verb.QUIT.name, params := [lit "Connection closed"] }
      (some s)
    updateServer fun srv => srv.removeMember ch.1 ch.2.name u.nick

/-- `Server.removeSession`. -/
def removeSession : M Unit := do
  let srv ← server
  let u := srv.session s
  if u.nick = [] then return
  let quitAt ← now
  updateServer fun srv =>
    { srv with whowas := appendWhowas srv.whowas ⟨u.nick, u.user, u.host, u.realname, quitAt⟩ }
  let channels ← allChannels
  channels.forM (leaveChannel s u)
  updateServer fun srv => { srv with sessions := srv.sessions.erase (toLower u.nick) }
  notifyMonitorOffline u.nick

/-- The end of `handleSession`. -/
def disconnect : M Unit := do
  updateServer fun srv => { srv with clientsCurrent := srv.clientsCurrent - 1 }
  removeSession s
  updateSession s fun u => { u with connected := false }

/-! ## Runs -/

inductive Event
  | connect (addr : Bytes) (secure : Bool) (serverName : Bytes)
  | line (s : SessionId) (raw : Bytes)
  | disconnect (s : SessionId)
  deriving DecidableEq

def Event.exec : Event → M Unit
  | .connect addr secure serverName => Irc.connect addr secure serverName
  | .line s raw => handleLine s raw
  | .disconnect s => Irc.disconnect s

/-- An event of a session needs the session to be connected. -/
def Event.enabled (st : State) : Event → Prop
  | .connect _ _ _ => True
  | .line s _ | .disconnect s => (st.srv.session s).connected = true

/-- **The server**, from its start. -/
def ircd (env : Env) : System State Event where
  init := {}
  enabled st e := e.enabled st
  step st e := (e.exec env st).2

end

end Irc
