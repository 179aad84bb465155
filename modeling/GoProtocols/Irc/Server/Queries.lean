import GoProtocols.Irc.Server.Register

/-!
# Queries and user state

The remaining commands of `irc/server/handlers.go`: queries about users, a session's own state, the
`MONITOR` list, the server's information and the operator commands.
-/

namespace Irc

open Go Prog

section
variable [UnicodeTables] (s : SessionId) (msg : Message) (targets : Bytes) (t : SessionId)

/-! ## Masks -/

/-- `globMatch`. A star with more pattern after it takes a part of the string that ends before some
rune of it, never the whole string. -/
def globMatch : Bytes → Bytes → Bool
  | [], s => s = []
  | c :: pattern, s =>
    if c = 42 then pattern = [] || (suffixes s).any fun t => globMatch pattern t
    else
      match s with
      | [] => false
      | b :: s => (c = 63 || c = b) && globMatch pattern s

def matchMask (mask target : Bytes) : Bool := globMatch (toLower mask) (toLower target)

/-! ## WHO, WHOIS and WHOWAS -/

/-- The reply to `WHO` for a user; `status` is what follows the flag for being away. -/
def sendWhoReply (mask status : Bytes) : M Unit := do
  let cfg ← config
  let srv ← server
  let u := srv.session t
  let flags := (if u.away ≠ [] then lit "G" else lit "H") ++ status
  sendNumeric s .RPL_WHOREPLY
    [mask, u.user, u.host, cfg.name, u.nick, flags, lit "0 " ++ u.realname]

/-- `Server.handleWho`. -/
def handleWho : M Unit := do
  let srv ← server
  let mask := if msg.params = [] then lit "*" else msg.param 0
  (if hasPrefix mask (lit "#") || hasPrefix mask (lit "&") then
    (srv.getChannel mask).elim (return) fun ch => do
      let members ← ch.memberList
      members.forM fun m => sendWhoReply s m.session mask m.status
  else do
    let all ← allSessions
    all.forM fun t =>
      when (matchMask mask (srv.session t).mask || matchMask mask (srv.session t).nick)
        (sendWhoReply s t mask []))
  sendNumeric s .RPL_ENDOFWHO [mask, lit "End of /WHO list"]

/-- The replies to `WHOIS` for a user. -/
def sendWhois : M Unit := do
  let cfg ← config
  let srv ← server
  let u := srv.session t
  sendNumeric s .RPL_WHOISUSER [u.nick, u.user, u.host, lit "*", u.realname]
  when (u.account ≠ [])
    (sendNumeric s .RPL_WHOISACCOUNT [u.nick, u.account, lit "is logged in as"])
  sendNumeric s .RPL_WHOISSERVER [u.nick, cfg.name, cfg.network]
  let channels ← allChannels
  let chans := channels.filterMap fun ch =>
    (ch.2.getMembership u.nick).map fun m => m.status ++ ch.2.name
  when (chans ≠ []) (sendNumeric s .RPL_WHOISCHANNELS [u.nick, join chans (lit " ")])
  when u.isOper (sendNumeric s .RPL_WHOISOPERATOR [u.nick, lit "is an IRC operator"])
  when (u.away ≠ []) (sendNumeric s .RPL_AWAY [u.nick, u.away])
  let at_ ← now
  let idle := (at_.nanos - u.idleAt.nanos).tdiv 1000000000
  sendNumeric s .RPL_WHOISIDLE
    [u.nick, formatInt idle, formatInt u.signOnAt.unix, lit "seconds idle, signon time"]
  sendNumeric s .RPL_ENDOFWHOIS [u.nick, lit "End of /WHOIS list"]

/-- `Server.handleWhois`. -/
def handleWhois : M Unit := do
  if msg.params = [] then return ← sendNumeric s .ERR_NONICKNAMEGIVEN [lit "No nickname given"]
  let srv ← server
  (srv.getSession (msg.param 0)).elim
    (do
      sendNumeric s .ERR_NOSUCHNICK [msg.param 0, lit "No such nick/channel"]
      sendNumeric s .RPL_ENDOFWHOIS [msg.param 0, lit "End of /WHOIS list"])
    (sendWhois s)

/-- `Server.handleWhowas`. -/
def handleWhowas : M Unit := do
  if msg.params = [] then return ← sendNumeric s .ERR_NONICKNAMEGIVEN [lit "No nickname given"]
  let cfg ← config
  let srv ← server
  let found := srv.whowas.reverse.filter fun e => equalFold e.nick (msg.param 0)
  found.forM fun e => do
    sendNumeric s .RPL_WHOWASUSER [e.nick, e.user, e.host, lit "*", e.realname]
    sendNumeric s .RPL_WHOISSERVER [e.nick, cfg.name, e.quitAt.formatLong]
  when (found.isEmpty)
    (sendNumeric s .ERR_WASNOSUCHNICK [msg.param 0, lit "There was no such nickname"])
  sendNumeric s .RPL_ENDOFWHOWAS [msg.param 0, lit "End of WHOWAS"]

/-! ## User state -/

/-- `Server.handleAway`. The session itself is not notified. -/
def handleAway : M Unit := do
  updateSession s fun u => { u with away := msg.param 0 }
  (if msg.param 0 = [] then
    sendNumeric s .RPL_UNAWAY [lit "You are no longer marked as being away"]
  else sendNumeric s .RPL_NOWAWAY [lit "You have been marked as being away"])
  let srv ← server
  let u := srv.session s
  notifyPeers id s .awayNotify
    { source := some u.source, command := Verb.AWAY.name
      params := if u.away ≠ [] then [u.away] else [] } [s]

/-- `Server.handleSetname`. The peers are told apart by their folded nicks. -/
def handleSetname : M Unit := do
  if msg.params = [] then return
  updateSession s fun u => { u with realname := msg.param 0 }
  let srv ← server
  let u := srv.session s
  let setMsg : Message :=
    { source := some u.source, command := Verb.SETNAME.name, params := [u.realname] }
  when (u.capEnabled .setname) (send s setMsg)
  notifyPeers (fun p => toLower (srv.session p).nick) s .setname setMsg [toLower u.nick]

/-- `Server.handleUserhost`. -/
def handleUserhost : M Unit := do
  let srv ← server
  let results := (msg.params.filterMap srv.getSession).map fun t =>
    let u := srv.session t
    u.nick ++ (if u.isOper then lit "*" else []) ++ lit "=" ++
      (if u.away ≠ [] then lit "-" else lit "+") ++ u.user ++ lit "@" ++ u.host
  sendNumeric s .RPL_USERHOST [join results (lit " ")]

/-- `Server.handleIson`. -/
def handleIson : M Unit := do
  let srv ← server
  sendNumeric s .RPL_ISON
    [join (msg.params.filter fun nick => (srv.getSession nick).isSome) (lit " ")]

/-! ## MONITOR -/

def monitorLimit : Nat := 100

/-- What the loop of `MONITOR +` has gathered. -/
structure MonitorAcc where
  monitor : Map Bytes Bytes
  online : List Bytes := []
  offline : List Bytes := []
  rejected : List Bytes := []

/-- Sort a nick among those that are online and those that are not. -/
def MonitorAcc.report (acc : MonitorAcc) (srv : Server) (nick : Bytes) : MonitorAcc :=
  match srv.getSession nick with
  | some t => { acc with online := acc.online ++ [(srv.session t).mask] }
  | none => { acc with offline := acc.offline ++ [nick] }

/-- One round of the loop of `MONITOR +`. -/
def MonitorAcc.add (srv : Server) (acc : MonitorAcc) (nick : Bytes) : MonitorAcc :=
  if ¬ isValidNick nick then acc
  else if toLower nick ∈ acc.monitor then acc.report srv nick
  else if monitorLimit ≤ acc.monitor.entries.length then
    { acc with rejected := acc.rejected ++ [nick] }
  else { acc with monitor := acc.monitor.insert (toLower nick) nick }.report srv nick

def monitorAdd : M Unit := do
  let srv ← server
  let acc := (split targets 44).foldl (MonitorAcc.add srv) { monitor := (srv.session s).monitor }
  updateSession s fun u => { u with monitor := acc.monitor }
  sendMonitorList s .RPL_MONONLINE acc.online
  sendMonitorList s .RPL_MONOFFLINE acc.offline
  when (acc.rejected ≠ []) (sendNumeric s .ERR_MONLISTFULL
    [itoa monitorLimit, join acc.rejected (lit ","), lit "Monitor list is full"])

def monitorRemove : M Unit :=
  updateSession s fun u =>
    { u with monitor := (split targets 44).foldl (fun m nick => m.erase (toLower nick)) u.monitor }

def monitorList : M Unit := do
  let srv ← server
  let list := ((srv.session s).monitor.entries.map Sigma.snd).insertionSort fun a b =>
    toLower a ≤ toLower b
  sendMonitorList s .RPL_MONLIST list
  sendNumeric s .RPL_ENDOFMONLIST [lit "End of MONITOR list"]

def monitorStatus : M Unit := do
  let srv ← server
  let nicks ← rangeOver Sigma.fst (srv.session s).monitor.entries
  let acc := nicks.foldl (fun (acc : MonitorAcc) n => acc.report srv n.2) { monitor := ∅ }
  sendMonitorList s .RPL_MONONLINE acc.online
  sendMonitorList s .RPL_MONOFFLINE acc.offline

/-- `Server.handleMonitor`. -/
def handleMonitor : M Unit := do
  let refuse := sendNumeric s .ERR_NEEDMOREPARAMS [Verb.MONITOR.name, lit "Not enough parameters"]
  if msg.params = [] then return ← refuse
  let sub := toUpper (msg.param 0)
  if sub = lit "+" then
    if msg.params.length < 2 then refuse else monitorAdd s (msg.param 1)
  else if sub = lit "-" then
    if msg.params.length < 2 then refuse else monitorRemove s (msg.param 1)
  else if sub = lit "C" then updateSession s fun u => { u with monitor := ∅ }
  else if sub = lit "L" then monitorList s
  else if sub = lit "S" then monitorStatus s
  else sendNumeric s .ERR_NEEDMOREPARAMS [Verb.MONITOR.name, lit "Invalid MONITOR subcommand"]

/-! ## The server -/

/-- `Server.handlePing`. -/
def handlePing : M Unit := do
  let cfg ← config
  sendServer s .PONG (if msg.params = [] then [cfg.name] else msg.params)

/-- `Server.handleQuit`. The connection is closed; the disconnect follows. -/
def handleQuit : M Unit := do
  let srv ← server
  let reason := if msg.param 0 ≠ [] then msg.param 0 else lit "Quit"
  sendServer s .ERROR
    [lit "Closing Link: " ++ (srv.session s).host ++ lit " (Quit: " ++ reason ++ lit ")"]
  updateSession s fun u => { u with closed := true }

def handleVersion (_msg : Message) : M Unit := do
  let cfg ← config
  sendNumeric s .RPL_VERSION [lit "go-irc-1.0", cfg.name, lit "go-irc"]

def handleTime (_msg : Message) : M Unit := do
  let cfg ← config
  let at_ ← now
  sendNumeric s .RPL_TIME [cfg.name, at_.formatZoned]

def handleAdmin (_msg : Message) : M Unit := do
  let cfg ← config
  sendNumeric s .RPL_ADMINME [cfg.name, lit "Administrative info"]
  sendNumeric s .RPL_ADMINLOC1 [lit "go-irc IRC server"]
  sendNumeric s .RPL_ADMINLOC2 [lit "Running go-irc"]
  sendNumeric s .RPL_ADMINEMAIL [lit "admin@" ++ cfg.name]

def handleInfo (_msg : Message) : M Unit := do
  sendNumeric s .RPL_INFO [lit "go-irc — a Go IRC server"]
  sendNumeric s .RPL_INFO [lit "https://github.com/natalie-o-perret/go-protocols/irc"]
  sendNumeric s .RPL_ENDOFINFO [lit "End of /INFO list"]

def handleStats : M Unit := do
  let query := if msg.params = [] then lit "?" else msg.param 0
  when (toLower query = lit "u") (sendNumeric s .RPL_STATSUPTIME [lit "Server Up 0 days, 0:00:00"])
  sendNumeric s .RPL_ENDOFSTATS [query, lit "End of /STATS report"]

/-! ## Operators -/

def notOperator : M Unit :=
  sendNumeric s .ERR_NOPRIVILEGES [lit "Permission Denied- You're not an IRC operator"]

/-- `Server.handleWallops`. -/
def handleWallops : M Unit := do
  let srv ← server
  let u := srv.session s
  if ¬ u.isOper then return ← notOperator s
  let all ← allSessions
  all.forM fun t =>
    when ((srv.session t).modes.has (rune 'w') || (srv.session t).isOper) (send t
      { source := some u.source, command := Verb.WALLOPS.name, params := [msg.param 0] })

/-- `Server.handleOper`. -/
def handleOper : M Unit := do
  if msg.params.length < 2 then
    return ← sendNumeric s .ERR_NEEDMOREPARAMS [Verb.OPER.name, lit "Not enough parameters"]
  let cfg ← config
  let srv ← server
  let refuse := sendNumeric s .ERR_PASSWDMISMATCH [lit "Password incorrect"]
  (cfg.opers.lookup (msg.param 0)).elim refuse fun hash => do
    let ok ← checkPassword s hash (msg.param 1)
    if ¬ ok then return ← refuse
    updateSession s fun u =>
      { u with isOper := true, modes := (u.modes.apply userValidator [⟨true, rune 'o', []⟩]).1 }
    sendNumeric s .RPL_YOUROPER [lit "You are now an IRC operator"]
    sendServer s .MODE [(srv.session s).nick, lit "+o"]

/-- `Server.handleKill`. The connection of the target is closed; the disconnect follows. -/
def handleKill : M Unit := do
  let srv ← server
  let u := srv.session s
  if ¬ u.isOper then return ← notOperator s
  if msg.params.length < 2 then
    return ← sendNumeric s .ERR_NEEDMOREPARAMS [Verb.KILL.name, lit "Not enough parameters"]
  (srv.getSession (msg.param 0)).elim
    (sendNumeric s .ERR_NOSUCHNICK [msg.param 0, lit "No such nick"]) fun t => do
      send t
        { source := some u.source, command := Verb.ERROR.name
          params := [lit "Killed by " ++ u.nick ++ lit " (" ++ msg.param 1 ++ lit ")"] }
      updateSession t fun t => { t with closed := true }

end

end Irc
