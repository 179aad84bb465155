import GoProtocols.Irc.ChatHistory
import GoProtocols.Irc.Mode
import GoProtocols.Lib.Prog

/-!
# The state of the IRC server

The data of `irc/server/server.go`. A pointer to a session is its number, and `Server.session` is
the heap. A channel is reached only through the channel registry while commands run one at a time,
so the registry holds it by value. What the server writes is kept apart (`Output`), with every
message next to its line.

`Env` is what the server reads and never writes: its configuration, the clock, the random texts,
the outcome of the bcrypt check, and the order in which maps are visited. The clock, the texts and
the orders are indexed by the number of reads so far, so that nothing about them is fixed.

Connections and the locks are not modelled. A write that fails closes the connection, and what
follows from that is what follows from a disconnect.
-/

namespace Irc

open Go

/-! ## Sessions and channels -/

inductive SessionState
  | preReg
  | capNeg
  | registered
  deriving DecidableEq

abbrev SessionId := Nat

structure Session where
  nick : Bytes := []
  user : Bytes := []
  host : Bytes := []
  realname : Bytes := []
  account : Bytes := []
  away : Bytes := []
  secure : Bool := false
  serverName : Bytes := []
  modes : ModeSet := {}
  caps : Map Bytes Bool := ∅
  history : Map Bytes (List ChatHistoryEntry) := ∅
  state : SessionState := .preReg
  monitor : Map Bytes Bytes := ∅
  capVersion : Int := 0
  saslActive : Bool := false
  saslBuffer : Bytes := []
  idleAt : Time := ⟨0, 0⟩
  signOnAt : Time := ⟨0, 0⟩
  isOper : Bool := false
  /-- The loop of `handleSession` runs. -/
  connected : Bool := false
  /-- The server has closed the connection; lines read before may still be handled. -/
  closed : Bool := false

structure Membership where
  session : SessionId
  /-- The field `Prefix` of the source: the status characters. -/
  status : Bytes

structure Channel where
  name : Bytes
  topic : Bytes := []
  topicSetBy : Bytes := []
  topicSetAt : Time := ⟨0, 0⟩
  modes : ModeSet := {}
  createdAt : Time := ⟨0, 0⟩
  members : Map Bytes Membership := ∅
  history : List ChatHistoryEntry := []

structure WhowasEntry where
  nick : Bytes
  user : Bytes
  host : Bytes
  realname : Bytes
  quitAt : Time

structure Server where
  session : SessionId → Session := fun _ => {}
  /-- The number of sessions so far. -/
  allocated : Nat := 0
  /-- `Registry`: from folded nicks to sessions. -/
  sessions : Map Bytes SessionId := ∅
  /-- `ChannelRegistry`: from folded names to channels. -/
  channels : Map Bytes Channel := ∅
  clientsTotal : Int := 0
  clientsCurrent : Int := 0
  whowas : List WhowasEntry := []

/-! ## Output -/

/-- A line in a write queue, with the message it was made from. -/
structure Outbound where
  msg : Message
  line : Bytes

/-- The fields of a session that `Send` writes. The queue holds all that was ever put into it. -/
structure Output where
  responseLabel : Bytes := []
  response : Option (List Message) := none
  responseImmediate : List Message := []
  captureImmediate : Bool := false
  writeQueue : List Outbound := []

structure State where
  srv : Server := {}
  output : SessionId → Output := fun _ => {}
  /-- How often the clock, the random texts and the map orders were asked. -/
  reads : Nat := 0

/-! ## Environment -/

structure Account where
  name : Bytes := []
  passwordHash : Bytes := []
  host : Bytes := []

structure STSConfig where
  port : Nat
  /-- In nanoseconds. -/
  duration : Nat
  preload : Bool := false
  hostnames : List Bytes := []

structure Config where
  name : Bytes := []
  network : Bytes := []
  motd : Bytes := []
  maxClients : Int := 0
  password : Bytes := []
  opers : Map Bytes Bytes := ∅
  accounts : Map Bytes Account := ∅
  sts : Option STSConfig := none

/-- `Config.setDefaults`. -/
def Config.setDefaults (c : Config) : Config :=
  { c with
    name := if c.name = [] then lit "irc.local" else c.name
    network := if c.network = [] then lit "LocalNet" else c.network }

/-- What the server does not decide. -/
structure World where
  now : Nat → Time
  /-- `rand.Text`. -/
  text : Nat → Bytes
  /-- The rank of a map's key among the keys of the map that is visited. -/
  rank : Nat → Bytes → Nat
  /-- Whether bcrypt accepts a password for a hash. -/
  bcryptCheck : Bytes → Bytes → Bool
  dummyPasswordHash : Bytes

structure Env where
  cfg : Config
  accounts : Map Bytes Account
  world : World

section
variable [UnicodeTables]

/-- The accounts under their folded names, each with a name. -/
def accountTable (accounts : Map Bytes Account) : Map Bytes Account :=
  accounts.entries.foldl (fun m e =>
    m.insert (toLower e.1) (if e.2.name = [] then { e.2 with name := e.1 } else e.2)) ∅

/-- `New`. -/
def newServer (cfg : Config) (world : World) : Env where
  cfg := cfg.setDefaults
  accounts := accountTable cfg.accounts
  world := world

end

/-! ## Access -/

abbrev M := Prog Env State

def server : M Server := fun _ st => (st.srv, st)

def config : M Config := fun env st => (env.cfg, st)

def accounts : M (Map Bytes Account) := fun env st => (env.accounts, st)

def world : M World := fun env st => (env.world, st)

/-- Count a read of the outside. -/
def State.tick (st : State) : State := { st with reads := st.reads + 1 }

/-- `time.Now` and `timeNow`. -/
def now : M Time := fun env st => (env.world.now st.reads, st.tick)

/-- `rand.Text`. -/
def randText : M Bytes := fun env st => (env.world.text st.reads, st.tick)

/-- The entries of a map in the order of a `range` over it. -/
def rangeOver {α : Type} (key : α → Bytes) (l : List α) : M (List α) := fun env st =>
  (visit (fun a => env.world.rank st.reads (key a)) l, st.tick)

def updateServer (f : Server → Server) : M Unit := fun _ st => ((), { st with srv := f st.srv })

def Server.setSession (srv : Server) (s : SessionId) (f : Session → Session) : Server :=
  { srv with session := Function.update srv.session s (f (srv.session s)) }

def updateSession (s : SessionId) (f : Session → Session) : M Unit :=
  updateServer fun srv => srv.setSession s f

/-- Change the channel with this key, if there is one. -/
def Server.setChannel (srv : Server) (key : Bytes) (f : Channel → Channel) : Server :=
  match srv.channels.lookup key with
  | none => srv
  | some ch => { srv with channels := srv.channels.insert key (f ch) }

def updateChannel (key : Bytes) (f : Channel → Channel) : M Unit :=
  updateServer fun srv => srv.setChannel key f

def output (s : SessionId) : M Output := fun _ st => (st.output s, st)

def updateOutput (s : SessionId) (f : Output → Output) : M Unit := fun _ st =>
  ((), { st with output := Function.update st.output s (f (st.output s)) })

/-! ## Methods of the data -/

variable (u : Session) (cap : Capability)

/-- `Session.capEnabled`. -/
def Session.capEnabled : Bool :=
  (u.caps.lookup cap.name).getD false

/-- `Session.Prefix`. -/
def Session.source : Prefix := { nick := u.nick, user := u.user, host := u.host }

/-- `Session.mask`. -/
def Session.mask : Bytes := u.source.string

def chatHistoryLimit : Nat := 50

/-- The last entries of a history, up to the limit. -/
def trimHistory (history : List ChatHistoryEntry) : List ChatHistoryEntry :=
  history.drop (history.length - chatHistoryLimit)

theorem forall_mem_trimHistory {p : ChatHistoryEntry → Prop} {history : List ChatHistoryEntry}
    {entry : ChatHistoryEntry} (h : ∀ e ∈ history, p e) (hentry : p entry) :
    ∀ e ∈ trimHistory (history ++ [entry]), p e := fun e he =>
  List.forall_mem_append.2 ⟨h, List.forall_mem_singleton.2 hentry⟩ e (List.drop_subset _ _ he)

section
variable [UnicodeTables] (ch : Channel) (srv : Server) (nick : Bytes) (u : Session) (target : Bytes)
  (entry : ChatHistoryEntry) (name : Bytes)

/-- `Session.isMonitoring`. -/
def Session.isMonitoring (nick : Bytes) : Bool :=
  (u.monitor.lookup (toLower nick)).isSome

/-- `Session.appendHistory`. -/
def Session.appendHistory : Session :=
  let key := toLower target
  { u with
    history := u.history.insert key (trimHistory ((u.history.lookup key).getD [] ++ [entry])) }

/-- `Session.historySnapshot`. -/
def Session.historySnapshot : List ChatHistoryEntry :=
  (u.history.lookup (toLower target)).getD []

/-- `Registry.Get`. -/
def Server.getSession : Option SessionId :=
  srv.sessions.lookup (toLower nick)

/-- `ChannelRegistry.Get`. -/
def Server.getChannel : Option Channel :=
  srv.channels.lookup (toLower name)

/-- `ChannelRegistry.Remove`. -/
def Server.removeChannel : Server :=
  { srv with channels := srv.channels.erase (toLower name) }

/-- `Channel.AddMember`. -/
def Channel.addMember (s : SessionId) (nick status : Bytes) : Channel :=
  { ch with members := ch.members.insert (toLower nick) ⟨s, status⟩ }

/-- `Channel.RemoveMember`. -/
def Channel.removeMember : Channel :=
  { ch with members := ch.members.erase (toLower nick) }

/-- `Channel.GetMembership`. -/
def Channel.getMembership : Option Membership :=
  ch.members.lookup (toLower nick)

/-- `Channel.HasMember`. -/
def Channel.hasMember : Bool := (ch.getMembership nick).isSome

end

/-- `Channel.appendHistory`. -/
def Channel.appendHistory (ch : Channel) (entry : ChatHistoryEntry) : Channel :=
  { ch with history := trimHistory (ch.history ++ [entry]) }

/-- `Registry.All`. -/
def allSessions : M (List SessionId) := do
  let srv ← server
  return (← rangeOver Sigma.fst srv.sessions.entries).map Sigma.snd

/-- `ChannelRegistry.All`, each channel with its key. -/
def allChannels : M (List (Sigma fun _ : Bytes => Channel)) := do
  let srv ← server
  rangeOver Sigma.fst srv.channels.entries

/-- `Channel.Members`. -/
def Channel.memberList (ch : Channel) : M (List Membership) := do
  return (← rangeOver Sigma.fst ch.members.entries).map Sigma.snd

end Irc
