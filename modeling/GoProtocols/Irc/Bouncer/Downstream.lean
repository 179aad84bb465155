import GoProtocols.Irc.Bouncer.Network

/-!
# Clients of the bouncer

`DownstreamSession.run` of `irc/bouncer/bouncer.go`: a client sends `PASS`, `NICK`, `USER` and `CAP`
in any order until it can be attached to a network; from then on its messages are forwarded, and
when it is gone it is detached.

`downstreams cfg` is the bouncer as a system of what its clients do, one line at a time. What a
client is sent is not modelled.
-/

namespace Irc

open Go

/-! ## Model -/

inductive DownstreamPhase
  | absent
  | registering
  | proxying
  | ended
  deriving DecidableEq

/-- `DownstreamSession`, with the local variables of `run`. -/
structure DownstreamSession where
  phase : DownstreamPhase := .absent
  passUser : Bytes := []
  passNetwork : Bytes := []
  passPass : Bytes := []
  nick : Bytes := []
  user : Bytes := []
  realname : Bytes := []
  caps : Map Bytes Bool := ∅
  capVersion : Int := 0
  capDone : Bool := true
  network : Option Nat := none

/-- `parseBouncerPass`: `user/network:password`, `user:password` or only `user`. -/
def parseBouncerPass (pass : Bytes) : Bytes × Bytes × Bytes :=
  let plain := (cut pass 58).elim (pass, [], []) fun q => (q.1, [], q.2)
  (cut pass 47).elim plain fun q => (cut q.2 58).elim plain fun r => (q.1, r.1, r.2)

/-- The capabilities that the bouncer supports. -/
def bouncerCaps : List Bytes :=
  [Capability.serverTime, .messageTags, .batch, .chatHistory, .multiPrefix, .awayNotify,
    .extendedJoin, .setname, .capNotify, .inviteNotify].map Capability.name

namespace DownstreamSession

/-- One round of the second loop of `CAP REQ`. -/
def applyRequest (ds : DownstreamSession) (requested : Bytes) : DownstreamSession :=
  let name := trimPrefix requested (lit "-")
  if hasPrefix requested (lit "-") ∧ (name ≠ Capability.capNotify.name ∨ ds.capVersion < 302) then
    { ds with caps := ds.caps.erase name }
  else if ¬ hasPrefix requested (lit "-") then { ds with caps := ds.caps.insert name true }
  else ds

section
variable [UnicodeTables] (ds : DownstreamSession) (msg : Message)

/-- `DownstreamSession.handleCAP`. -/
def handleCAP : DownstreamSession :=
  if msg.params = [] then ds
  else
    let subCmd := toUpper (msg.param 0)
    let arg := msg.param 1
    if subCmd = lit "LS" then
      match (atoi arg).toOption.filter (302 ≤ ·) with
      | none => { ds with capDone := false }
      | some version =>
        { ds with capDone := false, capVersion := version
                  caps := ds.caps.insert Capability.capNotify.name true }
    else if subCmd = lit "REQ" then
      let requests := fields (trimPrefix arg (lit ":"))
      if requests.all fun r => trimPrefix r (lit "-") ∈ bouncerCaps then
        { ds with capDone := false, caps := (requests.foldl applyRequest ds).caps }
      else { ds with capDone := false }
    else if subCmd = lit "END" then { ds with capDone := true }
    else ds

/-- The switch of the registration phase. -/
def gather : DownstreamSession :=
  if msg.command = Verb.CAP.name then ds.handleCAP msg
  else if msg.command = Verb.PASS.name then
    msg.params.head?.elim ds fun pass =>
      let (passUser, passNetwork, passPass) := parseBouncerPass pass
      { ds with passUser, passNetwork, passPass }
  else if msg.command = Verb.NICK.name then
    msg.params.head?.elim ds fun nick => { ds with nick }
  else if msg.command = Verb.USER.name then
    if 4 ≤ msg.params.length then { ds with user := msg.param 0, realname := msg.param 3 } else ds
  else ds

end

/-- A message as it is sent upstream: of the tags, only those of clients, and these only from a
client that may send tags. -/
def upstream (ds : DownstreamSession) (msg : Message) : Message :=
  let clientTags := msg.tags.entries.foldl (fun (tags : Tags) t =>
    if hasPrefix t.1 (lit "+") then tags.insert t.1 t.2 else tags) ∅
  { msg with
    tags := if ds.caps.lookup Capability.messageTags.name = some true then clientTags else ∅ }

end DownstreamSession

namespace BouncerConfig

section
variable [UnicodeTables] (cfg : BouncerConfig)

/-- The networks under their names in lower case, by their numbers; the last of a name counts. -/
def table : Map Bytes Nat :=
  cfg.networks.zipIdx.foldl (fun m n => m.insert (toLower n.1.name) n.2) ∅

/-- `Bouncer.authenticate`. -/
def authenticate (username password : Bytes) : Bool :=
  (cfg.users.find? fun u => equalFold u.name username).elim false fun u => u.password = password

/-- `Bouncer.getNetwork`. Without a name it is the one that the loop over the networks comes to
first. -/
def getNetwork (netName : Bytes) (first : Nat) : Option Nat :=
  if netName ≠ [] then cfg.table.lookup (toLower netName)
  else if cfg.table.entries = [] then none
  else some first

end

/-- The network has a connection upstream. -/
def connected (cfg : BouncerConfig) (i : Nat) : Bool :=
  (cfg.networks[i]?.map NetworkConfig.autoConnect).getD false

end BouncerConfig

/-- What a session does to the networks. -/
inductive DownstreamAction
  | attach (network session : Nat)
  | detach (network session : Nat)
  | forward (network session : Nat) (msg : Message)

/-- The sessions by their numbers, and those attached to each network. -/
structure Downstreams where
  session : Nat → DownstreamSession := fun _ => {}
  allocated : Nat := 0
  downstreams : Nat → List Nat := fun _ => []

variable (st : Downstreams) (s : Nat) (ds : DownstreamSession)

namespace Downstreams

def set : Downstreams :=
  { st with session := Function.update st.session s ds }

/-- `Network.attach`. -/
def attach (i s : Nat) : Downstreams :=
  { st with downstreams := Function.update st.downstreams i (st.downstreams i ++ [s]) }

/-- `Network.detach`. -/
def detach (i s : Nat) : Downstreams :=
  { st with downstreams := Function.update st.downstreams i ((st.downstreams i).erase s) }

@[simp] theorem session_set_self : (st.set s ds).session s = ds := by
  simp [set]

theorem session_set_ne {s t : Nat} (h : t ≠ s) : (st.set s ds).session t = st.session t := by
  simp [set, h]

theorem set_self : st.set s (st.session s) = st := by
  simp [set]

section
variable [UnicodeTables] (cfg : BouncerConfig) (st : Downstreams) (s first : Nat)

/-- A round of the registration phase, once the message has been looked at: the session goes on,
or is attached, or is turned away. -/
def register (ds : DownstreamSession) : Downstreams × List DownstreamAction :=
  if ds.nick ≠ [] ∧ ds.user ≠ [] ∧ ds.capDone then
    if ¬ cfg.authenticate ds.passUser ds.passPass then (st.set s { ds with phase := .ended }, [])
    else
      match cfg.getNetwork ds.passNetwork first with
      | none => (st.set s { ds with phase := .ended }, [])
      | some i =>
        ((st.set s { ds with phase := .proxying, network := some i }).attach i s, [.attach i s])
  else (st.set s ds, [])

/-- A round of the proxy loop. -/
def proxy (msg : Message) : Downstreams × List DownstreamAction :=
  let ds := st.session s
  if msg.command = Verb.CAP.name then
    (st.set s { ds.handleCAP msg with capDone := ds.capDone }, [])
  else if msg.command = Verb.CHATHISTORY.name then (st, [])
  else
    (ds.network.filter fun i => cfg.connected i).elim (st, []) fun i =>
      (st, [.forward i s (ds.upstream msg)])

/-- The end of `run`. -/
def finish : Downstreams × List DownstreamAction :=
  let ds := st.session s
  let st := st.set s { ds with phase := .ended }
  ds.network.elim (st, []) fun i => (st.detach i s, [.detach i s])

end

end Downstreams

/-- A client connects, sends a line, or is gone. With a line comes the network that a loop over the
networks comes to first. -/
inductive DownstreamEvent
  | connect
  | line (s : Nat) (raw : Bytes) (first : Nat)
  | close (s : Nat)

namespace Downstreams

section
variable [UnicodeTables] (cfg : BouncerConfig) (st : Downstreams)

def respond : DownstreamEvent → Downstreams × List DownstreamAction
  | .connect =>
    ({ st.set st.allocated { phase := .registering } with allocated := st.allocated + 1 }, [])
  | .line s raw first =>
    (lineMessage raw).elim (st, []) fun msg =>
      match (st.session s).phase with
      | .registering => st.register cfg s first ((st.session s).gather msg)
      | .proxying => st.proxy cfg s msg
      | .absent | .ended => (st, [])
  | .close s => st.finish s

/-- The session runs. -/
def Runs (s : Nat) : Prop :=
  (st.session s).phase = .registering ∨ (st.session s).phase = .proxying

def enabled : DownstreamEvent → Prop
  | .connect => True
  | .line s _ first => st.Runs s ∧ (cfg.table.entries ≠ [] → ∃ e ∈ cfg.table.entries, e.2 = first)
  | .close s => st.Runs s

instance (s : Nat) : Decidable (st.Runs s) :=
  inferInstanceAs (Decidable (_ ∨ _))

instance : (e : DownstreamEvent) → Decidable (st.enabled cfg e)
  | .connect => .isTrue trivial
  | .line _ _ _ => inferInstanceAs (Decidable (_ ∧ _))
  | .close s => inferInstanceAs (Decidable (st.Runs s))

end

end Downstreams

/-- **The bouncer and its clients.** -/
def downstreams [UnicodeTables] (cfg : BouncerConfig) : System Downstreams DownstreamEvent where
  init := {}
  enabled st e := st.enabled cfg e
  step st e := (st.respond cfg e).1

instance [UnicodeTables] (cfg : BouncerConfig) (st : Downstreams) (e : DownstreamEvent) :
    Decidable ((downstreams cfg).enabled st e) :=
  inferInstanceAs (Decidable (st.enabled cfg e))

end Irc
