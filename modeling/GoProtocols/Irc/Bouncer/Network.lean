import GoProtocols.Go.Rfc3339
import GoProtocols.Irc.Bouncer.Store
import GoProtocols.Lib.Run

/-!
# Networks of the bouncer

What `irc/bouncer/bouncer.go` does with the messages of an upstream server: `handleUpstream` tracks
who is in which channel, stores messages in the history that all networks share, and hands every
message on to the attached clients with a time.

`upstreams cfg` is the bouncer as a system of upstream messages. Every message comes with the
readings of the clock that are made for it, which never goes back.

The topic of a channel is never set, and the channels to join after the welcome are sent upstream
only; neither is modelled.
-/

namespace Irc

open Go

/-! ## State -/

/-- `ChannelState`: the members, with the prefix of each. -/
structure ChannelState where
  members : Map Bytes Bytes := ∅

structure NetworkState where
  nick : Bytes := []
  channels : Map Bytes ChannelState := ∅
  queries : Map Bytes Bool := ∅

namespace NetworkState

variable (n : NetworkState) (ch nick : Bytes)

/-- The members of a channel; of a channel that is not there, nobody. -/
def members (n : NetworkState) (ch : Bytes) : Map Bytes Bytes :=
  ((n.channels.lookup ch).getD {}).members

/-- The case `JOIN` of `handleUpstream`. -/
def join : NetworkState :=
  { n with channels := n.channels.insert ch ⟨(n.members ch).insert nick []⟩ }

/-- The case `PART`, `QUIT`: delete the nick from every channel. -/
def leave : NetworkState :=
  { n with channels := Map.mapValues (fun cs => ⟨cs.members.erase nick⟩) n.channels }

end NetworkState

/-- Put the prefix of one nick under another. -/
def ChannelState.rename (cs : ChannelState) (oldNick newNick : Bytes) : ChannelState :=
  (cs.members.lookup oldNick).elim cs fun mark =>
    ⟨(cs.members.erase oldNick).insert newNick mark⟩

/-- The case `NICK`. -/
def NetworkState.rename (n : NetworkState) (oldNick newNick : Bytes) : NetworkState :=
  { n with
    channels := Map.mapValues (·.rename oldNick newNick) n.channels
    nick := if n.nick = oldNick then newNick else n.nick }

section
variable [UnicodeTables] (n : NetworkState) (now : Time) (msg : Message)

/-- The switch of `handleUpstream` that updates the state. -/
def NetworkState.track : NetworkState :=
  match msg.source with
  | none => n
  | some source =>
    if msg.command = Verb.JOIN.name then
      msg.params.head?.elim n fun ch => n.join (toLower ch) source.nick
    else if msg.command = Verb.PART.name ∨ msg.command = Verb.QUIT.name then n.leave source.nick
    else if msg.command = Verb.NICK.name then
      msg.params.head?.elim n fun newNick => n.rename source.nick newNick
    else n

/-- The target under which a message is stored, if it is, and the state with the conversation that
it belongs to. -/
def NetworkState.storage : Option (Bytes × NetworkState) :=
  if (msg.command = Verb.PRIVMSG.name ∨ msg.command = Verb.NOTICE.name) ∧
      2 ≤ msg.params.length then
    let target := toLower (msg.param 0)
    if hasPrefix target (lit "#") ∨ hasPrefix target (lit "&") then some (target, n)
    else
      msg.source.bind fun source =>
        let store := !equalFold target n.nick && equalFold source.nick n.nick
        let target := if equalFold target n.nick then toLower source.nick else target
        if target ≠ [] then some (target, { n with queries := n.queries.insert target true })
        else if store then some (target, n)
        else none
  else none

/-- The time with which a message is stored: that of its tag if there is one that can be read, and
else the clock. -/
def stamp : Time :=
  ((msg.tags.lookup (lit "time")).bind parseRFC3339).getD now

/-- The message as it is handed on. -/
def withTime : Message :=
  if msg.tags.lookup (lit "time") = none then msg.setTag (lit "time") now.utc.formatServer else msg

/-- `Network.handleUpstream`, of a network with the given name: its state, the history, and the
message that is handed on. The clock is read twice. -/
def handleUpstream (name : Bytes) (storedAt sentAt : Time) (n : NetworkState)
    (history : MemoryStore) (msg : Message) : NetworkState × MemoryStore × Option Message :=
  if msg.command = Verb.CAP.name then (n, history, none)
  else
    let n := n.track msg
    match n.storage msg with
    | none => (n, history, some (withTime sentAt msg))
    | some (target, n) =>
      (n, history.append name target (stamp storedAt msg) msg, some (withTime sentAt msg))

/-- The handler of `001`, which runs before `handleUpstream`. -/
def handleWelcome : NetworkState :=
  if msg.command = lit "001" then msg.params.head?.elim n fun nick => { n with nick } else n

end

/-! ## What a message changes -/

section
variable [UnicodeTables] {n : NetworkState} {msg : Message}

theorem NetworkState.storage_eq {target : Bytes} {n' : NetworkState}
    (h : n.storage msg = some (target, n')) :
    n'.channels = n.channels ∧
      (n'.queries = n.queries ∨ n'.queries = n.queries.insert target true) := by
  unfold storage at h
  split at h
  · dsimp only at h
    split at h
    · obtain ⟨-, rfl⟩ := Prod.mk.inj (Option.some.inj h)
      exact ⟨rfl, .inl rfl⟩
    · obtain ⟨source, -, h⟩ := Option.bind_eq_some_iff.1 h
      generalize (if equalFold _ _ then _ else _ : Bytes) = peer at h
      split at h
      · cases Option.some.inj h
        exact ⟨rfl, .inr rfl⟩
      · split at h
        · obtain ⟨-, rfl⟩ := Prod.mk.inj (Option.some.inj h)
          exact ⟨rfl, .inl rfl⟩
        · cases h
  · cases h

theorem NetworkState.track_cap (h : msg.command = Verb.CAP.name) : n.track msg = n := by
  unfold track
  cases msg.source with
  | none => rfl
  | some source =>
    have hjoin : Verb.CAP.name ≠ Verb.JOIN.name := by decide
    have hpart : Verb.CAP.name ≠ Verb.PART.name := by decide
    have hquit : Verb.CAP.name ≠ Verb.QUIT.name := by decide
    have hnick : Verb.CAP.name ≠ Verb.NICK.name := by decide
    simp only [h, hjoin, hpart, hquit, hnick, if_false, or_self]

theorem handleUpstream_channels (name : Bytes) (storedAt sentAt : Time) (n : NetworkState)
    (history : MemoryStore) (msg : Message) :
    (handleUpstream name storedAt sentAt n history msg).1.channels = (n.track msg).channels := by
  unfold handleUpstream
  split
  · rename_i hcap
    rw [NetworkState.track_cap hcap]
  · dsimp only
    split
    · rfl
    · rename_i hstore
      exact (NetworkState.storage_eq hstore).1

variable (n) (msg)

omit [UnicodeTables] in
theorem handleWelcome_channels : (handleWelcome n msg).channels = n.channels := by
  unfold handleWelcome
  split
  · cases msg.params.head? <;> rfl
  · rfl

end

/-! ## The system -/

/-- The greatest `int`. -/
def maxInt : Int := 2 ^ 63 - 1

theorem hundred_le_maxInt : 100 ≤ maxInt := by decide

structure UserConfig where
  name : Bytes
  password : Bytes

/-- `NetworkConfig`, as far as it is read here. -/
structure NetworkConfig where
  name : Bytes
  autoConnect : Bool := true

/-- The configuration; `historyLimit` is how many messages are kept for each target. -/
structure BouncerConfig where
  users : List UserConfig := []
  networks : List NetworkConfig
  historyLimit : Int
  historyLimit_le : historyLimit ≤ maxInt

def BouncerConfig.name (cfg : BouncerConfig) (i : Nat) : Bytes :=
  (cfg.networks[i]?.map NetworkConfig.name).getD []

/-- The networks by their number, the history that they share, and the last reading of the clock. -/
structure Upstreams where
  network : Nat → NetworkState := fun _ => {}
  history : MemoryStore
  clock : Option Time := none

/-- A message of the upstream server of a network. -/
structure Incoming where
  network : Nat
  storedAt : Time
  sentAt : Time
  msg : Message

section
variable [UnicodeTables] (cfg : BouncerConfig) (st : Upstreams) (e : Incoming)

/-- The bouncer takes a message. -/
def Upstreams.receive : Upstreams :=
  let after := handleUpstream (cfg.name e.network) e.storedAt e.sentAt
    (handleWelcome (st.network e.network) e.msg) st.history e.msg
  { network := Function.update st.network e.network after.1
    history := after.2.1
    clock := some e.sentAt }

/-- **The bouncer**, from its start. -/
def upstreams : System Upstreams Incoming where
  init := { history := newMemoryStore cfg.historyLimit }
  enabled st e := e.network < cfg.networks.length ∧ e.storedAt.nanos ≤ e.sentAt.nanos ∧
    ∀ t ∈ st.clock, t.nanos ≤ e.storedAt.nanos
  step st e := st.receive cfg e

instance : Decidable ((upstreams cfg).enabled st e) :=
  inferInstanceAs (Decidable (_ ∧ _ ∧ _))

end

end Irc
