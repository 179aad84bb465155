import GoProtocols.Irc.Server.Channels
import GoProtocols.Lib.Routine

/-!
# Channel commands at the same time

`dispatch` holds `dispatchMu` for reading only, so the handlers of different sessions run at the
same time and are kept apart by the locks of the channel registry, of each channel and of its modes.
Here the handlers that look up, change or unregister channels are cut into the parts that run under
one of these locks. A channel is an object of its own: a handler that has looked it up works on it
even after it was unregistered.

`channelHandlers env users` is all the ways to interleave them. What is sent is not modelled, nor is
what a session changes of itself (`users` gives nick, account and capabilities of the sessions).
-/

namespace Irc

open Go

/-- The number of a `Channel` object. -/
abbrev Address := Nat

/-- All `Channel` objects and the `ChannelRegistry`. -/
structure ChannelHeap where
  objects : List Channel := []
  registry : Map Bytes Address := ∅
  /-- How often the clock, the random texts and the map orders were asked. -/
  reads : Nat := 0
  /-- The sessions that are gone. -/
  ended : List SessionId := []

variable (h : ChannelHeap) (o : Address) (f : Channel → Channel) (key : Bytes) (ch : Channel)
  (s : SessionId)

/-- What is done under one lock. -/
inductive ChannelOp
  | getOrCreate (name : Bytes)
  | get (name : Bytes)
  | remove (name : Bytes)
  | all
  /-- A look at a channel: its members, its modes or its topic. -/
  | read (o : Address)
  | addMember (o : Address) (s : SessionId) (nick status : Bytes)
  | removeMember (o : Address) (nick : Bytes)
  | applyMode (o : Address) (change : ModeChange)
  | appendHistory (o : Address) (entry : ChatHistoryEntry)
  | now
  | randText
  /-- The goroutine of a session is over. -/
  | finish (s : SessionId)

abbrev ChannelOp.Result : ChannelOp → Type
  | getOrCreate _ => Address
  | get _ => Option Address
  | remove _ => Unit
  | all => List Address
  | read _ => Channel
  | addMember _ _ _ _ => Unit
  | removeMember _ _ => Bool
  | applyMode _ _ => List ModeChange
  | appendHistory _ _ => Unit
  | now => Time
  | randText => Bytes
  | finish _ => Unit

namespace ChannelHeap

def tick : ChannelHeap := { h with reads := h.reads + 1 }

def object : Channel := h.objects.getD o { name := [] }

def update : ChannelHeap :=
  { h with objects := h.objects.modify o f }

/-- `newChannel`, registered. -/
def create : ChannelHeap :=
  { h with objects := h.objects ++ [ch], registry := h.registry.insert key h.objects.length }

theorem getElem?_update (o' : Address) :
    (h.update o f).objects[o']? = if o' = o then h.objects[o]?.map f else h.objects[o']? := by
  unfold update
  rw [List.getElem?_modify]
  by_cases ho : o' = o
  · subst ho
    simp
  · simp [ho, Ne.symm ho]

theorem getElem?_create (o : Nat) :
    (h.create key ch).objects[o]? = if o = h.objects.length then some ch else h.objects[o]? := by
  unfold create
  rcases lt_trichotomy o h.objects.length with ho | ho | ho
  · rw [List.getElem?_append_left ho, if_neg (by omega)]
  · simp [ho]
  · rw [List.getElem?_eq_none (by simp; omega), if_neg (by omega),
      List.getElem?_eq_none (by omega)]

end ChannelHeap

section
variable [UnicodeTables] (env : Env) (users : SessionId → Session) (h : ChannelHeap) (s : SessionId)

def ChannelOp.run : (op : ChannelOp) → ChannelHeap → op.Result × ChannelHeap
  | getOrCreate name, h =>
    match h.registry.lookup (toLower name) with
    | some o => (o, h)
    | none =>
      (h.objects.length,
        h.tick.create (toLower name) { name, createdAt := env.world.now h.reads })
  | get name, h => (h.registry.lookup (toLower name), h)
  | remove name, h => ((), { h with registry := h.registry.erase (toLower name) })
  | all, h =>
    ((visit (fun e => env.world.rank h.reads e.1) h.registry.entries).map Sigma.snd, h.tick)
  | read o, h => (h.object o, h)
  | addMember o s nick status, h => ((), h.update o (·.addMember s nick status))
  | removeMember o nick, h =>
    let h' := h.update o (·.removeMember nick)
    ((h'.object o).members.entries.isEmpty, h')
  | applyMode o change, h =>
    ((applyChannelMode (h.object o, []) change).2,
      h.update o fun ch => (applyChannelMode (ch, []) change).1)
  | appendHistory o entry, h => ((), h.update o (·.appendHistory entry))
  | now, h => (env.world.now h.reads, h.tick)
  | randText, h => (env.world.text h.reads, h.tick)
  | finish s, h => ((), { h with ended := s :: h.ended })

theorem applyChannelMode_eq (change : ModeChange) :
    ∃ modes members, (applyChannelMode (ch, []) change).1 = { ch with modes, members } ∧
      (ch.members.entries = [] → members.entries = []) := by
  unfold applyChannelMode
  dsimp only
  split
  · split
    · exact ⟨_, _, rfl, id⟩
    · rename_i ch' happ
      unfold Channel.applyMembershipMode Channel.getMembership at happ
      split at happ
      · cases happ
      · split at happ
        · cases happ
        · split at happ
          · cases happ
          · rename_i m hm
            dsimp only at happ
            split at happ
            · cases happ
            · cases happ
              -- who has a status is a member
              refine ⟨_, _, rfl, fun hnil => ?_⟩
              have hmem := Map.lookup_eq_some_iff.1 hm
              rw [hnil] at hmem
              cases hmem
  · exact ⟨_, _, rfl, id⟩

/-! ## Handlers -/

/-- A handler, cut at its locks. -/
abbrev Handler := Routine ChannelOp ChannelOp.Result

namespace Interleaved

variable (s : SessionId) (u : Session) (msg : Message)

def lock (op : ChannelOp) : Handler op.Result := Routine.perform op

/-- One round of the loop of `JOIN`. -/
def joinChannel (chanName key : Bytes) : Handler Unit := do
  if chanName = [] then return
  if ¬ isValidChannelName chanName then return
  let o ← lock (.getOrCreate chanName)
  let forKey ← lock (.read o)
  if (forKey.modes.arg (rune 'k')).any (· ≠ key) then return
  let forInvite ← lock (.read o)
  if forInvite.modes.has (rune 'i') then
    let ch ← lock (.read o)
    if ¬ ch.hasMember u.nick then return
  let forLimit ← lock (.read o)
  let n := ((forLimit.modes.arg (rune 'l')).bind sscanInt).getD 0
  if 0 < n then
    let ch ← lock (.read o)
    if n ≤ ch.members.entries.length then return
  let forMember ← lock (.read o)
  if forMember.hasMember u.nick then return
  let forFirst ← lock (.read o)
  let status := if forFirst.members.entries = [] then lit "@" else []
  lock (.addMember o s u.nick status)
  -- the members are told, and the session is told the topic and the names
  let _members ← lock (.read o)
  let _topic ← lock (.read o)
  if ¬ u.capEnabled .noImplicitNames then
    let _names ← lock (.read o)

/-- `Server.handleJoin`. -/
def handleJoin : Handler Unit := do
  if msg.params = [] then return
  let keys := if 2 ≤ msg.params.length then split (msg.param 1) 44 else []
  (split (msg.param 0) 44).zipIdx.forM fun c => joinChannel s u c.1 (keys.getD c.2 [])

/-- One round of the loop of `PART`. -/
def partChannel (chanName : Bytes) : Handler Unit := do
  let some o ← lock (.get chanName) | return
  let ch ← lock (.read o)
  if ¬ ch.hasMember u.nick then return
  let _members ← lock (.read o)
  let empty ← lock (.removeMember o u.nick)
  if empty then lock (.remove chanName)

/-- `Server.handlePart`. -/
def handlePart : Handler Unit := do
  if msg.params = [] then return
  (split (msg.param 0) 44).forM (partChannel u)

/-- `Server.handleKick`. -/
def handleKick : Handler Unit := do
  if msg.params.length < 2 then return
  let some o ← lock (.get (msg.param 0)) | return
  let ch ← lock (.read o)
  let some m := ch.getMembership u.nick | return
  if ¬ isOperator m.status then return
  let ch ← lock (.read o)
  if ¬ ch.hasMember (msg.param 1) then return
  let _members ← lock (.read o)
  let empty ← lock (.removeMember o (msg.param 1))
  if empty then lock (.remove (msg.param 0))

/-- The channels of a session that is gone, in `Server.removeSession`. -/
def leaveChannel (o : Address) : Handler Unit := do
  let ch ← lock (.read o)
  if ¬ ch.hasMember u.nick then return
  let _members ← lock (.read o)
  let empty ← lock (.removeMember o u.nick)
  if empty then lock (.remove ch.name)

/-- `Server.removeSession`. -/
def removeSession : Handler Unit := do
  if u.nick ≠ [] then
    let channels ← lock .all
    channels.forM (leaveChannel u)
  lock (.finish s)

/-- `Server.handlePrivmsg`; a message to a nick touches no channel. -/
def handlePrivmsg (notice : Bool) : Handler Unit := do
  if msg.params.length < 2 then return
  let target := msg.param 0
  let verb : Verb := if notice then .NOTICE else .PRIVMSG
  let at_ ← lock .now
  let msgid ← lock .randText
  let outMsg : Message :=
    { tags := relayTags u msg msgid (serverTime at_), source := some u.source
      command := verb.name, params := [target, msg.param 1] }
  if ¬ isChannelTarget target then return
  let some o ← lock (.get target) | return
  let ch ← lock (.read o)
  if ¬ ch.hasMember u.nick then
    let ch ← lock (.read o)
    if ch.modes.has (rune 'n') then return
  let forModerated ← lock (.read o)
  if forModerated.modes.has (rune 'm') then
    let ch ← lock (.read o)
    if ((ch.getMembership u.nick).map Membership.status).getD [] = [] then return
  lock (.appendHistory o ⟨at_.utc, outMsg, verb, rfl⟩)
  let _members ← lock (.read o)

/-- `Server.handleMode` for a channel. -/
def handleMode : Handler Unit := do
  if msg.params = [] then return
  if ¬ isChannelTarget (msg.param 0) then return
  let some o ← lock (.get (msg.param 0)) | return
  let query := ((msg.param 1).headD 0).toNat
  if msg.params.length < 2 ∨
      msg.params.length = 2 ∧ (msg.param 1).length = 1 ∧ channelValidator.type query = .list then
    let _modes ← lock (.read o)
    return
  let ch ← lock (.read o)
  let some m := ch.getMembership u.nick | return
  if ¬ isOperator m.status ∧ ¬ u.isOper then return
  let changes := parseModeString (msg.param 1) (msg.params.drop 2)
  let applied ← changes.foldlM (fun applied change => do
    return applied ++ (← lock (.applyMode o change))) []
  if applied ≠ [] then
    let _members ← lock (.read o)

end Interleaved

/-- What a session has to do. -/
inductive ChannelCommand
  | join (msg : Message)
  | part (msg : Message)
  | kick (msg : Message)
  | mode (msg : Message)
  | privmsg (msg : Message) (notice : Bool)
  | disconnect

/-- The handler of a command; all but the last need a registered session. -/
def ChannelCommand.handler (u : Session) (c : ChannelCommand) : Handler Unit :=
  match u.state, c with
  | _, disconnect => Interleaved.removeSession s u
  | .registered, join msg => Interleaved.handleJoin s u msg
  | .registered, part msg => Interleaved.handlePart u msg
  | .registered, kick msg => Interleaved.handleKick u msg
  | .registered, mode msg => Interleaved.handleMode u msg
  | .registered, privmsg msg notice => Interleaved.handlePrivmsg u msg notice
  | _, _ => return

/-- **The handlers of all sessions.** -/
def channelHandlers : Pool SessionId ChannelCommand ChannelHeap ChannelOp ChannelOp.Result where
  init := {}
  run := ChannelOp.run env
  body s c := c.handler s (users s)
  mayStart h s := s ∉ h.ended

instance : Decidable ((channelHandlers env users).mayStart h s) :=
  inferInstanceAs (Decidable (s ∉ h.ended))

end

/-! ## Runs -/

/-- Two registered users. -/
def twoUsers : Session where
  nick := if s = 0 then lit "alice" else lit "bob"
  state := .registered

/-- The next operations of a session. -/
def advances (n : Nat) : List (Pool.Event SessionId ChannelCommand) :=
  List.replicate n (.advance s)

def joinsRoom : Pool.Event SessionId ChannelCommand :=
  .start s (.join { command := Verb.JOIN.name, params := [lit "#a"] })

end Irc
