import GoProtocols.Irc.Client.Sasl
import GoProtocols.Lib.Run

/-!
# Capability negotiation of the client

A connection of `irc/client/client.go` with its built-in handlers: the messages of the server drive
it, and what it sends is collected. Of the configuration there is what the handlers read. A method
call on the `nil` interface `cfg.SASL` is a run-time panic, after which the program does nothing.

The handlers share the phase of the negotiation. `Outcome` is all that a message can do to it
(`Connection.has_dispatch`): `CAP END` is sent by the step that takes the phase to `done` and by no
other, unless a second list of capabilities ends, and from the phase `sasl` only the numerics that
end an exchange lead on. `capEnd_once` is about every conversation with one list.
-/

namespace Irc

open Go List

variable {μ : Type}

/-! ## Configuration and state -/

/-- A `sasl.Mechanism` of a configuration. -/
structure SASL (μ : Type) where
  name : Bytes
  mechanism : Mechanism μ
  /-- `Reset`, for the mechanisms that have it. -/
  reset : μ → μ := id
  start : μ

/-- `client.Config`. -/
structure ClientConfig (μ : Type) where
  nick : Bytes := []
  user : Bytes := []
  realName : Bytes := []
  password : Bytes := []
  sasl : Option (SASL μ) := none
  requestedCaps : List Bytes := []
  disableDefaultCaps : Bool := false

/-- `Config.setDefaults`. -/
def ClientConfig.setDefaults (c : ClientConfig μ) : ClientConfig μ :=
  { c with
    nick := if c.nick = [] then lit "gopher" else c.nick
    user := if c.user = [] then lit "gopher" else c.user
    realName := if c.realName = [] then lit "Gopher" else c.realName }

inductive CapPhase
  | idle
  | lsSent
  | reqSent
  | sasl
  | done
  deriving DecidableEq

variable {msgs : List Message} {phase' : CapPhase} {n : Nat} (mech : Mechanism μ) (c : Client μ)
  {msgs₁ msgs₂ : List Message} (m : Message)

structure CAPState where
  phase : CapPhase := .idle
  advertised : Map Bytes Bytes := ∅
  enabled : Map Bytes Bool := ∅
  pending : List Bytes := []

/-- `client.Client`, connected. -/
structure Connection (μ : Type) extends Client μ where
  capState : CAPState := {}
  nick : Bytes
  loggedIn : Bool := false
  /-- The state of `cfg.SASL`, which is kept from one exchange to the next. -/
  mechanism : Option μ
  panicked : Bool := false

/-- `Sendf`. -/
def sendf (command : Bytes) (params : List Bytes) : Message := { command, params }

/-- The state in which `Client.handleAuthenticate` leaves the mechanism, also if it aborts. -/
def Client.mechanismAfter (msg : Message) : Option μ :=
  match c.saslMech, msg.params with
  | none, _ => none
  | some m, [] => some m
  | some m, chunk :: _ =>
    if 400 ≤ chunk.length then some m
    else
      match challengeOf (if chunk ≠ lit "+" then c.saslBuffer ++ chunk else c.saslBuffer) with
      | none => some m
      | some challenge => some (mech.next m challenge).2

/-! ## The capabilities to ask for -/

section
variable [UnicodeTables] {μ : Type} (cfg : ClientConfig μ) (cs : CAPState)

def defaultCaps : List Capability :=
  [.serverTime, .messageTags, .batch, .echoMessage, .multiPrefix, .awayNotify, .extendedJoin,
    .chghost, .setname, .accountTag, .chatHistory, .labeledResponse, .userHostInNames,
    .inviteNotify, .accountNotify, .standardReplies, .extendedMonitor]

/-- The list that `capWantList` goes through. -/
def ClientConfig.desired : List Bytes :=
  (if cfg.disableDefaultCaps then [] else defaultCaps.map Capability.name) ++
    (if cfg.sasl.isSome then [Capability.sasl.name] else []) ++ cfg.requestedCaps

/-- Whether one capability is asked for; `none` if `cfg.SASL.Name()` panics. -/
def CAPState.wants (cap : Bytes) : Option Bool :=
  if (cs.enabled.lookup cap).getD false then some false
  else
    match cs.advertised.lookup cap with
    | none => some false
    | some value =>
      if cap = Capability.sasl.name ∧ value ≠ [] then
        cfg.sasl.map fun sasl => (split value 44).any fun mechanism => equalFold mechanism sasl.name
      else some true

/-- The loop of `capWantList`. -/
def CAPState.wantFrom (cfg : ClientConfig μ) (cs : CAPState) (seen : List Bytes) :
    List Bytes → Option (List Bytes)
  | [] => some []
  | cap :: caps =>
    if cap ∈ seen then cs.wantFrom cfg seen caps
    else do
      let ok ← cs.wants cfg cap
      let want ← cs.wantFrom cfg (cap :: seen) caps
      return if ok then cap :: want else want

/-- `Client.capWantList`. -/
def CAPState.capWantList : Option (List Bytes) :=
  cs.wantFrom cfg [] cfg.desired

/-! ## Handlers -/

/-- The name of a capability and its value in a list of the server. -/
def cutToken (token : Bytes) : Bytes × Bytes := (cut token 61).getD (token, [])

/-- The loops of `CAP LS` and `CAP NEW` over the tokens. -/
def CAPState.advertise (tokens : List Bytes) : CAPState :=
  { cs with advertised := cs.advertised.insertAll (tokens.map cutToken) }

/-- One round of the loop of `CAP ACK`, over the enabled capabilities and `startSASL`. -/
def ackCap (q : Map Bytes Bool × Bool) (cap : Bytes) : Map Bytes Bool × Bool :=
  if hasPrefix cap (lit "-") then (q.1.erase (trimPrefix cap (lit "-")), q.2)
  else
    (q.1.insert cap true,
      q.2 || (cap = Capability.sasl.name && !(q.1.lookup cap).getD false && cfg.sasl.isSome))

namespace Connection

variable (cfg : ClientConfig μ) (c : Connection μ) (msg : Message)

def panic : Connection μ × List Message := ({ c with panicked := true }, [])

def setPhase (phase : CapPhase) : Connection μ :=
  { c with capState := { c.capState with phase } }

/-- `Sendf(irc.CAP, irc.CapEND)`. -/
def endMessage : Message := sendf Verb.CAP.name [lit "END"]

/-- `Sendf(irc.CAP, irc.CapREQ, strings.Join(want, " "))`. -/
def reqMessage (want : List Bytes) : Message :=
  sendf Verb.CAP.name [lit "REQ", join want (lit " ")]

/-- `Client.capEnd`. -/
def capEnd : Connection μ × List Message := (c.setPhase .done, [endMessage])

/-- `Client.startSASL`. -/
def startSASL : Connection μ × List Message :=
  match cfg.sasl with
  | none => c.panic
  | some sasl =>
    let c := if c.capState.phase ≠ .done then c.setPhase .sasl else c
    let m := c.mechanism.map sasl.reset
    ({ c with saslMech := m, mechanism := m }, [Client.authenticateMessage sasl.name])

/-- `CAP LS` in `Client.handleCAP`. -/
def handleLS : Connection μ × List Message :=
  let multiLine := msg.param 2 = lit "*"
  let cs := c.capState.advertise (fields (if multiLine then msg.param 3 else msg.param 2))
  if multiLine then ({ c with capState := cs }, [])
  else
    let cs := { cs with enabled := cs.enabled.insert Capability.capNotify.name true }
    let c := { c with capState := cs }
    match cs.capWantList cfg with
    | none => c.panic
    | some [] => c.capEnd
    | some want =>
      ({ c with capState := { cs with pending := want, phase := .reqSent } }, [reqMessage want])

/-- `CAP ACK` in `Client.handleCAP`. -/
def handleACK : Connection μ × List Message :=
  let (enabled, startSASL) :=
    (fields (trimPrefix (msg.param 2) (lit ":"))).foldl (ackCap cfg) (c.capState.enabled, false)
  let c := { c with capState := { c.capState with enabled, pending := [] } }
  if c.capState.phase = .sasl then (c, [])
  else if startSASL then c.startSASL cfg
  else if c.capState.phase = .done then (c, [])
  else c.capEnd

/-- `CAP NAK` in `Client.handleCAP`. -/
def handleNAK : Connection μ × List Message :=
  let c := { c with capState := { c.capState with pending := [] } }
  if c.capState.phase ≠ .done ∧ c.capState.phase ≠ .sasl then c.capEnd else (c, [])

/-- `CAP NEW` in `Client.handleCAP`. -/
def handleNEW : Connection μ × List Message :=
  let tokens := fields (msg.param 2)
  let cs := c.capState.advertise tokens
  let c := { c with capState := cs }
  match cs.capWantList cfg with
  | none => c.panic
  | some all =>
    match all.filter fun cap => cap ∈ tokens.map fun token => (cutToken token).1 with
    | [] => (c, [])
    | want => ({ c with capState := { cs with pending := want } }, [reqMessage want])

/-- `CAP DEL` in `Client.handleCAP`. -/
def handleDEL : Connection μ × List Message :=
  let caps := fields (msg.param 2)
  ({ c with
      capState := { c.capState with
        advertised := caps.foldl (fun m cap => m.erase cap) c.capState.advertised
        enabled := caps.foldl (fun m cap => m.erase cap) c.capState.enabled } }, [])

/-- `Client.handleCAP`. -/
def handleCAP : Connection μ × List Message :=
  if msg.params.length < 2 then (c, [])
  else
    let subCmd := toUpper (msg.param 1)
    if subCmd = lit "LS" then c.handleLS cfg msg
    else if subCmd = lit "ACK" then c.handleACK cfg msg
    else if subCmd = lit "NAK" then c.handleNAK
    else if subCmd = lit "NEW" then c.handleNEW cfg msg
    else if subCmd = lit "DEL" then c.handleDEL msg
    else (c, [])

/-- `Client.handleAuthenticate`, with the mechanism that the exchange shares with `cfg.SASL`. -/
def handleAuthenticate : Connection μ × List Message :=
  match cfg.sasl with
  | none => (c, [])
  | some sasl =>
    let r := c.toClient.handleAuthenticate sasl.mechanism msg
    ({ c with
        toClient := r.1
        mechanism := (c.toClient.mechanismAfter sasl.mechanism msg).or c.mechanism }, r.2)

/-- `Client.handleSASLSuccess` and `Client.handleSASLFail`, which do the same. -/
def handleSASLDone : Connection μ × List Message :=
  let c := { c with saslMech := none, saslBuffer := [] }
  if c.capState.phase ≠ .done then c.capEnd else (c, [])

/-- `Client.handlePing`. -/
def handlePing : Connection μ × List Message := (c, [sendf Verb.PONG.name msg.params])

/-- `Client.handleWelcome`. -/
def handleWelcome : Connection μ × List Message :=
  (if msg.params ≠ [] then { c with nick := msg.param 0, loggedIn := true } else c, [])

/-- `Client.handleNickInUse`. -/
def handleNickInUse : Connection μ × List Message :=
  (c, [sendf Verb.NICK.name [c.nick ++ lit "_"]])

/-- `Client.handleNickChange`. -/
def handleNickChange : Connection μ × List Message :=
  (if (msg.source.map Prefix.nick) = some c.nick ∧ msg.params ≠ [] then
    { c with nick := msg.param 0 } else c, [])

end Connection

/-! ## Dispatch -/

inductive Builtin
  | ping
  | cap
  | authenticate
  | welcome
  | nickInUse
  | saslFail
  | saslSuccess
  | nickChange
  deriving DecidableEq

/-- `Client.installBuiltinHandlers`. -/
def builtinHandlers : List (Bytes × Builtin) :=
  [(Verb.PING.name, .ping), (Verb.CAP.name, .cap), (Verb.AUTHENTICATE.name, .authenticate),
    (lit "001", .welcome), (lit "433", .nickInUse), (lit "902", .saslFail),
    (lit "903", .saslSuccess), (lit "904", .saslFail), (lit "905", .saslFail),
    (lit "906", .saslFail), (lit "907", .saslFail), (Verb.NICK.name, .nickChange)]

/-- `Mux.dispatch`: no two built-in handlers have one command. -/
def builtinOf (msg : Message) : Option Builtin := builtinHandlers.lookup msg.command

namespace Connection

variable (cfg : ClientConfig μ) (c : Connection μ) (msg : Message)

def builtin : Builtin → Connection μ × List Message
  | .ping => c.handlePing msg
  | .cap => c.handleCAP cfg msg
  | .authenticate => c.handleAuthenticate cfg msg
  | .welcome => c.handleWelcome msg
  | .nickInUse => c.handleNickInUse
  | .saslFail => c.handleSASLDone
  | .saslSuccess => c.handleSASLDone
  | .nickChange => c.handleNickChange msg

/-- One round of the read loop. -/
def dispatch : Connection μ × List Message :=
  if c.panicked then (c, []) else (builtinOf msg).elim (c, []) (c.builtin cfg msg)

end Connection

/-- `Client.Connect`, up to the read loop. -/
def ClientConfig.connect : Connection μ × List Message :=
  ({ saslMech := none, nick := cfg.nick, mechanism := cfg.sasl.map SASL.start
     capState := { phase := .lsSent } },
    [sendf Verb.CAP.name [lit "LS", lit "302"]] ++
      (if cfg.password ≠ [] then [sendf Verb.PASS.name [cfg.password]] else []) ++
      [sendf Verb.NICK.name [cfg.nick],
        sendf Verb.USER.name [cfg.user, lit "0", lit "*", cfg.realName]])

namespace ClientConfig

variable (cfg : ClientConfig μ) (msgs : List Message)

/-- A connection, driven by the messages of the server. -/
def conversation : System (Connection μ) Message where
  init := cfg.setDefaults.connect.1
  enabled _ _ := True
  step c msg := (c.dispatch cfg.setDefaults msg).1

/-- The phase of the negotiation after messages of the server. -/
def phaseAfter : CapPhase :=
  (cfg.conversation.after msgs).capState.phase

/-- All that the client sends in a conversation. -/
def sent : List Message :=
  cfg.setDefaults.connect.2 ++
    cfg.conversation.collect (fun c msg => (c.dispatch cfg.setDefaults msg).2) msgs

theorem sent_concat (msg : Message) :
    cfg.sent (msgs ++ [msg]) =
      cfg.sent msgs ++ ((cfg.conversation.after msgs).dispatch cfg.setDefaults msg).2 := by
  rw [sent, System.collect_concat, ← append_assoc]
  rfl

end ClientConfig

end

/-! ## `CAP END` -/

def Message.IsEnd : Prop := m.command = Verb.CAP.name ∧ m.params = [lit "END"]

instance : Decidable m.IsEnd := inferInstanceAs (Decidable (_ ∧ _))

/-- How often messages end the negotiation. -/
def ends (msgs : List Message) : Nat := msgs.countP fun m => m.IsEnd

theorem ends_append (l₁ l₂ : List Message) : ends (l₁ ++ l₂) = ends l₁ + ends l₂ :=
  countP_append

theorem ends_eq_zero (h : ∀ m ∈ msgs, m.command ≠ Verb.CAP.name) :
    ends msgs = 0 := by
  rw [ends, countP_eq_zero]
  intro m hm hend
  exact h m hm (of_decide_eq_true hend).1

@[simp] theorem ends_reqMessage (want : List Bytes) : ends [Connection.reqMessage want] = 0 := by
  simp [ends, Message.IsEnd, Connection.reqMessage, sendf]

@[simp] theorem ends_authenticateMessages (chunks : List Bytes) :
    ends (chunks.map Client.authenticateMessage) = 0 := by
  refine ends_eq_zero fun m hm => ?_
  obtain ⟨chunk, -, rfl⟩ := mem_map.1 hm
  exact show Verb.AUTHENTICATE.name ≠ Verb.CAP.name by decide

theorem ends_handleAuthenticate (msg : Message) : ends (c.handleAuthenticate mech msg).2 = 0 := by
  have habort : ends c.abortSASL.2 = 0 := ends_authenticateMessages [_]
  fun_cases Client.handleAuthenticate mech c msg <;>
    first | rfl | exact habort | exact ends_authenticateMessages _

theorem ends_sendf {command : Bytes} (h : command ≠ Verb.CAP.name) (params : List Bytes) :
    ends [sendf command params] = 0 :=
  ends_eq_zero fun _ hm => mem_singleton.1 hm ▸ h

theorem ends_connect (cfg : ClientConfig μ) : ends cfg.connect.2 = 0 := by
  have hls : ends [sendf Verb.CAP.name [lit "LS", lit "302"]] = 0 := by decide
  have hpass : ends (if cfg.password ≠ [] then [sendf Verb.PASS.name [cfg.password]] else []) =
      0 := by
    split_ifs
    · exact ends_sendf (by decide) _
    · rfl
  have hnick : ends [sendf Verb.NICK.name [cfg.nick],
      sendf Verb.USER.name [cfg.user, lit "0", lit "*", cfg.realName]] = 0 := by
    rw [← singleton_append, ends_append, ends_sendf (by decide), ends_sendf (by decide)]
  rw [ClientConfig.connect, ends_append, ends_append, hls, hpass, hnick]

theorem builtinOf_mem {msg : Message} {b : Builtin} (h : builtinOf msg = some b) :
    (msg.command, b) ∈ builtinHandlers := by
  obtain ⟨l₁, l₂, hl, -⟩ := lookup_eq_some_iff.1 h
  rw [hl]
  simp

/-! ## What a message leads to -/

section
variable [UnicodeTables] {μ : Type} (m : Message) (sub : Bytes)

/-- A message of the server with a subcommand of `CAP`. -/
def Message.IsServerCap : Prop :=
  m.command = Verb.CAP.name ∧ 2 ≤ m.params.length ∧ toUpper (m.param 1) = sub

/-- The last line of a list of capabilities: no `*` stands before the list. -/
def Message.FinalLS : Prop := m.IsServerCap (lit "LS") ∧ m.param 2 ≠ lit "*"

/-- `CAP ACK` and `CAP NAK`. -/
def Message.AnswersREQ : Prop := m.IsServerCap (lit "ACK") ∨ m.IsServerCap (lit "NAK")

/-- One of the numerics 902 to 907. -/
def Message.EndsSASL : Prop :=
  m.command ∈ [lit "902", lit "903", lit "904", lit "905", lit "906", lit "907"]

instance : Decidable (m.IsServerCap sub) :=
  inferInstanceAs (Decidable (_ ∧ _ ∧ _))

instance : Decidable m.FinalLS := inferInstanceAs (Decidable (_ ∧ _))

instance : Decidable m.AnswersREQ := inferInstanceAs (Decidable (_ ∨ _))

instance : Decidable m.EndsSASL := inferInstanceAs (Decidable (_ ∈ _))

/-- **What a message can lead to**: from one phase to another, with so many `CAP END`. -/
inductive Outcome (msg : Message) (phase : CapPhase) : CapPhase → Nat → Prop
  | idle : Outcome msg phase phase 0
  | requested (h : msg.FinalLS) : Outcome msg phase .reqSent 0
  | listed (h : msg.FinalLS) : Outcome msg phase .done 1
  | answered (h : msg.AnswersREQ) (hdone : phase ≠ .done) (hsasl : phase ≠ .sasl) :
      Outcome msg phase .done 1
  | exchange (h : msg.AnswersREQ) (hdone : phase ≠ .done) (hsasl : phase ≠ .sasl) :
      Outcome msg phase .sasl 0
  | exchanged (h : msg.EndsSASL) (hdone : phase ≠ .done) : Outcome msg phase .done 1

namespace Connection

variable {cfg : ClientConfig μ} {c : Connection μ} {msg : Message}

/-- The outcome of a handler. -/
abbrev Has (c : Connection μ) (msg : Message) (r : Connection μ × List Message) : Prop :=
  Outcome msg c.capState.phase r.1.capState.phase (ends r.2)

theorem has_idle {r : Connection μ × List Message}
    (hphase : r.1.capState.phase = c.capState.phase) (hends : ends r.2 = 0) : c.Has msg r := by
  rw [Has, hphase, hends]
  exact .idle

theorem has_handleLS (h : msg.IsServerCap (lit "LS")) : c.Has msg (c.handleLS cfg msg) := by
  unfold handleLS
  by_cases hstar : msg.param 2 = lit "*"
  · simp only [hstar, if_true]
    exact has_idle rfl rfl
  · have hfinal : msg.FinalLS := ⟨h, hstar⟩
    simp only [hstar, if_false]
    split
    · exact has_idle rfl rfl
    · exact .listed hfinal
    · rw [Has, ends_reqMessage]
      exact .requested hfinal

theorem has_startSASL {c' : Connection μ} (hphase : c'.capState.phase = c.capState.phase)
    (h : msg.AnswersREQ) (hsasl : c.capState.phase ≠ .sasl) : c.Has msg (c'.startSASL cfg) := by
  unfold startSASL
  split
  · exact has_idle hphase rfl
  · rename_i sasl _
    have hends : ends [Client.authenticateMessage sasl.name] = 0 := ends_authenticateMessages [_]
    by_cases hdone : c.capState.phase = .done
    · rw [if_neg (not_not.2 (hphase.trans hdone))]
      exact has_idle hphase hends
    · rw [if_pos (hphase ▸ hdone), Has, hends]
      exact .exchange h hdone hsasl

theorem has_handleACK (h : msg.AnswersREQ) : c.Has msg (c.handleACK cfg msg) := by
  unfold handleACK
  dsimp only
  split_ifs with hsasl hstart hdone
  · exact has_idle rfl rfl
  · exact has_startSASL rfl h hsasl
  · exact has_idle rfl rfl
  · exact .answered h hdone hsasl

theorem has_handleNAK (h : msg.AnswersREQ) : c.Has msg c.handleNAK := by
  unfold handleNAK
  dsimp only
  split_ifs with hphase
  · exact .answered h hphase.1 hphase.2
  · exact has_idle rfl rfl

theorem has_handleNEW : c.Has msg (c.handleNEW cfg msg) := by
  unfold handleNEW
  dsimp only
  split
  · exact has_idle rfl rfl
  · split
    · exact has_idle rfl rfl
    · exact has_idle rfl (ends_reqMessage _)

theorem has_handleCAP (h : msg.command = Verb.CAP.name) : c.Has msg (c.handleCAP cfg msg) := by
  unfold handleCAP
  dsimp only
  split_ifs with hlen hLS hACK hNAK hNEW hDEL
  · exact has_idle rfl rfl
  · exact has_handleLS ⟨h, not_lt.1 hlen, hLS⟩
  · exact has_handleACK (.inl ⟨h, not_lt.1 hlen, hACK⟩)
  · exact has_handleNAK (.inr ⟨h, not_lt.1 hlen, hNAK⟩)
  · exact has_handleNEW
  · exact has_idle rfl rfl
  · exact has_idle rfl rfl

theorem has_handleAuthenticate : c.Has msg (c.handleAuthenticate cfg msg) := by
  unfold handleAuthenticate
  split
  · exact has_idle rfl rfl
  · exact has_idle rfl (ends_handleAuthenticate _ _ _)

theorem has_handleSASLDone (h : msg.EndsSASL) : c.Has msg c.handleSASLDone := by
  unfold handleSASLDone
  dsimp only
  split_ifs with hdone
  · exact .exchanged h hdone
  · exact has_idle rfl rfl

variable (cfg) (c) (msg)

/-- **A message leads to one of the outcomes**, whatever the connection. -/
theorem has_dispatch : c.Has msg (c.dispatch cfg msg) := by
  unfold dispatch
  split_ifs with hpanicked
  · exact has_idle rfl rfl
  cases hb : builtinOf msg with
  | none => exact has_idle rfl rfl
  | some b =>
    have hmem := builtinOf_mem hb
    simp only [builtinHandlers, mem_cons, Prod.mk.injEq, not_mem_nil, or_false] at hmem
    have hnumeric : b = .saslFail ∨ b = .saslSuccess → msg.EndsSASL := by
      rintro (rfl | rfl)
      · simp only [and_false, and_true, false_or, or_false, reduceCtorEq] at hmem
        rcases hmem with h | h | h | h | h <;> simp [Message.EndsSASL, h]
      · simp only [and_false, and_true, false_or, or_false, reduceCtorEq] at hmem
        simp [Message.EndsSASL, hmem]
    cases b with
    | ping | nickInUse => exact has_idle rfl (ends_sendf (by decide) _)
    | cap => exact has_handleCAP (by simpa using hmem)
    | authenticate => exact has_handleAuthenticate
    | welcome =>
      refine has_idle ?_ rfl
      simp only [Option.elim_some, builtin, handleWelcome]
      split_ifs <;> rfl
    | saslFail => exact has_handleSASLDone (hnumeric (.inl rfl))
    | saslSuccess => exact has_handleSASLDone (hnumeric (.inr rfl))
    | nickChange =>
      refine has_idle ?_ rfl
      simp only [Option.elim_some, builtin, handleNickChange]
      split_ifs <;> rfl

end Connection

/-! ## The end of the negotiation -/

/-- 1 after the end of the negotiation. -/
def CapPhase.ended (phase : CapPhase) : Nat := if phase = .done then 1 else 0

theorem Outcome.ended {msg : Message} {phase : CapPhase}
    (h : Outcome msg phase phase' n) (hLS : msg.FinalLS → phase ≠ .done) :
    phase.ended + n = phase'.ended := by
  cases h with
  | idle => rfl
  | requested h | listed h => rw [CapPhase.ended, if_neg (hLS h)]; rfl
  | answered h hdone hsasl | exchange h hdone hsasl
  | exchanged h hdone => rw [CapPhase.ended, if_neg hdone]; rfl

/-- The phase is as it was: the message is none that the client waits for. -/
theorem Outcome.same {msg : Message} {phase : CapPhase} (h : Outcome msg phase phase' n)
    (hLS : ¬ msg.FinalLS) (hanswers : phase ≠ .sasl → ¬ msg.AnswersREQ) (hsasl : ¬ msg.EndsSASL) :
    phase' = phase := by
  cases h with
  | idle => rfl
  | requested h | listed h => exact absurd h hLS
  | answered h _ hne | exchange h _ hne => exact absurd h (hanswers hne)
  | exchanged h => exact absurd h hsasl

namespace ClientConfig

variable (cfg : ClientConfig μ)

theorem outcome (msgs : List Message) (msg : Message) :
    ∃ n, Outcome msg (cfg.phaseAfter msgs) (cfg.phaseAfter (msgs ++ [msg])) n ∧
      ends (cfg.sent (msgs ++ [msg])) = ends (cfg.sent msgs) + n := by
  refine ⟨ends ((cfg.conversation.after msgs).dispatch cfg.setDefaults msg).2, ?_, ?_⟩
  · rw [phaseAfter, phaseAfter, System.after_concat]
    exact Connection.has_dispatch _ _ _
  · rw [cfg.sent_concat, ends_append]

variable {cfg}

/-- The negotiation has ended if `CAP END` was sent, and it was sent once then: no list ends when the
negotiation has ended. -/
theorem ends_sent
    (h : cfg.conversation.Each (fun msgs _ msg => msg.FinalLS → cfg.phaseAfter msgs ≠ .done) msgs) :
    ends (cfg.sent msgs) = (cfg.phaseAfter msgs).ended := by
  induction msgs using List.reverseRecOn with
  | nil =>
    rw [sent, System.collect_nil, append_nil]
    exact ends_connect _
  | append_singleton msgs msg ih =>
    obtain ⟨hmsgs, hmsg⟩ := System.each_concat _ |>.1 h
    obtain ⟨n, hn, hends⟩ := cfg.outcome msgs msg
    rw [hends, ih hmsgs, hn.ended hmsg]

theorem phaseAfter_waiting
    (h : ∀ msg ∈ msgs, ¬ msg.FinalLS ∧ ¬ msg.AnswersREQ ∧ ¬ msg.EndsSASL) :
    cfg.phaseAfter msgs = .lsSent := by
  induction msgs using List.reverseRecOn with
  | nil => rfl
  | append_singleton msgs msg ih =>
    obtain ⟨hLS, hanswers, hsasl⟩ := h msg (by simp)
    obtain ⟨n, hn, -⟩ := cfg.outcome msgs msg
    rw [hn.same hLS (fun _ => hanswers) hsasl]
    exact ih (forall_mem_append.1 h).1

theorem phaseAfter_exchanging (h : cfg.phaseAfter msgs₁ = .sasl)
    (h₂ : ∀ msg ∈ msgs₂, ¬ msg.FinalLS ∧ ¬ msg.EndsSASL) :
    cfg.phaseAfter (msgs₁ ++ msgs₂) = .sasl := by
  induction msgs₂ using List.reverseRecOn with
  | nil => rwa [append_nil]
  | append_singleton msgs msg ih =>
    obtain ⟨hLS, hsasl⟩ := h₂ msg (by simp)
    obtain ⟨n, hn, -⟩ := cfg.outcome (msgs₁ ++ msgs) msg
    rw [ih (forall_mem_append.1 h₂).1] at hn
    rw [← append_assoc]
    exact hn.same hLS (fun hne => absurd rfl hne) hsasl

end ClientConfig

/-- A conversation with one list of capabilities, before the end of which nothing is acknowledged and
no exchange ends. -/
structure OneList (before : List Message) (ls : Message) (after : List Message) : Prop where
  before : ∀ msg ∈ before, ¬ msg.FinalLS ∧ ¬ msg.AnswersREQ ∧ ¬ msg.EndsSASL
  final : ls.FinalLS
  after : ∀ msg ∈ after, ¬ msg.FinalLS

namespace OneList

variable {before after : List Message} {ls : Message}

omit [UnicodeTables] in
theorem position {msg : Message} (h : msgs₁ ++ msg :: msgs₂ <+: before ++ ls :: after) :
    msgs₁ ++ [msg] <+: before ∨
      (msgs₁ = before ∧ msg = ls ∨ msg ∈ after) ∧ ∀ m ∈ msgs₂, m ∈ after := by
  obtain ⟨rest, hrest⟩ := h
  rw [append_assoc, cons_append] at hrest
  obtain ⟨l, hbefore, hl⟩ | ⟨l, hmsgs, hl⟩ := append_eq_append_iff.1 hrest
  · cases l with
    | nil =>
      rw [nil_append, List.cons.injEq] at hl
      rw [append_nil] at hbefore
      exact .inr ⟨.inl ⟨hbefore.symm, hl.1⟩, fun m hm => hl.2 ▸ mem_append_left _ hm⟩
    | cons m l =>
      rw [cons_append, List.cons.injEq] at hl
      exact .inl ⟨l, by rw [hbefore, hl.1]; simp⟩
  · cases l with
    | nil =>
      rw [nil_append, List.cons.injEq] at hl
      rw [append_nil] at hmsgs
      exact .inr ⟨.inl ⟨hmsgs, hl.1.symm⟩, fun m hm => hl.2 ▸ mem_append_left _ hm⟩
    | cons m l =>
      rw [cons_append, List.cons.injEq] at hl
      exact .inr ⟨.inr (by simp [hl.2]), fun m hm => by simp [hl.2, hm]⟩

variable {cfg : ClientConfig μ}

theorem phaseAfter_of_prefix (h : OneList before ls after)
    (hmsgs : msgs <+: before) : cfg.phaseAfter msgs = .lsSent :=
  ClientConfig.phaseAfter_waiting fun msg hmsg => h.before msg (hmsgs.subset hmsg)

theorem each (h : OneList before ls after) :
    cfg.conversation.Each (fun msgs _ msg => msg.FinalLS → cfg.phaseAfter msgs ≠ .done)
      (before ++ ls :: after) := by
  intro msgs msg hmsgs hLS
  obtain hbefore | ⟨⟨rfl, -⟩ | hafter, -⟩ := position hmsgs
  · exact absurd hLS (h.before msg (hbefore.subset (by simp))).1
  · rw [h.phaseAfter_of_prefix prefix_rfl]
    decide
  · exact absurd hLS (h.after msg hafter)

/-- In every part of the conversation `CAP END` was sent once if the negotiation has ended, and not
at all before. -/
theorem ends_eq (h : OneList before ls after)
    (hmsgs : msgs <+: before ++ ls :: after) :
    ends (cfg.sent msgs) = (cfg.phaseAfter msgs).ended :=
  ClientConfig.ends_sent fun msgs' msg hmsg => h.each msgs' msg (hmsg.trans hmsgs)

end OneList

/-- **The negotiation ends once, and not in an exchange**: when the client has entered the phase
`sasl`, it sends no `CAP END` before the next of the numerics 902 to 907. -/
theorem capEnd_once (cfg : ClientConfig μ) {before after : List Message} {ls : Message}
    (h : OneList before ls after) :
    ends (cfg.sent (before ++ ls :: after)) ≤ 1 ∧
      ∀ msgs₁ msg msgs₂, msgs₁ ++ msg :: msgs₂ <+: before ++ ls :: after →
        cfg.phaseAfter msgs₁ ≠ .sasl → cfg.phaseAfter (msgs₁ ++ [msg]) = .sasl →
        (∀ m ∈ msgs₂, ¬ m.EndsSASL) →
        ends (cfg.sent (msgs₁ ++ msg :: msgs₂)) = ends (cfg.sent msgs₁) := by
  constructor
  · rw [h.ends_eq prefix_rfl, CapPhase.ended]
    split_ifs <;> simp
  · intro msgs₁ msg msgs₂ hmsgs _ hsasl hmsgs₂
    have hafter : ∀ m ∈ msgs₂, m ∈ after := by
      -- the phase is another one until the list has ended
      obtain hbefore | ⟨-, hafter⟩ := OneList.position hmsgs
      · rw [h.phaseAfter_of_prefix hbefore] at hsasl
        cases hsasl
      · exact hafter
    have hphase : cfg.phaseAfter (msgs₁ ++ msg :: msgs₂) = .sasl := by
      rw [append_cons]
      exact ClientConfig.phaseAfter_exchanging hsasl fun m hm =>
        ⟨h.after m (hafter m hm), hmsgs₂ m hm⟩
    have hends : ends (cfg.sent (msgs₁ ++ msg :: msgs₂)) = 0 := by
      rw [h.ends_eq hmsgs, hphase]
      rfl
    have hmsg : ends (cfg.sent (msgs₁ ++ [msg])) = 0 := by
      rw [h.ends_eq (List.IsPrefix.trans ⟨msgs₂, by simp⟩ hmsgs), hsasl]
      rfl
    obtain ⟨n, -, hn⟩ := cfg.outcome msgs₁ msg
    omega

end

section
attribute [local instance] asciiTables

/-- A client that logs in with `PLAIN`. -/
def plainClient : ClientConfig Plain where
  sasl := some
    { name := lit "PLAIN", mechanism := plain
      start := { username := lit "alice", password := lit "secret" } }

/-- A message of the server to a client without a nick. -/
def serverCap (params : List Bytes) : Message :=
  { source := some { nick := lit "irc.local" }, command := Verb.CAP.name
    params := lit "*" :: params }

/-- In a login there is an exchange, and the negotiation ends after it. -/
theorem capEnd_once_plainClient :
    let before := [serverCap [lit "LS", lit "*", lit "batch sasl=PLAIN"]]
    let ls := serverCap [lit "LS", lit "cap-notify"]
    let ack := serverCap [lit "ACK", lit "batch sasl"]
    let challenge : Message := { command := lit "AUTHENTICATE", params := [lit "+"] }
    let success : Message := { command := lit "903", params := [lit "*", lit "welcome"] }
    OneList before ls [ack, challenge, success] ∧
      plainClient.phaseAfter (before ++ [ls]) = .reqSent ∧
      plainClient.phaseAfter (before ++ [ls, ack]) = .sasl ∧
      ends (plainClient.sent (before ++ [ls, ack, challenge])) =
        ends (plainClient.sent (before ++ [ls])) ∧
      ends (plainClient.sent (before ++ [ls, ack, challenge, success])) ≤ 1 := by
  intro before ls ack challenge success
  have hlist : OneList before ls [ack, challenge, success] := by
    constructor <;> decide
  have hphase : plainClient.phaseAfter (before ++ [ls]) = .reqSent := by decide +kernel
  have hsasl : plainClient.phaseAfter (before ++ [ls, ack]) = .sasl := by decide +kernel
  have honce := capEnd_once plainClient hlist
  refine ⟨hlist, hphase, hsasl, ?_, honce.1⟩
  exact honce.2 (before ++ [ls]) ack [challenge] ⟨[success], rfl⟩ (by rw [hphase]; decide) hsasl
    (by decide)

end

end Irc
