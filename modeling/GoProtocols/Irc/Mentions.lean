import GoProtocols.Irc.Proof.Legible
import GoProtocols.Irc.Server.Dispatch

/-!
# What replies are made of

The texts in what the server sends for a command, read off the state before the command: what it
echoes of the command, and what it remembers or is configured with, each with its place in a line
(`Mention`).

Texts that the server makes up itself are left out, and a text is listed where it is read, whether
or not somebody is there to be sent it.
-/

namespace Irc

open Go List

/-- A text and its place: before another parameter, at the end of the last one, as the source, or as
the key of a tag. -/
inductive Mention
  | word (p : Bytes)
  | last (p : Bytes)
  | source (p : Prefix)
  | tag (key : Bytes)

/-- The text can stand in its place. -/
def Mention.Fits : Mention → Prop
  | .word p => Middle p
  | .last p => Ended p
  | .source p => 32 ∉ p.string
  | .tag key => TagKey key

instance : DecidablePred Mention.Fits
  | .word p => inferInstanceAs (Decidable (Middle p))
  | .last p => inferInstanceAs (Decidable (Ended p))
  | .source _ => inferInstanceAs (Decidable (_ ∉ _))
  | .tag key => inferInstanceAs (Decidable (TagKey key))

@[simp] theorem fits_word {p : Bytes} : (Mention.word p).Fits ↔ Middle p := .rfl

@[simp] theorem fits_last {p : Bytes} : (Mention.last p).Fits ↔ Ended p := .rfl

@[simp] theorem fits_source {p : Prefix} : (Mention.source p).Fits ↔ 32 ∉ p.string := .rfl

section
variable (l l' : List Mention) {x : Mention} {α : Type} {as : List α}

def Fit : Prop := ∀ x ∈ l, x.Fits

instance : Decidable (Fit l) := inferInstanceAs (Decidable (∀ _ ∈ _, _))

variable {l l'}

@[simp] theorem fit_nil : Fit [] := by simp [Fit]

@[simp] theorem fit_cons : Fit (x :: l) ↔ x.Fits ∧ Fit l := forall_mem_cons

@[simp] theorem fit_append : Fit (l ++ l') ↔ Fit l ∧ Fit l' := forall_mem_append

@[simp] theorem fit_map {f : α → Mention} : Fit (as.map f) ↔ ∀ a ∈ as, (f a).Fits := by simp [Fit]

@[simp] theorem fit_flatMap {f : α → List Mention} : Fit (as.flatMap f) ↔ ∀ a ∈ as, Fit (f a) := by
  simp only [Fit, mem_flatMap]
  exact ⟨fun h a ha x hx => h x ⟨a, ha, hx⟩, fun h x ⟨a, ha, hx⟩ => h a ha x hx⟩

end

section
variable [UnicodeTables] (env : Env) (srv : Server) (s t : SessionId) (msg : Message) (u : Session)
  (ch : Channel)

/-- The first parameter, if there is one. -/
def Message.target : List Bytes := msg.params.take 1

/-- What a stored message consists of. -/
def Message.mentions : List Mention :=
  msg.tags.entries.map (fun t => .tag t.1) ++ msg.source.toList.map .source ++
    msg.params.dropLast.map .word ++ msg.params.getLast?.toList.map .last

/-! ## Handshake -/

def mentionsCAP : List Mention :=
  msg.target.map (fun sub => .word (toUpper sub)) ++
  if toUpper (msg.param 0) = lit "LIST" then
    ((srv.session s).caps.entries.filter fun c => c.2).map fun c => .last c.1
  else if toUpper (msg.param 0) = lit "REQ" then [.last (trimPrefix (msg.param 1) (lit ":"))]
  else []

def mentionsLogIn (account : Account) : List Mention :=
  let u := srv.session s
  let host := if account.host = [] then u.host else account.host
  [.word { u.source with host }.string, .word account.name, .last account.name] ++
    if u.state = .registered then
      .source u.source ::
        if account.host ≠ [] ∧ account.host ≠ u.host then
          [.word u.user, .last account.host, .last u.realname, .last u.nick] ++
            (srv.channels.entries.filter fun ch => ch.2.hasMember u.nick).flatMap fun ch =>
              [.word ch.2.name, .last ch.2.name]
        else []
    else []

def mentionsAuthenticate : List Mention :=
  let u := srv.session s
  let buffer := if msg.param 0 ≠ lit "+" then u.saslBuffer ++ msg.param 0 else u.saslBuffer
  if u.saslActive then
    (((decodeBase64 buffer).bind plainCredentials).bind fun c =>
      env.accounts.lookup (toLower c.1)).toList.flatMap (mentionsLogIn srv s)
  else []

/-! ## Channels -/

/-- The name of a member as session `u` is shown it: with its status, and as a mask if asked for. -/
def shownName (srv : Server) (u : Session) (m : Membership) : Bytes :=
  shownStatus (u.capEnabled .multiPrefix) m.status ++
    if u.capEnabled .userHostInNames then (srv.session m.session).mask
    else (srv.session m.session).nick

def mentionsOfNames : List Mention :=
  .word ch.name :: ch.members.entries.map fun m => .last (shownName srv u m.2)

def mentionsNames : List Mention :=
  let u := srv.session s
  let channels := if msg.params = [] then
      (srv.channels.entries.map Sigma.snd).filter (·.hasMember u.nick)
    else (split (msg.param 0) 44).filterMap srv.getChannel
  channels.flatMap (mentionsOfNames srv u)

def mentionsOfTopic : List Mention :=
  if ch.topic = [] then [] else [.last ch.topic, .word ch.topicSetBy]

def mentionsJoin : List Mention :=
  let u := srv.session s
  [.source u.source, .word (if u.account = [] then lit "*" else u.account), .last u.realname,
      .last (shownName srv u ⟨s, []⟩)] ++
    ((split (msg.param 0) 44).filter (· ≠ [])).flatMap fun name =>
      .word name :: .last name :: (srv.getChannel name).toList.flatMap fun ch =>
        mentionsOfTopic ch ++ mentionsOfNames srv u ch

def mentionsPart : List Mention :=
  .source (srv.session s).source :: .last (msg.param 1) ::
    (msg.target.flatMap (split · 44)).flatMap fun name => [.word name, .last name]

def mentionsTopic : List Mention :=
  [.source (srv.session s).source, .last (msg.param 1)] ++ msg.target.map .word ++
    (srv.getChannel (msg.param 0)).toList.flatMap mentionsOfTopic

def mentionsList : List Mention :=
  (srv.channels.entries.filter fun ch =>
    ¬ (ch.2.modes.has (rune 's') || ch.2.modes.has (rune 'p')) ∨
      ch.2.hasMember (srv.session s).nick).flatMap fun ch => [.word ch.2.name, .last ch.2.topic]

def mentionsKick : List Mention :=
  let u := srv.session s
  [.source u.source, .last (if 3 ≤ msg.params.length then msg.param 2 else u.nick)] ++
    (srv.getChannel (msg.param 0)).toList.flatMap fun ch =>
      if (ch.getMembership u.nick).any fun m => isOperator m.status then [.word (msg.param 1)] else []

def mentionsInvite : List Mention :=
  [.source (srv.session s).source, .last (msg.param 1)] ++
    (srv.getChannel (msg.param 1)).toList.map fun _ => .word (msg.param 1)

def ModeSet.mentions (modes : ModeSet) : List Mention :=
  modes.flags.entries.map (fun f => .last (encodeRune f.1)) ++
    modes.args.entries.flatMap fun a => [.last (encodeRune a.1), .last a.2]

def mentionsMode : List Mention :=
  .source (srv.session s).source :: (msg.params.drop 2).map .last ++
    if isChannelTarget (msg.param 0) then
      msg.target.map .word ++ (srv.getChannel (msg.param 0)).toList.flatMap fun ch =>
        if msg.params.length < 2 then ch.modes.mentions
        else (ch.modes.list ((msg.param 1).headD 0).toNat).map .last
    else if equalFold (msg.param 0) (srv.session s).nick ∨ (srv.session s).isOper then
      msg.target.map .word ++ (srv.getSession (msg.param 0)).toList.flatMap fun t =>
        if msg.params.length < 2 then (srv.session t).modes.mentions else []
    else []

/-! ## Messages -/

def mentionsPrivmsg (notice : Bool) : List Mention :=
  [.source (srv.session s).source, .last (msg.param 1)] ++
    if isChannelTarget (msg.param 0) ∨ notice then []
    else (srv.getSession (msg.param 0)).toList.map fun t => .last (srv.session t).away

def mentionsTagmsg : List Mention :=
  [.source (srv.session s).source, .last (msg.param 0)] ++
    if msg.param 0 = [] ∨ ¬ (srv.session s).capEnabled .messageTags then [] else [.word (msg.param 0)]

def mentionsChatHistory : List Mention :=
  let u := srv.session s
  if ¬ u.capEnabled .chatHistory then []
  else .word (msg.param 0) :: if toUpper (msg.param 0) = lit "TARGETS" then
    ((srv.channels.entries.filter fun ch => ch.2.hasMember u.nick).map fun ch => .word ch.2.name) ++
      u.history.entries.map fun h => .word h.1
  else
    (storedHistory srv u (msg.param 1)).toList.flatMap fun stored =>
      .last stored.1 :: stored.2.flatMap fun e => e.msg.mentions

/-! ## Queries -/

def mentionsOfWho (status : Bytes) : List Mention :=
  let u := srv.session t
  [.word u.user, .word u.host, .word env.cfg.name, .word u.nick, .word (lit "H" ++ status),
    .last u.realname]

def mentionsWho : List Mention :=
  let mask := if msg.params = [] then lit "*" else msg.param 0
  msg.target.map .word ++ if isChannelTarget mask then
    (srv.getChannel mask).toList.flatMap fun ch =>
      ch.members.entries.flatMap fun m => mentionsOfWho env srv m.2.session m.2.status
  else
    (srv.sessions.entries.filter fun e => matchMask mask (srv.session e.2).mask ||
      matchMask mask (srv.session e.2).nick).flatMap fun e => mentionsOfWho env srv e.2 []

def mentionsOfWhois : List Mention :=
  let u := srv.session t
  [.word u.nick, .word u.user, .word u.host, .last u.realname, .word env.cfg.name,
      .last env.cfg.network, .last u.away] ++
    (if u.account = [] then [] else [.word u.account]) ++
    (srv.channels.entries.filterMap fun ch =>
      (ch.2.getMembership u.nick).map fun m => .last (m.status ++ ch.2.name))

def mentionsWhois : List Mention :=
  (srv.getSession (msg.param 0)).elim (msg.target.map .word) (mentionsOfWhois env srv)

def mentionsWhowas : List Mention :=
  msg.target.map .word ++ (srv.whowas.filter fun e => equalFold e.nick (msg.param 0)).flatMap fun e =>
    [.word e.nick, .word e.user, .word e.host, .last e.realname, .word env.cfg.name]

def mentionsUserhost : List Mention :=
  (msg.params.filterMap srv.getSession).map fun t => .last (srv.session t).host

def mentionsIson : List Mention :=
  (msg.params.filter fun nick => (srv.getSession nick).isSome).map .last

def mentionsMonitor : List Mention :=
  let u := srv.session s
  let sub := toUpper (msg.param 0)
  let masks (nicks : List Bytes) := (nicks.filterMap srv.getSession).map fun t =>
    Mention.last (srv.session t).mask
  if sub = lit "+" then masks (split (msg.param 1) 44)
  else if sub = lit "L" then u.monitor.entries.map fun n => .last n.2
  else if sub = lit "S" then
    masks (u.monitor.entries.map Sigma.snd) ++ u.monitor.entries.map fun n => .last n.2
  else []

/-! ## Commands -/

/-- What the second switch of `dispatch` leads to. -/
def mentionsRegistered : List Mention :=
  match verbOf (toUpper msg.command) with
  | some .JOIN => mentionsJoin srv s msg
  | some .PART => mentionsPart srv s msg
  | some .TOPIC => mentionsTopic srv s msg
  | some .NAMES => mentionsNames srv s msg
  | some .LIST => mentionsList srv s
  | some .KICK => mentionsKick srv s msg
  | some .INVITE => mentionsInvite srv s msg
  | some .MODE => mentionsMode srv s msg
  | some .PRIVMSG => mentionsPrivmsg srv s msg false
  | some .NOTICE => mentionsPrivmsg srv s msg true
  | some .TAGMSG => mentionsTagmsg srv s msg
  | some .CHATHISTORY => mentionsChatHistory srv s msg
  | some .WHO => mentionsWho env srv msg
  | some .WHOIS => mentionsWhois env srv msg
  | some .WHOWAS => mentionsWhowas env srv msg
  | some .USERHOST => mentionsUserhost srv msg
  | some .ISON => mentionsIson srv msg
  | some .MONITOR => mentionsMonitor srv s msg
  | some .AWAY | some .SETNAME | some .WALLOPS =>
    [.source (srv.session s).source, .last (msg.param 0)]
  | some .KILL => [.source (srv.session s).source]
  | some .OPER => [.word (srv.session s).nick]
  | some .MOTD => (split env.cfg.motd 10).map .last
  | some .VERSION | some .TIME => [.word env.cfg.name]
  | some .ADMIN => [.word env.cfg.name, .last env.cfg.name]
  | some .STATS => msg.target.map .word
  | some .LUSERS | some .INFO => []
  | _ => [.word (toUpper msg.command)]

/-- The texts in what is sent for a command. -/
def mentions : List Mention :=
  let target := .word (srv.session s).target
  match verbOf (toUpper msg.command) with
  | some .QUIT | some .PONG => []
  | some .PING => [.last (msg.params.getLastD env.cfg.name)]
  | some .CAP => target :: mentionsCAP srv s msg
  | some .AUTHENTICATE => target :: mentionsAuthenticate env srv s msg
  | some .NICK => target :: msg.target.map .word
  | some .PASS | some .USER => [target]
  | _ =>
    target :: if (srv.session s).state = .registered then mentionsRegistered env srv s msg else []

variable {msg}

omit [UnicodeTables] in
theorem middle_first (h : Fit (msg.target.map .word)) (hne : msg.params ≠ []) :
    Middle (msg.param 0) := by
  obtain ⟨p, params, hp⟩ := exists_cons_of_ne_nil hne
  simpa [Message.target, Message.param, hp] using h

omit [UnicodeTables] in
theorem middle_first_or {p : Bytes} (h : Fit (msg.target.map .word)) (hp : Middle p) :
    Middle (if msg.params = [] then p else msg.param 0) := by
  split
  · exact hp
  · exact middle_first h ‹_›

end

end Irc
