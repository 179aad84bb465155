import GoProtocols.Irc.Proof.Quiet

/-!
# Commands as scripts

`Script p m`: the program `m` is put together from reads, from messages that it sends, from password
checks and from updates of the server, and all that it does lies in the scope `p`. It is a predicate
on programs with a constructor for every basic operation, so that what all commands have in common
is shown once, by induction over it, and not for one command after another. As for `Within`, the
rules are instances.

The first such facts are what a script leaves alone (`Steady`, `Script.within`), and that a script
in a small enough scope leaves the users, the rosters or the logins alone.
-/

namespace Irc

open Go Prog List

/-! ## Scopes -/

variable {α β : Type} (b : Bool) (f : α → β) {name : Bytes}

/-- What a script may do beyond what every command may. -/
structure Scope where
  /-- It sends messages that were made before. -/
  replays : Bool := false
  /-- It checks a password. -/
  checks : Bool := false
  /-- It changes the capabilities of a session. -/
  negotiates : Bool := false
  /-- It adds to histories. -/
  records : Bool := false
  /-- It changes modes, or makes a session an operator. -/
  moderates : Bool := false
  /-- It changes who the users are, or welcomes one. -/
  enrolls : Bool := false
  /-- It changes who is in a channel. -/
  seats : Bool := false
  /-- It changes a login. -/
  logs : Bool := false

abbrev Scope.all : Scope := ⟨true, true, true, true, true, true, true, true⟩

/-- A message as handlers make it: without a label, and not the frame of a batch. -/
structure Unframed (msg : Message) : Prop where
  label : msg.tags.lookup (lit "label") = none
  command : msg.command ≠ Verb.BATCH.name

def Session.Holds (u : Session) (e : ChatHistoryEntry) : Prop :=
  ∃ key entries, u.history.lookup key = some entries ∧ e ∈ entries

/-- Between the sessions, only what the scope allows has changed. -/
structure Session.Steady (p : Scope) (u u' : Session) : Prop where
  secure : u'.secure = u.secure
  ident : p.enrolls = false → u'.ident = u.ident
  account : p.logs = false →
    u'.account = u.account ∧ u'.saslActive = u.saslActive ∧ u'.saslBuffer = u.saslBuffer
  caps : p.negotiates = false → u'.caps = u.caps ∧ u'.capVersion = u.capVersion
  history : p.records = false → u'.history = u.history
  standing : p.moderates = false → u'.modes = u.modes ∧ u'.isOper = u.isOper
  holds : ∀ e, u'.Holds e → u.Holds e ∨ Unframed e.msg

/-- A history of the server has this entry. -/
inductive Server.Holds (srv : Server) (e : ChatHistoryEntry) : Prop
  | channel {key : Bytes} {ch : Channel} (h : srv.channels.lookup key = some ch)
      (he : e ∈ ch.history) : Holds srv e
  | session {t : SessionId} (h : (srv.session t).Holds e) : Holds srv e

/-- Of a part of the channels: a channel is new, or has what it had. -/
def Server.Kept (part : Channel → α) (new : α) (srv srv' : Server) : Prop :=
  ∀ key ch', srv'.channels.lookup key = some ch' →
    part ch' = new ∨ ∃ ch, srv.channels.lookup key = some ch ∧ part ch' = part ch

structure Server.Steady (p : Scope) (srv srv' : Server) : Prop where
  session : ∀ t, (srv.session t).Steady p (srv'.session t)
  registry : p.enrolls = false → srv'.sessions = srv.sessions ∧ srv'.allocated = srv.allocated
  roster : p.seats = false → srv'.roster = srv.roster
  rooms : p.records = false → srv.Kept Channel.history [] srv'
  modes : p.moderates = false → srv.Kept Channel.modes {} srv'
  holds : ∀ e, srv'.Holds e → srv.Holds e ∨ Unframed e.msg

structure Steady (p : Scope) (st st' : State) : Prop where
  reads : st.reads ≤ st'.reads
  srv : st.srv.Steady p st'.srv

variable {p : Scope} (u : Session) (msg : Message) (msgid time : Bytes) (source : Option Prefix)
  (command : Bytes) (params : List Bytes) (n : Numeric)

section
variable {α : Type} {part : Channel → α} {new : α} {srv srv' srv'' : Server} {key : Bytes}

theorem Server.kept_of_eq (h : srv'.channels = srv.channels) : srv.Kept part new srv' :=
  fun _ ch hch => .inr ⟨ch, h ▸ hch, rfl⟩

theorem Server.Kept.trans (h : srv.Kept part new srv') (h' : srv'.Kept part new srv'') :
    srv.Kept part new srv'' := by
  intro key ch'' hch''
  rcases h' key ch'' hch'' with hnew | ⟨ch', hch', heq⟩
  · exact .inl hnew
  · rcases h key ch' hch' with hnew | ⟨ch, hch, heq'⟩
    · exact .inl (heq.trans hnew)
    · exact .inr ⟨ch, hch, heq.trans heq'⟩

theorem Server.Kept.insert {ch' : Channel} (h : srv'.channels = srv.channels.insert key ch')
    (hch' : part ch' = new ∨ ∃ ch, srv.channels.lookup key = some ch ∧ part ch' = part ch) :
    srv.Kept part new srv' := by
  intro k ch hch
  rw [h, Map.lookup_insert_eq] at hch
  split at hch
  · rename_i hk
    cases hch
    exact hk ▸ hch'
  · exact .inr ⟨ch, hch, rfl⟩

theorem Server.Kept.erase (h : srv'.channels = srv.channels.erase key) :
    srv.Kept part new srv' := by
  intro k ch hch
  rw [h, Map.lookup_erase_eq] at hch
  split at hch
  · cases hch
  · exact .inr ⟨ch, hch, rfl⟩

end

theorem Session.steady_refl : u.Steady p u :=
  ⟨rfl, fun _ => rfl, fun _ => ⟨rfl, rfl, rfl⟩, fun _ => ⟨rfl, rfl⟩, fun _ => rfl,
    fun _ => ⟨rfl, rfl⟩, fun _ => .inl⟩

theorem Session.Steady.trans {u u' u'' : Session} (h : u.Steady p u') (h' : u'.Steady p u'') :
    u.Steady p u'' where
  secure := h'.secure.trans h.secure
  ident hp := (h'.ident hp).trans (h.ident hp)
  account hp :=
    ⟨(h'.account hp).1.trans (h.account hp).1, (h'.account hp).2.1.trans (h.account hp).2.1,
      (h'.account hp).2.2.trans (h.account hp).2.2⟩
  caps hp := ⟨(h'.caps hp).1.trans (h.caps hp).1, (h'.caps hp).2.trans (h.caps hp).2⟩
  history hp := (h'.history hp).trans (h.history hp)
  standing hp :=
    ⟨(h'.standing hp).1.trans (h.standing hp).1, (h'.standing hp).2.trans (h.standing hp).2⟩
  holds e he := (h'.holds e he).elim (h.holds e) .inr

theorem Server.steady_refl (srv : Server) : srv.Steady p srv :=
  ⟨fun t => (srv.session t).steady_refl, fun _ => ⟨rfl, rfl⟩, fun _ => rfl,
    fun _ => kept_of_eq rfl, fun _ => kept_of_eq rfl, fun _ => .inl⟩

theorem Server.Steady.trans {srv srv' srv'' : Server} (h : srv.Steady p srv')
    (h' : srv'.Steady p srv'') : srv.Steady p srv'' where
  session t := (h.session t).trans (h'.session t)
  registry hp := ⟨(h'.registry hp).1.trans (h.registry hp).1,
    (h'.registry hp).2.trans (h.registry hp).2⟩
  roster hp := (h'.roster hp).trans (h.roster hp)
  rooms hp := (h.rooms hp).trans (h'.rooms hp)
  modes hp := (h.modes hp).trans (h'.modes hp)
  holds e he := (h'.holds e he).elim (h.holds e) .inr

theorem Server.Steady.of_sessions {srv srv' : Server}
    (hsession : ∀ t, (srv.session t).Steady p (srv'.session t))
    (hregistry : p.enrolls = false → srv'.sessions = srv.sessions ∧ srv'.allocated = srv.allocated)
    (hchannels : srv'.channels = srv.channels) : srv.Steady p srv' where
  session := hsession
  registry := hregistry
  roster _ := by
    unfold Server.roster
    rw [hchannels]
  rooms _ := kept_of_eq hchannels
  modes _ := kept_of_eq hchannels
  holds e he := by
    cases he with
    | channel hch he => exact .inl (.channel (hchannels ▸ hch) he)
    | session ht => exact ((hsession _).holds e ht).imp_left .session

section
variable {srv : Server} {channels : Map Bytes Channel}

theorem Server.Steady.of_channels
    (hroster : p.seats = false → { srv with channels : Server }.roster = srv.roster)
    (hrooms : p.records = false → srv.Kept Channel.history [] { srv with channels })
    (hmodes : p.moderates = false → srv.Kept Channel.modes {} { srv with channels })
    (hentries : ∀ key ch', channels.lookup key = some ch' → ∀ e ∈ ch'.history,
      (∃ ch, srv.channels.lookup key = some ch ∧ e ∈ ch.history) ∨ Unframed e.msg) :
    srv.Steady p { srv with channels } where
  session t := (srv.session t).steady_refl
  registry _ := ⟨rfl, rfl⟩
  roster := hroster
  rooms := hrooms
  modes := hmodes
  holds e he := by
    cases he with
    | channel hch he =>
      exact (hentries _ _ hch e he).imp_left fun ⟨_, hch', he'⟩ => .channel hch' he'
    | session ht => exact .inl (.session ht)

theorem Server.Steady.of_rooms [hp : Decided p.seats]
    (hrooms : srv.Kept Channel.history [] { srv with channels })
    (hmodes : srv.Kept Channel.modes {} { srv with channels }) :
    srv.Steady p { srv with channels } := by
  refine .of_channels (fun h => absurd h (by simp [hp.eq_true])) (fun _ => hrooms) (fun _ => hmodes)
    fun key ch' hch' e he => .inl ?_
  rcases hrooms key ch' hch' with hnew | ⟨ch, hch, heq⟩
  · rw [hnew] at he
    cases he
  · exact ⟨ch, hch, heq ▸ he⟩

end

instance : IsPreorder State (Steady p) where
  refl st := ⟨Nat.le_refl _, st.srv.steady_refl⟩
  trans _ _ _ h h' := ⟨Nat.le_trans h.reads h'.reads, h.srv.trans h'.srv⟩

theorem Server.Steady.all {srv srv' : Server} (h : srv.Steady p srv') : srv.Steady .all srv' where
  session t := ⟨(h.session t).secure, nofun, nofun, nofun, nofun, nofun, (h.session t).holds⟩
  registry := nofun
  roster := nofun
  rooms := nofun
  modes := nofun
  holds := h.holds

theorem Onward.steady {st st' : State} (h : Onward st st') : Steady p st st' :=
  ⟨h.reads, by rw [h.srv]; exact st.srv.steady_refl⟩

/-! ## Updates -/

/-- The functions are the same unless `b`: an update of a field that `b` allows. -/
class Spared {α β : Type} (b : Bool) (f g : α → β) : Prop where
  eq : b = false → f = g

instance : Spared b f f := ⟨fun _ => rfl⟩

instance (g : α → β) [hb : Decided b] : Spared b f g :=
  ⟨fun h => absurd h (by simp [hb.eq_true])⟩

/-- An update of a session in the scope. -/
class KeepsCaps (p : Scope) (f : Session → Session) : Prop where
  steady : ∀ u : Session, u.Steady p (f u)

instance (nick user host realname account away serverName saslBuffer : Session → Bytes)
    (saslActive isOper connected closed : Session → Bool) (state : Session → SessionState)
    (modes : Session → ModeSet) (caps : Session → Map Bytes Bool) (capVersion : Session → Int)
    (monitor : Session → Map Bytes Bytes) (idleAt signOnAt : Session → Time)
    [hnick : Spared p.enrolls nick Session.nick] [huser : Spared p.enrolls user Session.user]
    [hstate : Spared p.enrolls state Session.state]
    [hconnected : Spared p.enrolls connected Session.connected]
    [haccount : Spared p.logs account Session.account]
    [hactive : Spared p.logs saslActive Session.saslActive]
    [hbuffer : Spared p.logs saslBuffer Session.saslBuffer]
    [hcaps : Spared p.negotiates caps Session.caps]
    [hversion : Spared p.negotiates capVersion Session.capVersion]
    [hmodes : Spared p.moderates modes Session.modes]
    [hoper : Spared p.moderates isOper Session.isOper] :
    KeepsCaps p fun u =>
      Session.mk (nick u) (user u) (host u) (realname u) (account u) (away u) u.secure
        (serverName u) (modes u) (caps u) u.history (state u) (monitor u) (capVersion u)
        (saslActive u) (saslBuffer u) (idleAt u) (signOnAt u) (isOper u) (connected u)
    (closed u) where
  steady u :=
    { secure := rfl
      ident := fun h => by
        simp [Session.ident, hnick.eq h, huser.eq h, hstate.eq h, hconnected.eq h]
      account := fun h => ⟨congrFun (haccount.eq h) u, congrFun (hactive.eq h) u,
        congrFun (hbuffer.eq h) u⟩
      caps := fun h => ⟨congrFun (hcaps.eq h) u, congrFun (hversion.eq h) u⟩
      history := fun _ => rfl
      standing := fun h => ⟨congrFun (hmodes.eq h) u, congrFun (hoper.eq h) u⟩
      holds := fun _ => .inl }

theorem Server.steady_setSession (srv : Server) (s : SessionId) (f : Session → Session)
    [hf : KeepsCaps p f] : srv.Steady p (srv.setSession s f) :=
  .of_sessions ((Function.forall_update_iff srv.session fun t u => (srv.session t).Steady p u).2
    ⟨hf.steady _, fun t _ => (srv.session t).steady_refl⟩) (fun _ => ⟨rfl, rfl⟩) rfl

/-- An update of a channel in the scope. -/
class KeepsHistory (p : Scope) (f : Channel → Channel) : Prop where
  roster : p.seats = false → ∀ ch, (f ch).roster = ch.roster
  history : p.records = false → ∀ ch, (f ch).history = ch.history
  modes : p.moderates = false → ∀ ch, (f ch).modes = ch.modes
  entries : ∀ ch, ∀ e ∈ (f ch).history, e ∈ ch.history ∨ Unframed e.msg

theorem KeepsHistory.of_eq {f : Channel → Channel}
    (hroster : p.seats = false → ∀ ch, (f ch).roster = ch.roster)
    (h : ∀ ch, (f ch).history = ch.history)
    (hmodes : p.moderates = false → ∀ ch, (f ch).modes = ch.modes) : KeepsHistory p f :=
  ⟨hroster, fun _ => h, hmodes, fun ch _ he => .inl (h ch ▸ he)⟩

instance (topic topicSetBy : Channel → Bytes) (topicSetAt createdAt : Channel → Time) :
    KeepsHistory p fun ch =>
      Channel.mk ch.name (topic ch) (topicSetBy ch) (topicSetAt ch) ch.modes (createdAt ch)
        ch.members ch.history :=
  .of_eq (fun _ _ => rfl) (fun _ => rfl) fun _ _ => rfl

theorem Server.steady_setChannel (srv : Server) (key : Bytes) (f : Channel → Channel)
    [hf : KeepsHistory p f] : srv.Steady p (srv.setChannel key f) := by
  unfold Server.setChannel
  cases hch : srv.channels.lookup key with
  | none => exact srv.steady_refl
  | some ch =>
    refine .of_channels (fun hp => ?_) (fun hp => .insert rfl (.inr ⟨ch, hch, hf.history hp ch⟩))
      (fun hp => .insert rfl (.inr ⟨ch, hch, hf.modes hp ch⟩)) fun k ch' hch' e he => ?_
    · funext k
      by_cases hk : k = key
      · subst hk
        simp [Server.roster, hch, hf.roster hp]
      · simp [Server.roster, hk]
    rw [Map.lookup_insert_eq] at hch'
    split at hch'
    · rename_i hk
      cases hch'
      exact (hf.entries ch e he).imp_left fun he => ⟨ch, hk ▸ hch, he⟩
    · exact .inl ⟨ch', hch', he⟩

/-! ## Messages -/

/-- A command that is not `BATCH`. -/
class NotBatch (command : Bytes) : Prop where
  ne_batch : command ≠ Verb.BATCH.name

@[reducible] def Verb.isUnframed : Verb → Bool
  | .BATCH => false
  | _ => true

theorem Verb.name_ne_batch {v : Verb} (h : v.isUnframed = true) : v.name ≠ Verb.BATCH.name := by
  revert h
  cases v <;> decide

instance (v : Verb) [h : Decided v.isUnframed] : NotBatch v.name := ⟨v.name_ne_batch h.eq_true⟩

instance : NotBatch n.string where
  ne_batch := by cases n <;> decide

/-- A command that is not the welcome, unless the scope allows that. -/
class Ordinary (p : Scope) (command : Bytes) : Prop where
  ordinary : p.enrolls = true ∨ command ≠ Numeric.RPL_WELCOME.string

@[reducible] def Numeric.isOrdinary : Numeric → Bool
  | .RPL_WELCOME => false
  | _ => true

instance (v : Verb) : Ordinary p v.name := ⟨.inr v.name_ne_welcome⟩

instance [h : Decided n.isOrdinary] : Ordinary p n.string where
  ordinary := .inr (Numeric.string_ne_welcome fun he => by
    have hn := h.eq_true
    rw [he] at hn
    cases hn)

instance (e : ChatHistoryEntry) : Ordinary p e.msg.command :=
  ⟨.inr (e.command_eq ▸ e.verb.name_ne_welcome)⟩

instance [h : Decided p.enrolls] : Ordinary p command := ⟨.inl h.eq_true⟩

/-- A message that is no frame, for rules that are instances. -/
class IsUnframed (p : Scope) (msg : Message) : Prop extends Ordinary p msg.command where
  unframed : Unframed msg

instance [h : NotBatch command] [ho : Ordinary p command] :
    IsUnframed p (Message.mk ∅ source command params) :=
  { ho with unframed := ⟨rfl, h.ne_batch⟩ }

theorem lookup_clientTags (hname : hasPrefix name (lit "+") = false)
    (entries : List (Sigma fun _ : Bytes => Bytes)) (tags : Tags) :
    (entries.foldl (fun tags t => if hasPrefix t.1 (lit "+") then tags.insert t.1 t.2 else tags)
      tags).lookup name = tags.lookup name := by
  induction entries generalizing tags with
  | nil => rfl
  | cons t entries ih =>
    rw [foldl_cons, ih]
    split
    · rename_i ht
      rw [Map.lookup_insert_eq, if_neg]
      intro he
      rw [← he, hname] at ht
      cases ht
    · rfl

theorem lookup_relayTags (hname : hasPrefix name (lit "+") = false) :
    (relayTags u msg msgid time).lookup name =
      if name = lit "account" ∧ u.account ≠ [] then some u.account
      else (Map.ofList [(lit "msgid", msgid), (lit "time", time)]).lookup name := by
  have hclient : (relayTags u msg msgid time).lookup name =
      (if u.account ≠ [] then
        (Map.ofList [(lit "msgid", msgid), (lit "time", time)]).insert (lit "account") u.account
      else Map.ofList [(lit "msgid", msgid), (lit "time", time)]).lookup name := by
    unfold relayTags
    dsimp only
    split
    · exact lookup_clientTags hname _ _
    · rfl
  rw [hclient]
  by_cases haccount : u.account ≠ []
  · rw [if_pos haccount, Map.lookup_insert_eq]
    exact if_congr (and_iff_left haccount).symm rfl rfl
  · rw [if_neg haccount, if_neg fun h => haccount h.2]

theorem relayTags_label : (relayTags u msg msgid time).lookup (lit "label") = none := by
  rw [lookup_relayTags u msg msgid time (by decide), if_neg fun h => absurd h.1 (by decide)]
  rfl

instance [h : NotBatch command] [ho : Ordinary p command] :
    IsUnframed p (Message.mk (relayTags u msg msgid time) source command params) :=
  { ho with unframed := ⟨relayTags_label u msg msgid time, h.ne_batch⟩ }

/-! ## Scripts -/

class inductive Script [UnicodeTables] (p : Scope) : {α : Type} → M α → Prop
  | pure {α : Type} (a : α) : Script p (pure a : M α)
  | bind {α β : Type} {m : M α} {f : α → M β} (hm : Script p m) (hf : ∀ a, Script p (f a)) :
      Script p (m >>= f)
  | server : Script p server
  | config : Script p config
  | accounts : Script p accounts
  | world : Script p world
  | now : Script p now
  | randText : Script p randText
  | rangeOver {α : Type} (key : α → Bytes) (l : List α) : Script p (rangeOver key l)
  | send (s : SessionId) (msg : Message) (h : p.replays = true ∨ Unframed msg)
      (ho : Ordinary p msg.command) : Script p (send s msg)
  | sendImmediate (s : SessionId) (msg : Message) (h : p.replays = true ∨ Unframed msg)
      (ho : Ordinary p msg.command) : Script p (sendImmediate s msg)
  | checkPassword (s : SessionId) (hash password : Bytes) (h : p.checks = true) :
      Script p (checkPassword s hash password)
  | updateServer (f : Server → Server) (h : ∀ srv : Server, srv.Steady p (f srv)) :
      Script p (updateServer f)

attribute [instance] Script.pure Script.server Script.config Script.accounts Script.world
  Script.now Script.randText Script.rangeOver

section
variable [UnicodeTables] {α β γ : Type} (m : M α) (s : SessionId) (msg : Message) (l : List α)
  (f : γ → α → M γ) (c : γ)

instance Script.instBind (f : α → M β) [hm : Script p m] [hf : ∀ a, Script p (f a)] :
    Script p (m >>= f) := .bind hm hf

instance (c : Prop) [Decidable c] (m n : M α) [Script p m] [Script p n] :
    Script p (if c then m else n) := by
  split <;> infer_instance

instance (c : Prop) [Decidable c] (m : M Unit) [Script p m] : Script p (when c m) := by
  unfold when
  infer_instance

instance (o : Option α) (n : M β) (k : α → M β) [hn : Script p n] [hk : ∀ a, Script p (k a)] :
    Script p (o.elim n k) := by
  cases o with
  | none => exact hn
  | some a => exact hk a

instance (f : α → M Unit) [hf : ∀ a, Script p (f a)] : Script p (l.forM f) := by
  induction l with
  | nil => exact .pure ()
  | cons a l ih => exact .bind (hf a) fun _ => ih

instance [hf : ∀ c a, Script p (f c a)] : Script p (l.foldlM f c) := by
  induction l generalizing c with
  | nil => exact .pure c
  | cons a l ih => exact .bind (hf c a) fun c => ih c

theorem Script.all {m : M α} (h : Script p m) : Script .all m := by
  induction h with
  | pure a => exact .pure a
  | bind _ _ hm hf => exact .bind hm hf
  | server => exact .server
  | config => exact .config
  | accounts => exact .accounts
  | world => exact .world
  | now => exact .now
  | randText => exact .randText
  | rangeOver key l => exact .rangeOver key l
  | send s msg _ _ => exact .send s msg (.inl rfl) ⟨.inl rfl⟩
  | sendImmediate s msg _ _ => exact .sendImmediate s msg (.inl rfl) ⟨.inl rfl⟩
  | checkPassword s hash password _ => exact .checkPassword s hash password rfl
  | updateServer f h => exact .updateServer f fun srv => (h srv).all

/-! ## Updates of the server -/

instance [hp : Decided p.records] (target : Bytes) (e : ChatHistoryEntry)
    [hm : IsUnframed p e.msg] :
    KeepsCaps p (Session.appendHistory · target e) where
  steady u := by
    refine ⟨rfl, fun _ => rfl, fun _ => ⟨rfl, rfl, rfl⟩, fun _ => ⟨rfl, rfl⟩,
      fun h => absurd h (by simp [hp.eq_true]), fun _ => ⟨rfl, rfl⟩, fun e' he' => ?_⟩
    obtain ⟨key, entries, hentries, he'⟩ := he'
    rw [Session.appendHistory, Map.lookup_insert_eq] at hentries
    split at hentries
    · cases hentries
      rcases mem_append.1 (mem_of_mem_drop he') with hold | hnew
      · cases hlookup : u.history.lookup (toLower target) with
        | none => simp [hlookup] at hold
        | some old => exact .inl ⟨_, old, hlookup, by simpa [hlookup] using hold⟩
      · obtain rfl := mem_singleton.1 hnew
        exact .inr hm.unframed
    · exact .inl ⟨key, entries, hentries, he'⟩

instance [hp : Decided p.records] (e : ChatHistoryEntry) [hm : IsUnframed p e.msg] :
    KeepsHistory p (Channel.appendHistory · e) where
  roster _ _ := rfl
  history h := absurd h (by simp [hp.eq_true])
  modes _ _ := rfl
  entries ch e' he' := by
    refine (mem_append.1 (mem_of_mem_drop he')).imp_right fun hnew => ?_
    obtain rfl := mem_singleton.1 hnew
    exact hm.unframed

instance (f : Session → Session) [KeepsCaps p f] : Script p (updateSession s f) :=
  .updateServer _ fun srv => srv.steady_setSession s f

instance (key : Bytes) (f : Channel → Channel) [KeepsHistory p f] :
    Script p (updateChannel key f) :=
  .updateServer _ fun srv => srv.steady_setChannel key f

/-- An update of the counters, and in the scope of the registry. -/
instance (allocated : Server → Nat) (sessions : Server → Map Bytes SessionId)
    (clientsTotal clientsCurrent : Server → Int) (whowas : Server → List WhowasEntry)
    [hsessions : Spared p.enrolls sessions Server.sessions]
    [hallocated : Spared p.enrolls allocated Server.allocated] :
    Script p (updateServer fun srv =>
      Server.mk srv.session (allocated srv) (sessions srv) srv.channels (clientsTotal srv)
        (clientsCurrent srv) (whowas srv)) :=
  .updateServer _ fun srv => .of_sessions srv.steady_refl.session
    (fun h => ⟨congrFun (hsessions.eq h) srv, congrFun (hallocated.eq h) srv⟩) rfl

/-! ## Basic operations -/

instance [h : IsUnframed p msg] : Script p (send s msg) :=
  .send s msg (.inr h.unframed) h.toOrdinary

instance [h : IsUnframed p msg] : Script p (sendImmediate s msg) :=
  .sendImmediate s msg (.inr h.unframed) h.toOrdinary

instance [h : Decided p.replays] (s : SessionId) (msg : Message) [ho : Ordinary p msg.command] :
    Script p (send s msg) :=
  .send s msg (.inl h.eq_true) ho

instance [h : Decided p.checks] (s : SessionId) (hash password : Bytes) :
    Script p (checkPassword s hash password) :=
  .checkPassword s hash password h.eq_true

/-! ## What a script leaves alone -/

instance (priority := low) within_steady_of_onward [h : Within Onward m] :
    Within (Steady p) m :=
  h.mono fun _ _ => Onward.steady

/-- **A script changes only what its scope allows.** -/
theorem Script.within {m : M α} (h : Script p m) : Within (Steady p) m := by
  induction h with
  | bind _ _ hm hf => exact within_bind _ _
  | updateServer f hf => exact ⟨fun _ st => ⟨Nat.le_refl _, hf st.srv⟩⟩
  | _ => infer_instance

instance (priority := low) within_steady_of_script [h : Script p m] :
    Within (Steady p) m :=
  h.within

/-! ## Small scopes -/

/-- Nobody is welcomed by what does not enroll. -/
structure Unwelcoming (st st' : State) : Prop where
  welcomed : ∀ t, st'.Welcomed t → st.Welcomed t

instance : IsPreorder State Unwelcoming where
  refl _ := ⟨fun _ h => h⟩
  trans _ _ _ h h' := ⟨fun t ht => h.welcomed t (h'.welcomed t ht)⟩

theorem Script.unwelcoming {m : M α} (h : Script p m) (hp : p.enrolls = false) :
    Within Unwelcoming m := by
  have hquiet {β : Type} {n : M β} (hn : Within Quiet n) : Within Unwelcoming n :=
    hn.mono fun _ _ hs => ⟨hs.welcomed⟩
  induction h with
  | bind _ _ hm hf => exact within_bind _ _
  | updateServer f hf => exact ⟨fun _ st => ⟨fun _ ht => ht⟩⟩
  | send s msg _ ho =>
    exact hquiet (within_send s (ho.ordinary.resolve_left (by simp [hp])))
  | sendImmediate s msg _ ho =>
    exact hquiet (within_sendImmediate s (ho.ordinary.resolve_left (by simp [hp])))
  | _ => exact hquiet inferInstance

theorem Script.sameUsers {m : M α} (h : Script p m) (hp : p.enrolls = false) :
    Within SameUsers m where
  run env st := by
    have hsrv := (h.within.run env st).srv
    refine ⟨?_, ((h.unwelcoming hp).run env st).welcomed⟩
    obtain ⟨hsessions, hallocated⟩ := hsrv.registry hp
    unfold Server.users
    rw [hsessions, hallocated]
    congr 1
    funext t
    exact (hsrv.session t).ident hp

theorem Script.same {m : M α} (h : Script p m) (hp : p.enrolls = false) (hseats : p.seats = false) :
    Within Same m where
  run env st :=
    { (h.sameUsers hp).run env st with roster := (h.within.run env st).srv.roster hseats }

omit [UnicodeTables] in
theorem Steady.sameLogins {st st' : State} (h : Steady p st st') (hp : p.logs = false)
    (hcaps : p.negotiates = false) : SameLogins st st' where
  login t := by
    have hu := h.srv.session t
    obtain ⟨haccount, hactive, hbuffer⟩ := hu.account hp
    simp only [Session.login, Session.capEnabled, hu.secure, haccount, hactive, hbuffer,
      (hu.caps hcaps).1]

instance (priority := low) within_sameUsers_of_script
    [h : Script ⟨true, true, true, true, true, false, true, true⟩ m] : Within SameUsers m :=
  h.sameUsers rfl

instance (priority := low) within_same_of_script
    [h : Script ⟨true, true, true, true, true, false, false, true⟩ m] : Within Same m :=
  h.same rfl rfl

instance (priority := low) within_logins_of_script
    [h : Script ⟨true, true, false, true, true, true, true, false⟩ m] : Within SameLogins m :=
  h.within.mono fun _ _ hs => hs.sameLogins rfl rfl

end

end Irc
