import GoProtocols.Irc.Proof.Login
import GoProtocols.Irc.Proof.Users
import GoProtocols.Irc.Server.Dispatch

/-!
# What commands leave alone

`Quiet st st'`: between the states the users, the channel rosters and the logins are as they were,
and no session was sent a welcome. `Same` says it of all but the logins, `SameLogins` of the logins
only, and `SameUsers` of the users only, for the commands that change the rest. Which commands these
are follows from their scopes (`Irc/Proof/Script.lean`).
-/

namespace Irc

open Go Prog List

/-! ## The relations -/

variable (u : Session) (msg : Message) (env : Env) (st : State) (srv : Server) (s : SessionId)
  (f : Session → Session) (t : SessionId)

def Output.messages (o : Output) : List Message :=
  o.writeQueue.map Outbound.msg ++ (o.response.getD [] ++ o.responseImmediate)

/-- The session was sent `RPL_WELCOME`. -/
def State.Welcomed : Prop :=
  ∃ m ∈ (st.output t).messages, m.command = Numeric.RPL_WELCOME.string

instance : Decidable (st.Welcomed t) :=
  inferInstanceAs (Decidable (∃ _ ∈ _, _))

/-- The name of a channel, and which session has which seat. -/
structure Roster where
  name : Bytes
  seat : Bytes → Option SessionId

def Channel.roster (ch : Channel) : Roster :=
  ⟨ch.name, fun k => (ch.members.lookup k).map Membership.session⟩

def Server.roster (srv : Server) (key : Bytes) : Option Roster :=
  (srv.channels.lookup key).map Channel.roster

def Session.ident : Ident := ⟨u.nick, u.user, u.state, u.connected⟩

def Server.users (srv : Server) : Users :=
  ⟨fun t => (srv.session t).ident, srv.allocated, srv.sessions⟩

structure SameUsers (st st' : State) : Prop where
  users : st'.srv.users = st.srv.users
  welcomed : ∀ t, st'.Welcomed t → st.Welcomed t

structure Same (st st' : State) : Prop extends SameUsers st st' where
  roster : st'.srv.roster = st.srv.roster

def Session.login : Login :=
  ⟨u.secure, u.capEnabled .sasl, u.account, u.saslActive, u.saslBuffer⟩

structure SameLogins (st st' : State) : Prop where
  login : ∀ t, (st'.srv.session t).login = (st.srv.session t).login

structure Quiet (st st' : State) : Prop extends Same st st', SameLogins st st'

/-- The server has not changed, whatever was read and sent. -/
structure Onward (st st' : State) : Prop where
  reads : st.reads ≤ st'.reads
  srv : st'.srv = st.srv

/-- Nothing but the count of reads has changed. -/
structure OnlyReads (st st' : State) : Prop extends Onward st st' where
  output : st'.output = st.output

instance : IsPreorder State SameUsers where
  refl _ := ⟨rfl, fun _ h => h⟩
  trans _ _ _ h h' :=
    ⟨h'.users.trans h.users, fun t ht => h.welcomed t (h'.welcomed t ht)⟩

instance : IsPreorder State Same where
  refl st := ⟨refl_of SameUsers st, rfl⟩
  trans _ _ _ h h' := ⟨trans_of SameUsers h.toSameUsers h'.toSameUsers, h'.roster.trans h.roster⟩

instance : IsPreorder State SameLogins where
  refl _ := ⟨fun _ => rfl⟩
  trans _ _ _ h h' := ⟨fun t => (h'.login t).trans (h.login t)⟩

instance : IsPreorder State Quiet where
  refl st := { refl_of Same st, refl_of SameLogins st with }
  trans _ _ _ h h' :=
    { trans_of Same h.toSame h'.toSame, trans_of SameLogins h.toSameLogins h'.toSameLogins with }

instance : IsPreorder State Onward where
  refl _ := ⟨Nat.le_refl _, rfl⟩
  trans _ _ _ h h' := ⟨Nat.le_trans h.reads h'.reads, h'.srv.trans h.srv⟩

instance : IsPreorder State OnlyReads where
  refl st := ⟨refl_of Onward st, rfl⟩
  trans _ _ _ h h' := ⟨trans_of Onward h.toOnward h'.toOnward, h'.output.trans h.output⟩

theorem OnlyReads.quiet {st st' : State} (h : OnlyReads st st') : Quiet st st' where
  users := by rw [h.srv]
  welcomed t := by rw [State.Welcomed, State.Welcomed, h.output]; exact id
  roster := by rw [h.srv]
  login t := by rw [h.srv]

section
variable {α : Type} (m : M α)

instance (priority := low) within_quiet_of_reads [h : Within OnlyReads m] : Within Quiet m :=
  h.mono fun _ _ => OnlyReads.quiet

instance (priority := low) within_same_of_quiet [h : Within Quiet m] : Within Same m :=
  h.mono fun _ _ => Quiet.toSame

instance (priority := low) within_logins_of_quiet [h : Within Quiet m] : Within SameLogins m :=
  h.mono fun _ _ => Quiet.toSameLogins

instance (priority := low) within_onward_of_reads [h : Within OnlyReads m] : Within Onward m :=
  h.mono fun _ _ => OnlyReads.toOnward

end

/-! ## Reading -/

@[simp] theorem server_run : server env st = (st.srv, st) := rfl

instance : Within OnlyReads server := ⟨fun _ st => refl_of OnlyReads st⟩
instance : Within OnlyReads config := ⟨fun _ st => refl_of OnlyReads st⟩
instance : Within OnlyReads accounts := ⟨fun _ st => refl_of OnlyReads st⟩
instance : Within OnlyReads world := ⟨fun _ st => refl_of OnlyReads st⟩
instance : Within OnlyReads now := ⟨fun _ _ => ⟨⟨Nat.le_succ _, rfl⟩, rfl⟩⟩
instance : Within OnlyReads randText := ⟨fun _ _ => ⟨⟨Nat.le_succ _, rfl⟩, rfl⟩⟩
instance : Within OnlyReads (output s) :=
  ⟨fun _ st => refl_of OnlyReads st⟩
instance {α : Type} (key : α → Bytes) (l : List α) : Within OnlyReads (rangeOver key l) :=
  ⟨fun _ _ => ⟨⟨Nat.le_succ _, rfl⟩, rfl⟩⟩

instance : Within OnlyReads allSessions := by unfold allSessions; infer_instance
instance : Within OnlyReads allChannels := by unfold allChannels; infer_instance
instance (ch : Channel) : Within OnlyReads ch.memberList := by
  unfold Channel.memberList
  infer_instance

/-! ## Writing -/

theorem Server.users_setSession :
    (srv.setSession s f).users = srv.users.setIdent s (f (srv.session s)).ident :=
  congrArg (fun ident => (⟨ident, srv.allocated, srv.sessions⟩ : Users))
    (funext fun t => Function.apply_update (fun _ => Session.ident) srv.session s _ t)

theorem Server.login_setSession :
    ((srv.setSession s f).session t).login =
      if t = s then (f (srv.session s)).login else (srv.session t).login := by
  simp only [Server.setSession, Function.update_apply, apply_ite Session.login]

/-! ## Sending -/

instance (f : Output → Output) : Within Onward (updateOutput s f) :=
  ⟨fun _ _ => ⟨Nat.le_refl _, rfl⟩⟩

theorem within_updateOutput {s : SessionId} {f : Output → Output}
    (hf : ∀ o, ∀ m ∈ (f o).messages, m.command = Numeric.RPL_WELCOME.string → m ∈ o.messages) :
    Within Quiet (updateOutput s f) where
  run _ st :=
    { users := rfl
      roster := rfl
      login := fun _ => rfl
      welcomed := fun t h => by
        obtain ⟨m, hm, hw⟩ := h
        by_cases ht : t = s
        · subst ht
          refine ⟨m, hf _ m ?_ hw, hw⟩
          simpa [updateOutput] using hm
        · exact ⟨m, by simpa [updateOutput, ht] using hm, hw⟩ }

theorem Output.mem_messages_deliver {o : Output} {out : Outbound} {m : Message}
    (h : m ∈ (o.deliver out).messages) : m ∈ o.messages ∨ m = out.msg := by
  unfold Output.deliver at h
  unfold Output.messages at h ⊢
  cases hr : o.response with
  | none =>
    simp only [hr, map_append, map_cons, map_nil, mem_append,
      mem_singleton] at h ⊢
    tauto
  | some messages =>
    simp only [hr] at h ⊢
    split at h <;>
      simp only [Option.getD_some, mem_append, mem_singleton] at h ⊢ <;> tauto

instance : Within OnlyReads (stampTime u msg) := by
  unfold stampTime
  infer_instance

theorem stampTime_eq : ∃ tags, (stampTime u msg env st).1 = { msg with tags } := by
  unfold stampTime
  split
  · exact ⟨_, rfl⟩
  · exact ⟨_, rfl⟩

instance : Within OnlyReads (render msg) := by
  unfold render
  infer_instance

theorem render_msg : (render msg env st).1.msg = msg := rfl

/-- Suspending the response around the check and resuming it leaves it as it was. -/
theorem checkPassword_state (hash password : Bytes) (env : Env) (st : State) :
    (checkPassword s hash password env st).2 = st := by
  simp only [checkPassword, bind_run, ite_run]
  split
  · rfl
  · simp [updateOutput, output, world, pure_run]

instance (hash password : Bytes) : Within OnlyReads (checkPassword s hash password) :=
  ⟨fun env st => by rw [checkPassword_state]; exact refl_of OnlyReads st⟩

section
variable [UnicodeTables] (s : SessionId) (ch : Channel) (msg : Message) (exclude : Option SessionId)
  (env : Env) (st : State)

instance : Within OnlyReads (prepare s msg) := by
  unfold prepare
  infer_instance

theorem stampAccount_eq (u : Session) (msg : Message) :
    ∃ tags, stampAccount srv u msg = { msg with tags } := by
  unfold stampAccount
  dsimp only
  repeat' split
  all_goals exact ⟨_, rfl⟩

/-- **A session sees a message with other tags**, and with the same source, command and
parameters. -/
theorem prepare_eq : ∃ tags, (prepare s msg env st).1 = { msg with tags } := by
  simp only [prepare, bind_run, ite_run]
  split
  · exact ⟨_, rfl⟩
  · obtain ⟨tags, htime⟩ := stampTime_eq (st.srv.session s) msg env st
    obtain ⟨tags', haccount⟩ := stampAccount_eq st.srv (st.srv.session s) { msg with tags }
    simp only [server_run, pure_run, htime, haccount]
    exact ⟨_, rfl⟩

theorem prepare_command : (prepare s msg env st).1.command = msg.command := by
  obtain ⟨tags, h⟩ := prepare_eq s msg env st
  rw [h]

/-- **Sending changes nothing but the output**, and welcomes nobody with another message. -/
theorem within_send {msg : Message}
    (h : msg.command ≠ Numeric.RPL_WELCOME.string) : Within Quiet (send s msg) where
  run env st := by
    simp only [send, bind_run, ite_run]
    split
    · exact refl_of Quiet st
    · refine trans_of Quiet (within_run Quiet (prepare s msg) env st) ?_
      refine trans_of Quiet (within_run Quiet (render (prepare s msg env st).1) env _) ?_
      refine (within_updateOutput fun o m hm hw => ?_).run env _
      rcases Output.mem_messages_deliver hm with hm | rfl
      · exact hm
      · rw [render_msg, prepare_command] at hw
        exact absurd hw h

theorem within_sendImmediate {msg : Message}
    (h : msg.command ≠ Numeric.RPL_WELCOME.string) : Within Quiet (sendImmediate s msg) := by
  have capture (b : Bool) :
      Within Quiet (updateOutput s fun o => { o with captureImmediate := b }) :=
    within_updateOutput fun _ _ hm _ => hm
  have hsend := within_send s h
  unfold sendImmediate
  infer_instance

instance : Within Onward (send s msg) := by
  unfold send
  infer_instance

instance : Within Onward (sendImmediate s msg) := by
  unfold sendImmediate
  infer_instance

instance (n : Numeric) (params : List Bytes) :
    Within Onward (sendNumeric s n params) := by
  unfold sendNumeric
  infer_instance

instance (verb : Verb) (params : List Bytes) :
    Within Onward (sendServer s verb params) := by
  unfold sendServer
  infer_instance

instance : Within Onward (broadcast ch msg exclude) := by
  unfold broadcast
  infer_instance

theorem broadcast_srv : (broadcast ch msg exclude env st).2.srv = st.srv :=
  (within_run Onward (broadcast ch msg exclude) env st).srv

instance (n : Numeric) (values : List Bytes) :
    Within Onward (sendMonitorList s n values) := by
  unfold sendMonitorList
  infer_instance

instance (nick : Bytes) : Within Onward (notifyMonitorOffline nick) := by
  unfold notifyMonitorOffline
  infer_instance

end

end Irc
