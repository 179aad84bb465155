import GoProtocols.Irc.Proof.Authenticate

/-!
# Who changes modes

What `MODE` and `OPER` do to the server, and from it what an event does to the modes of a channel
(`RoomStep`) and to the standing of a session (`Standing.Step`). All other commands lie in a scope
that does not moderate.
-/

namespace Irc

open Go Prog Option

variable {msg : Message} {e : Event} {env : Env} {st st' : State} {key : Bytes} {ch' : Channel}
  (srv : Server) (s : SessionId) (f : Session → Session)

/-! ## The relation -/

/-- What a session is allowed: its modes, whether it is an operator, and whether it uses TLS. -/
structure Standing where
  modes : ModeSet
  isOper : Bool
  secure : Bool

def Session.standing (u : Session) : Standing := ⟨u.modes, u.isOper, u.secure⟩

structure SameModes (st st' : State) : Prop where
  standing : ∀ t, (st'.srv.session t).standing = (st.srv.session t).standing
  rooms : st.srv.Kept Channel.modes {} st'.srv

theorem Steady.sameModes {p : Scope} (h : Steady p st st') (hp : p.moderates = false) :
    SameModes st st' where
  standing t := by
    obtain ⟨hmodes, hoper⟩ := (h.srv.session t).standing hp
    rw [Session.standing, hmodes, hoper, (h.srv.session t).secure]
    rfl
  rooms := h.srv.modes hp

theorem Server.standing_setSession (t : SessionId) :
    ((srv.setSession s f).session t).standing =
      if t = s then (f (srv.session s)).standing else (srv.session t).standing := by
  simp only [Server.setSession, Function.update_apply, apply_ite Session.standing]

theorem Server.session_setChannel (key : Bytes) (f : Channel → Channel) :
    (srv.setChannel key f).session = srv.session := by
  unfold Server.setChannel
  split <;> rfl

theorem srv_run (m : M Unit) [Within Onward m] (env : Env) (st : State) : (m env st).2.srv = st.srv :=
  (within_run Onward m env st).srv

section
variable [UnicodeTables] (srv : Server) (s : SessionId) (ch : Channel) (u : Session) {t : SessionId}

/-! ## `MODE` and `OPER` -/

/-- A message that asks for the entries of a list of a channel. -/
def Message.AsksForList (msg : Message) : Prop :=
  msg.params.length = 2 ∧ (msg.param 1).length = 1 ∧
    channelValidator.type ((msg.param 1).headD 0).toNat = .list

instance (msg : Message) : Decidable msg.AsksForList := inferInstanceAs (Decidable (_ ∧ _ ∧ _))

def Message.changes (msg : Message) : List ModeChange :=
  parseModeString (msg.param 1) (msg.params.drop 2)

/-- A `MODE` of a registered session with changes. -/
def Server.ChangesModes (msg : Message) : Prop :=
  verbOf (toUpper msg.command) = some .MODE ∧ (srv.session s).state = .registered ∧
    2 ≤ msg.params.length

instance (msg : Message) : Decidable (srv.ChangesModes s msg) :=
  inferInstanceAs (Decidable (_ ∧ _ ∧ _))

/-- A session may change the modes of a channel: it is a member, and an operator of the channel or
of the server. -/
def Channel.moderatedBy : Bool :=
  (ch.getMembership u.nick).any fun m => isOperator m.status || u.isOper

/-- The channel whose modes a message of `s` changes. -/
def Server.moderated (msg : Message) : Option Channel :=
  if srv.ChangesModes s msg ∧ isChannelTarget (msg.param 0) ∧ ¬ msg.AsksForList then
    (srv.getChannel (msg.param 0)).filter (·.moderatedBy (srv.session s))
  else none

/-- The session whose modes a message of `s` changes. -/
def Server.regraded (msg : Message) : Option SessionId :=
  if srv.ChangesModes s msg ∧ ¬ isChannelTarget (msg.param 0) ∧
      (equalFold (msg.param 0) (srv.session s).nick ∨ (srv.session s).isOper) then
    srv.getSession (msg.param 0)
  else none

/-- A message makes its sender an operator: the password is that of the operator it names. -/
def Server.Promotes (env : Env) (srv : Server) (s : SessionId) (msg : Message) : Prop :=
  verbOf (toUpper msg.command) = some .OPER ∧ (srv.session s).state = .registered ∧
    2 ≤ msg.params.length ∧
    (env.cfg.opers.lookup (msg.param 0)).any (env.world.bcryptCheck · (msg.param 1)) = true

instance (env : Env) (srv : Server) (s : SessionId) (msg : Message) :
    Decidable (srv.Promotes env s msg) :=
  inferInstanceAs (Decidable (_ ∧ _ ∧ _ ∧ _))

instance (modes : ModeSet) : Within Onward (modeString modes) := by
  unfold modeString
  infer_instance

def Message.moderate (msg : Message) (ch : Channel) : Channel :=
  (msg.changes.foldl applyChannelMode (ch, [])).1

theorem handleChannelMode_srv (hlen : 2 ≤ msg.params.length) (chanName : Bytes) (env : Env)
    (st : State) :
    (handleChannelMode s msg chanName env st).2.srv =
      (if ¬ msg.AsksForList then
        (st.srv.getChannel chanName).filter (·.moderatedBy (st.srv.session s)) else none).elim st.srv
          fun _ => st.srv.setChannel (toLower chanName) msg.moderate := by
  simp only [handleChannelMode, bind_run]
  dsimp +instances only [server_run]
  cases hch : st.srv.getChannel chanName with
  | none =>
    rw [filter_none, ite_self]
    exact srv_run (sendNumeric s _ _) env st
  | some ch =>
    simp only [elim_some, ite_run, bind_run]
    rw [if_neg (by omega)]
    by_cases hlist : msg.AsksForList
    · rw [if_pos (show _ ∧ _ ∧ _ from hlist), if_neg (not_not.2 hlist)]
      exact srv_run (do
        (ch.modes.list ((msg.param 1).headD 0).toNat).forM fun entry =>
          sendNumeric s .RPL_BANLIST [chanName, entry]
        sendNumeric s .RPL_ENDOFBANLIST [chanName, lit "End of ban list"]) env st
    rw [if_neg (show ¬ (_ ∧ _ ∧ _) from hlist), if_pos hlist]
    cases hm : ch.getMembership (st.srv.session s).nick with
    | none =>
      rw [filter_some_neg (by simp [Channel.moderatedBy, hm])]
      exact srv_run (sendNumeric s _ _) env st
    | some m =>
      simp only [elim_some, ite_run, bind_run]
      by_cases hop : isOperator m.status = true ∨ (st.srv.session s).isOper = true
      · rw [if_neg (by tauto), filter_some_pos (by simpa [Channel.moderatedBy, hm] using hop)]
        exact srv_run _ env _
      · rw [if_pos (by tauto), filter_some_neg (by simpa [Channel.moderatedBy, hm] using hop)]
        exact srv_run _ env st

theorem handleUserMode_srv (hlen : 2 ≤ msg.params.length) (target : Bytes) (env : Env)
    (st : State) :
    (handleUserMode s msg target env st).2.srv =
      (if equalFold target (st.srv.session s).nick = true ∨ (st.srv.session s).isOper = true then
        st.srv.getSession target else none).elim st.srv fun t =>
          st.srv.setSession t fun d =>
            { d with modes := (d.modes.apply userValidator msg.changes).1 } := by
  simp only [handleUserMode, bind_run, ite_run]
  dsimp +instances only [server_run]
  by_cases hmay : equalFold target (st.srv.session s).nick = true ∨ (st.srv.session s).isOper = true
  · rw [if_neg (by tauto), if_pos hmay]
    cases ht : st.srv.getSession target with
    | none => exact srv_run (sendNumeric s _ _) env st
    | some t =>
      simp only [elim_some, ite_run, bind_run]
      rw [if_neg (by omega)]
      exact srv_run _ env _
  · rw [if_pos (by tauto), if_neg hmay]
    exact srv_run _ env st

theorem handleMode_question (hlen : msg.params.length < 2) (env : Env) (st : State) :
    (handleMode s msg env st).2.srv = st.srv := by
  simp only [handleMode, ite_run]
  split
  · exact srv_run _ env st
  split
  · simp only [handleChannelMode, bind_run]
    cases hch : (server env st).1.getChannel (msg.param 0) with
    | none => exact srv_run (sendNumeric s _ _) env st
    | some ch =>
      simp only [elim_some, if_pos hlen]
      exact srv_run (do
        sendNumeric s .RPL_CHANNELMODEIS [msg.param 0, ← modeString ch.modes]
        sendNumeric s .RPL_CREATIONTIME [msg.param 0, formatInt ch.createdAt.unix]) env st
  · simp only [handleUserMode, bind_run, ite_run]
    split
    · exact srv_run (sendNumeric s _ _) env st
    · cases ht : (server env st).1.getSession (msg.param 0) with
      | none => exact srv_run (sendNumeric s _ _) env st
      | some t =>
        simp only [elim_some]
        exact srv_run (do
          sendNumeric s .RPL_UMODEIS [← modeString ((server env st).1.session t).modes]) env st

def Message.regrade (msg : Message) (u : Session) : Session :=
  { u with modes := (u.modes.apply userValidator msg.changes).1 }

variable {s}

theorem dispatch_mode (hv : verbOf (toUpper msg.command) = some .MODE) (env : Env) (st : State) :
    (dispatch s msg env st).2.srv =
      (st.srv.moderated s msg).elim
        ((st.srv.regraded s msg).elim st.srv fun t => st.srv.setSession t msg.regrade)
        fun _ => st.srv.setChannel (toLower (msg.param 0)) msg.moderate := by
  rw [dispatch_run s msg (handleMode s msg) (by simp only [dispatch, hv])
    (by simp only [dispatchRegistered, hv])]
  by_cases hchanges : st.srv.ChangesModes s msg
  · obtain ⟨-, hreg, hlen⟩ := id hchanges
    have hne : msg.params ≠ [] := fun h => by simp [h] at hlen
    rw [if_pos hreg]
    simp only [handleMode, ite_run, if_neg hne, Server.moderated,
      Server.regraded, hchanges, true_and]
    by_cases hroom : isChannelTarget (msg.param 0) = true
    · rw [if_pos hroom]
      simp only [hroom, true_and, not_true, false_and, if_false, elim_none]
      exact handleChannelMode_srv s hlen _ env st
    · rw [if_neg hroom]
      simp only [hroom, false_and, Bool.false_eq_true, if_false, elim_none, not_false_iff,
        true_and]
      exact handleUserMode_srv s hlen _ env st
  · have hmoderated : st.srv.moderated s msg = none := if_neg fun h => hchanges h.1
    have hregraded : st.srv.regraded s msg = none := if_neg fun h => hchanges h.1
    rw [hmoderated, hregraded]
    split
    · rename_i hreg
      have hlen : msg.params.length < 2 := by
        by_contra h
        exact hchanges ⟨hv, hreg, by omega⟩
      exact handleMode_question s hlen env st
    · exact srv_run (sendNumeric s _ _) env st

def Session.promoted : Session :=
  { u with isOper := true, modes := (u.modes.apply userValidator [⟨true, rune 'o', []⟩]).1 }

theorem dispatch_oper (hv : verbOf (toUpper msg.command) = some .OPER) (env : Env) (st : State) :
    (dispatch s msg env st).2.srv =
      if st.srv.Promotes env s msg then st.srv.setSession s Session.promoted else st.srv := by
  rw [dispatch_run s msg (handleOper s msg) (by simp only [dispatch, hv])
    (by simp only [dispatchRegistered, hv])]
  by_cases hreg : (st.srv.session s).state = .registered
  swap
  · rw [if_neg hreg, if_neg fun h => hreg h.2.1]
    exact srv_run (sendNumeric s _ _) env st
  rw [if_pos hreg]
  simp only [handleOper, bind_run, ite_run]
  split
  · rw [if_neg fun h => absurd h.2.2.1 (by omega)]
    exact srv_run (sendNumeric s _ _) env st
  rename_i hlen
  dsimp +instances only [config]
  cases hhash : env.cfg.opers.lookup (msg.param 0) with
  | none =>
    rw [if_neg fun h => absurd h.2.2.2 (by simp [hhash])]
    exact srv_run (sendNumeric s _ _) env st
  | some hash =>
    simp only [elim_some, bind_run, ite_run, checkPassword_result, checkPassword_state]
    by_cases hok : env.world.bcryptCheck hash (msg.param 1) = true
    · have hpromotes : st.srv.Promotes env s msg :=
        ⟨hv, hreg, by omega, by simpa [hhash] using hok⟩
      rw [if_neg (not_not.2 hok), if_pos hpromotes]
      exact srv_run (do
        sendNumeric s .RPL_YOUROPER [lit "You are now an IRC operator"]
        sendServer s .MODE [(st.srv.session s).nick, lit "+o"]) env _
    · rw [if_pos hok, if_neg fun h => hok (by simpa [hhash] using h.2.2.2)]
      exact srv_run (sendNumeric s _ _) env st

/-! ## Events -/

section
variable {s : SessionId} {st st' : State}

theorem Begun.modes (h : Begun s st st') (env : Env) (msg : Message) :
    st'.srv.moderated s msg = st.srv.moderated s msg ∧
      st'.srv.regraded s msg = st.srv.regraded s msg ∧
      (st'.srv.Promotes env s msg ↔ st.srv.Promotes env s msg) := by
  obtain ⟨t, hsrv⟩ := h.srv
  refine ⟨if_congr ?_ ?_ rfl, if_congr ?_ ?_ rfl, ?_⟩
  all_goals simp [hsrv, Server.ChangesModes, Server.Promotes, Server.setSession, Server.getChannel,
    Server.getSession, Channel.moderatedBy]

end

/-- What an event does to the modes of a channel that is there after it. -/
inductive RoomStep (st : State) (e : Event) (key : Bytes) : ModeSet → Prop
  | new : RoomStep st e key {}
  | same {ch : Channel} (hch : st.srv.channels.lookup key = some ch) : RoomStep st e key ch.modes
  | moderated {s : SessionId} {raw : Bytes} {msg : Message} {ch : Channel} (he : e = .line s raw)
      (hline : lineMessage raw = some msg) (hkey : key = toLower (msg.param 0))
      (hch : st.srv.moderated s msg = some ch) : RoomStep st e key (msg.moderate ch).modes

variable {srv} {ch}

theorem getChannel_of_moderated (h : srv.moderated s msg = some ch) :
    srv.getChannel (msg.param 0) = some ch := by
  unfold Server.moderated at h
  split at h
  · exact (filter_eq_some_iff.1 h).1
  · cases h

theorem SameModes.roomStep (h : SameModes st st') (hch' : st'.srv.channels.lookup key = some ch') :
    RoomStep st e key ch'.modes := by
  rcases h.rooms key ch' hch' with hnew | ⟨ch, hch, heq⟩
  · rw [hnew]
    exact .new
  · rw [heq]
    exact .same hch

/-- **The modes of a channel change by `MODE` only.** -/
theorem room_step (hch' : ((ircd env).step st e).srv.channels.lookup key = some ch') :
    RoomStep st e key ch'.modes := by
  cases e with
  | connect addr secure serverName =>
    have hchannels : ((ircd env).step st (.connect addr secure serverName)).srv.channels =
        st.srv.channels := by
      simp only [ircd, Event.exec, connect, bind_run, ite_run]
      split <;> rfl
    rw [hchannels] at hch'
    exact .same hch'
  | disconnect s => exact ((steady_disconnect s env st).sameModes rfl).roomStep hch'
  | line s raw =>
    rcases handleLine_cases s raw env st with ⟨-, honward⟩ | ⟨msg, st₁, hline, hbegun, honward⟩
    · exact (honward.steady.sameModes (p := {}) rfl).roomStep hch'
    have hsrv : ((ircd env).step st (.line s raw)).srv = (dispatch s msg env st₁).2.srv :=
      honward.srv
    have hchannels : st₁.srv.channels = st.srv.channels := by
      obtain ⟨t, ht⟩ := hbegun.srv
      rw [ht]
      rfl
    rw [hsrv] at hch'
    by_cases hmode : verbOf (toUpper msg.command) = some .MODE
    · rw [dispatch_mode hmode, (hbegun.modes env msg).1] at hch'
      cases hch : st.srv.moderated s msg with
      | none =>
        rw [hch, elim_none] at hch'
        refine RoomStep.same (?_ : _ = some ch')
        rw [← hch', ← hchannels]
        cases st₁.srv.regraded s msg <;> rfl
      | some ch =>
        have hget : st₁.srv.channels.lookup (toLower (msg.param 0)) = some ch :=
          hchannels ▸ getChannel_of_moderated hch
        rw [hch, elim_some, Server.setChannel, hget] at hch'
        rw [Map.lookup_insert_eq] at hch'
        split at hch'
        · rename_i hkey
          cases hch'
          exact .moderated rfl hline hkey hch
        · exact .same (hchannels ▸ hch')
    by_cases hoper : verbOf (toUpper msg.command) = some .OPER
    · rw [dispatch_oper hoper] at hch'
      refine RoomStep.same (?_ : _ = some ch')
      rw [← hch', ← hchannels]
      split <;> rfl
    · have hsteady := trans_of (Steady _) hbegun.steady ((script_dispatch s msg).within.run env st₁)
      exact (hsteady.sameModes (by simp [Message.scope, hmode, hoper])).roomStep hch'

/-- The session whose modes an event changes, with the changes that it asks for. -/
def Event.regraded (st : State) : Event → Option (SessionId × List ModeChange)
  | .line s raw => (lineMessage raw).bind fun msg =>
    (st.srv.regraded s msg).map fun t => (t, msg.changes)
  | _ => none

def Event.changesOf (st : State) (t : SessionId) (e : Event) : List ModeChange :=
  (e.regraded st).elim [] fun p => if p.1 = t then p.2 else []

/-- What an event does to the standing of a session. -/
inductive Standing.Step (env : Env) (st : State) (e : Event) (t : SessionId) : Standing → Prop
  | new {addr : Bytes} {secure : Bool} {serverName : Bytes} (idleAt signOnAt : Time)
      (he : e = .connect addr secure serverName) :
      Step env st e t (newSession addr secure serverName idleAt signOnAt).standing
  | promoted {raw : Bytes} {msg : Message} (he : e = .line t raw)
      (hline : lineMessage raw = some msg) (hoper : st.srv.Promotes env t msg) :
      Step env st e t (st.srv.session t).promoted.standing
  | regraded : Step env st e t
      { (st.srv.session t).standing with
        modes := ((st.srv.session t).modes.apply userValidator (e.changesOf st t)).1 }

theorem Standing.Step.same (h : e.changesOf st t = []) :
    Standing.Step env st e t (st.srv.session t).standing := by
  have hstep := @Standing.Step.regraded _ env st e t
  rwa [h] at hstep

theorem SameModes.standingStep (h : SameModes st st') (he : e.changesOf st t = []) :
    Standing.Step env st e t (st'.srv.session t).standing := by
  rw [h.standing]
  exact .same he

omit [UnicodeTables] in
theorem standing_regrade (msg : Message) (u : Session) :
    (msg.regrade u).standing =
      { u.standing with modes := (u.standing.modes.apply userValidator msg.changes).1 } := rfl

omit [UnicodeTables] in
theorem standing_promoted :
    u.promoted.standing =
      { u.standing with
        modes := (u.standing.modes.apply userValidator [⟨true, rune 'o', []⟩]).1
        isOper := true } := rfl

theorem regraded_of_moderated (h : srv.moderated s msg = some ch) : srv.regraded s msg = none := by
  unfold Server.moderated at h
  split at h
  · rename_i hroom
    exact if_neg fun h => h.2.1 hroom.2.1
  · cases h

/-- **The standing of a session changes by `MODE` and `OPER` only.** -/
theorem standing_step (env : Env) (st : State) (e : Event) (t : SessionId) :
    Standing.Step env st e t (((ircd env).step st e).srv.session t).standing := by
  cases e with
  | connect addr secure serverName =>
    simp only [ircd, Event.exec, connect, bind_run, ite_run]
    split
    · exact .same rfl
    · dsimp only [updateServer, now, server, config, State.tick]
      rw [Function.update_apply]
      split
      · exact .new _ _ rfl
      · exact .same rfl
  | disconnect s => exact ((steady_disconnect s env st).sameModes rfl).standingStep rfl
  | line s raw =>
    rcases handleLine_cases s raw env st with ⟨hline, honward⟩ | ⟨msg, st₁, hline, hbegun, honward⟩
    · exact (honward.steady.sameModes (p := {}) rfl).standingStep
        (by simp [Event.changesOf, Event.regraded, hline])
    have hsrv : ((ircd env).step st (.line s raw)).srv = (dispatch s msg env st₁).2.srv :=
      honward.srv
    have hkept := hbegun.steady.sameModes (p := {}) rfl
    have hchanges : (Event.line s raw).changesOf st t =
        if st.srv.regraded s msg = some t then msg.changes else [] := by
      cases hregraded : st.srv.regraded s msg <;>
        simp [Event.changesOf, Event.regraded, hline, hregraded]
    have hnone (hmode : verbOf (toUpper msg.command) ≠ some .MODE) :
        (Event.line s raw).changesOf st t = [] := by
      have hregraded : st.srv.regraded s msg = none := if_neg fun h => hmode h.1.1
      rw [hchanges, hregraded, if_neg (by simp)]
    rw [hsrv]
    by_cases hmode : verbOf (toUpper msg.command) = some .MODE
    · rw [dispatch_mode hmode, (hbegun.modes env msg).1, (hbegun.modes env msg).2.1]
      cases hch : st.srv.moderated s msg with
      | some ch =>
        have hregraded := regraded_of_moderated hch
        rw [elim_some, Server.session_setChannel]
        exact hkept.standingStep (by rw [hchanges, hregraded, if_neg (by simp)])
      | none =>
        cases hregraded : st.srv.regraded s msg with
        | none => exact hkept.standingStep (by rw [hchanges, hregraded, if_neg (by simp)])
        | some t' =>
          rw [elim_none, elim_some, Server.standing_setSession]
          split
          · rename_i ht
            subst ht
            rw [standing_regrade, hkept.standing]
            rw [hregraded, if_pos rfl] at hchanges
            rw [← hchanges]
            exact .regraded
          · rename_i ht
            have hne : ¬ some t' = some t := fun h => ht (Option.some.inj h).symm
            exact hkept.standingStep (by rw [hchanges, hregraded, if_neg hne])
    by_cases hoper : verbOf (toUpper msg.command) = some .OPER
    · rw [dispatch_oper hoper]
      split
      · rename_i hpromotes
        rw [Server.standing_setSession]
        split
        · rename_i ht
          subst ht
          rw [standing_promoted, hkept.standing, ← standing_promoted]
          exact .promoted rfl hline ((hbegun.modes env msg).2.2.1 hpromotes)
        · rw [hkept.standing]
          exact .same (hnone hmode)
      · exact hkept.standingStep (hnone hmode)
    · have hsteady := trans_of (Steady _) hbegun.steady ((script_dispatch s msg).within.run env st₁)
      exact (hsteady.sameModes (by simp [Message.scope, hmode, hoper])).standingStep (hnone hmode)

end

end Irc
