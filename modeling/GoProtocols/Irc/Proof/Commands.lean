import GoProtocols.Irc.Proof.Script

/-!
# Every command is a script

An instance of `Script` for every handler. Most lie in every scope: `NICK` and `USER` enroll, `CAP`
negotiates besides and ends logins, `JOIN`, `PART` and `KICK` change seats, `PRIVMSG` and `NOTICE`
record, `CHATHISTORY` replays, `AUTHENTICATE` and `OPER` check passwords, and `MODE` and `OPER`
moderate.
-/

namespace Irc

open Go Prog Option

-- the bodies of some handlers have more steps than instance search allows by default
set_option synthInstance.maxSize 4096

variable {p : Scope}

/-- Before a message of a session is handled, the time is noted. -/
structure Begun (s : SessionId) (st st' : State) : Prop where
  reads : st.reads ≤ st'.reads
  srv : ∃ t, st'.srv = st.srv.setSession s fun u => { u with idleAt := t }

theorem Begun.steady {s : SessionId} {st st' : State} (h : Begun s st st') : Steady p st st' := by
  obtain ⟨t, hsrv⟩ := h.srv
  refine ⟨h.reads, ?_⟩
  rw [hsrv]
  exact st.srv.steady_setSession s _

section
variable [UnicodeTables] (s : SessionId) (msg : Message) (chanName : Bytes) (ch : Channel)
  (verb : Verb) (params : List Bytes) (changes : List ModeChange) (acc : Channel × List ModeChange)
  (label : Bytes) (messages : List Message) (subCmd : Bytes) (target : SessionId) (cap : Capability)
  (source : Prefix) (t : SessionId) (n : Numeric)

/-! ## Replies -/

instance : Script p allSessions := by
  unfold allSessions
  infer_instance

instance : Script p allChannels := by
  unfold allChannels
  infer_instance

instance : Script p ch.memberList := by
  unfold Channel.memberList
  infer_instance

instance [Decided verb.isUnframed] : Script p (sendServer s verb params) := by
  unfold sendServer
  infer_instance

instance (params : List Bytes) [Ordinary p n.string] : Script p (sendNumeric s n params) := by
  unfold sendNumeric
  infer_instance

instance (exclude : Option SessionId) [IsUnframed p msg] : Script p (broadcast ch msg exclude) := by
  unfold broadcast
  infer_instance

instance (values : List Bytes) [Ordinary p n.string] : Script p (sendMonitorList s n values) := by
  unfold sendMonitorList
  infer_instance

instance (value : Bytes) : Script p (sendCAP s subCmd value) := by
  unfold sendCAP
  infer_instance

instance (lines : List (List Bytes)) : Script p (sendCAPLines s subCmd lines) := by
  induction lines with
  | nil => exact .pure ()
  | cons line lines ih =>
    cases lines with
    | nil => exact (inferInstance : Script p (sendCAP s subCmd (join line (lit " "))))
    | cons next lines =>
      unfold sendCAPLines
      infer_instance

/-! ## Notifications -/

instance : Script p (notifyMonitorOnline target) := by
  unfold notifyMonitorOnline
  infer_instance

instance (nick : Bytes) : Script p (notifyMonitorOffline nick) := by
  unfold notifyMonitorOffline
  infer_instance

instance {κ : Type} [DecidableEq κ] (key : SessionId → κ) (cap : Capability) (msg : Message)
    (notified : List κ) (peer : SessionId) [IsUnframed p msg] :
    Script p (notifyPeer key cap msg notified peer) := by
  unfold notifyPeer
  infer_instance

instance {κ : Type} [DecidableEq κ] (key : SessionId → κ) (cap : Capability)
    (notified : List κ) [IsUnframed p msg] :
    Script p (notifyPeers key s cap msg notified) := by
  unfold notifyPeers extendedMonitorPeers
  infer_instance

instance : Script p (notifyAccount s source) := by
  unfold notifyAccount
  infer_instance

instance : Script p (notifyHostChange s source) := by
  unfold notifyHostChange sendRejoin extendedMonitorPeers
  infer_instance

/-! ## Handshake -/

instance : Script p (sendMOTD s) := by
  unfold sendMOTD
  infer_instance

instance : Script p (sendLusers s) := by
  unfold sendLusers
  infer_instance

instance : Script p (handlePass s msg) := by
  unfold handlePass
  infer_instance

instance : Script p (sendCapLS s) := by
  unfold sendCapLS sendCAPList
  infer_instance

instance : Script p (handleCapLIST s) := by
  unfold handleCapLIST sendCAPList
  infer_instance

theorem Server.steady_register [hp : Decided p.enrolls] (srv : Server) (s : SessionId) :
    srv.Steady p ((srv.register s).getD srv) := by
  unfold Server.register
  dsimp only
  split
  · exact srv.steady_refl
  · have h := srv.steady_setSession (p := p) s fun u => { u with state := .registered }
    exact .of_sessions h.session (fun h => absurd h (by simp [hp.eq_true])) rfl

/-- The server that `tryRegister` writes back is made from the one that it has read. -/
theorem tryRegister_eq : tryRegister s = (do
    let srv ← server
    let u := srv.session s
    if u.state = .registered then return
    if u.state = .capNeg then return
    if u.nick = [] ∨ u.user = [] then return
    (srv.register s).elim
      (do
        sendNumeric s .ERR_NICKNAMEINUSE [u.nick, lit "Nickname is already in use"]
        updateSession s fun u => { u with nick := [] })
      fun _ => do
        updateServer fun srv => (srv.register s).getD srv
        notifyMonitorOnline s
        sendWelcome s) := by
  funext env st
  simp only [tryRegister, bind_run, ite_run]
  repeat' split
  · rfl
  · rfl
  · rfl
  · cases h : st.srv.register s with
    | none => simp only [server_run, h, elim_none]
    | some srv' =>
      simp only [server_run, h, elim_some, bind_run, updateServer, getD_some]

instance [Decided p.enrolls] : Script p (tryRegister s) := by
  have hregister : Script p (updateServer fun srv => (srv.register s).getD srv) :=
    .updateServer _ fun srv => srv.steady_register s
  rw [tryRegister_eq]
  unfold sendWelcome
  infer_instance

instance [Decided p.enrolls] : Script p (handleNick s msg) := by
  unfold handleNick
  infer_instance

instance [Decided p.enrolls] : Script p (handleUser s msg) := by
  unfold handleUser
  infer_instance

instance [Decided p.logs] (n : Numeric) (text : Bytes) [Ordinary p n.string] :
    Script p (saslFailure s n text) := by
  unfold saslFailure
  infer_instance

instance [Decided p.enrolls] : Script p (beginNegotiation s) := by
  unfold beginNegotiation
  infer_instance

instance [Decided p.enrolls] [Decided p.logs] : Script p (handleCapEND s) := by
  unfold handleCapEND
  infer_instance

instance [Decided p.negotiates] [Decided p.enrolls] [Decided p.logs] :
    Script p (handleCAP s msg) := by
  unfold handleCAP handleCapLS handleCapREQ
  infer_instance

instance [Decided p.logs] (account : Account) : Script p (logIn s account) := by
  unfold logIn
  infer_instance

instance [Decided p.checks] [Decided p.logs] :
    Script p (handleAuthenticate s msg) := by
  unfold handleAuthenticate authenticate
  infer_instance

/-! ## Messages -/

instance [Decided p.records] (notice : Bool) :
    Script p (handlePrivmsg s msg notice) := by
  have hverb : NotBatch (if notice then Verb.NOTICE else Verb.PRIVMSG).name := by
    cases notice
    · exact inferInstanceAs (NotBatch Verb.PRIVMSG.name)
    · exact inferInstanceAs (NotBatch Verb.NOTICE.name)
  unfold handlePrivmsg relayToChannel relayToNick
  simp only [elim_some]
  infer_instance

instance [Decided p.replays] (batchType target : Bytes)
    (entries : List ChatHistoryEntry) (complete : Bool) :
    Script p (sendHistoryBatch s batchType target entries complete) := by
  unfold sendHistoryBatch sendEntry sendServer
  infer_instance

instance [Decided p.replays] :
    Script p (handleChatHistory s msg) := by
  unfold handleChatHistory sendChatHistoryFail handleChatHistoryTargets listTargets sendChatHistoryFail
  infer_instance

/-! ## Channels -/

instance : Script p (sendNames s ch) := by
  unfold sendNames
  infer_instance

instance : Script p (announceJoin s chanName ch) := by
  unfold announceJoin sendTopic
  infer_instance

instance [hp : Decided p.seats] (nick status : Bytes) :
    KeepsHistory p (Channel.addMember · s nick status) :=
  .of_eq (fun h => absurd h (by simp [hp.eq_true])) (fun _ => rfl) fun _ _ => rfl

instance [Decided p.seats] (chanName key : Bytes) :
    Script p (joinChannel s chanName key) := by
  have hnew (name : Bytes) (at_ : Time) : Script p (updateServer fun srv =>
      { srv with
        channels := srv.channels.insert (toLower name) { name, createdAt := at_ } }) :=
    .updateServer _ fun _ => .of_rooms (.insert rfl (.inl rfl)) (.insert rfl (.inl rfl))
  unfold joinChannel getOrCreate
  infer_instance

instance [Decided p.seats] : Script p (handleJoin s msg) := by
  unfold handleJoin
  infer_instance

theorem Server.steady_removeMember [Decided p.seats] (srv : Server) (key name nick : Bytes) :
    srv.Steady p (srv.removeMember key name nick) := by
  unfold Server.removeMember
  cases hch : srv.channels.lookup key with
  | none => exact srv.steady_refl
  | some ch =>
    have hset : srv.Steady p
        { srv with channels := srv.channels.insert key (ch.removeMember nick) } :=
      .of_rooms (.insert rfl (.inr ⟨ch, hch, rfl⟩)) (.insert rfl (.inr ⟨ch, hch, rfl⟩))
    dsimp only
    split
    · exact hset.trans (.of_rooms (.erase rfl) (.erase rfl))
    · exact hset

instance [Decided p.seats] (key name nick : Bytes) :
    Script p (updateServer fun srv => srv.removeMember key name nick) :=
  .updateServer _ fun srv => srv.steady_removeMember key name nick

instance [Decided p.seats] (reason chanName : Bytes) :
    Script p (partChannel s reason chanName) := by
  unfold partChannel
  infer_instance

instance [Decided p.seats] : Script p (handlePart s msg) := by
  unfold handlePart
  infer_instance

instance [Decided p.seats] : Script p (handleKick s msg) := by
  unfold handleKick
  infer_instance

theorem Channel.roster_applyMembershipMode {ch ch' : Channel} {change : ModeChange}
    (h : ch.applyMembershipMode change = some ch') :
    ch'.roster = ch.roster ∧ ch'.history = ch.history := by
  unfold Channel.applyMembershipMode at h
  split at h
  · cases h
  · split at h
    · cases h
    · split at h
      · cases h
      · rename_i m hm
        dsimp only at h
        split at h
        · cases h
        · cases h
          refine ⟨congrArg (Roster.mk ch.name) (funext fun k => ?_), rfl⟩
          rw [Map.lookup_insert_eq]
          split
          · rename_i hk
            rw [hk, show ch.members.lookup (toLower change.arg) = some m from hm]
            rfl
          · rfl

theorem applyChannelMode_roster (change : ModeChange) :
    (applyChannelMode acc change).1.roster = acc.1.roster ∧
      (applyChannelMode acc change).1.history = acc.1.history := by
  unfold applyChannelMode
  dsimp only
  split
  · split
    · exact ⟨rfl, rfl⟩
    · rename_i ch' h
      exact Channel.roster_applyMembershipMode h
  · exact ⟨rfl, rfl⟩

theorem applyChannelModes_roster :
    (changes.foldl applyChannelMode acc).1.roster = acc.1.roster ∧
      (changes.foldl applyChannelMode acc).1.history = acc.1.history := by
  induction changes generalizing acc with
  | nil => exact ⟨rfl, rfl⟩
  | cons change changes ih =>
    obtain ⟨hroster, hhistory⟩ := applyChannelMode_roster acc change
    exact ⟨(ih _).1.trans hroster, (ih _).2.trans hhistory⟩

instance [hp : Decided p.moderates] (changes : List ModeChange) :
    KeepsHistory p fun ch => (changes.foldl applyChannelMode (ch, [])).1 :=
  .of_eq (fun _ ch => (applyChannelModes_roster changes (ch, [])).1)
    (fun ch => (applyChannelModes_roster changes (ch, [])).2)
    fun h => absurd h (by simp [hp.eq_true])

instance [Decided p.moderates] : Script p (handleMode s msg) := by
  unfold handleMode handleChannelMode handleUserMode modeString
  infer_instance

/-! ## Queries and user state -/

instance (mask status : Bytes) : Script p (sendWhoReply s t mask status) := by
  unfold sendWhoReply
  infer_instance

instance : Script p (sendWhois s t) := by
  unfold sendWhois
  infer_instance

instance : Script p (handlePing s msg) := by
  unfold handlePing
  infer_instance

instance : Script p (handleQuit s msg) := by
  unfold handleQuit
  infer_instance

instance [Decided p.checks] [Decided p.moderates] :
    Script p (handleOper s msg) := by
  unfold handleOper
  infer_instance

/-! ## Dispatch -/

/-- The scope of a message. -/
def Message.scope : Scope where
  replays := verbOf (toUpper msg.command) = some .CHATHISTORY
  checks := verbOf (toUpper msg.command) = some .OPER ∨
    verbOf (toUpper msg.command) = some .AUTHENTICATE
  negotiates := verbOf (toUpper msg.command) = some .CAP
  records := verbOf (toUpper msg.command) = some .PRIVMSG ∨
    verbOf (toUpper msg.command) = some .NOTICE
  moderates := verbOf (toUpper msg.command) = some .MODE ∨
    verbOf (toUpper msg.command) = some .OPER
  enrolls := verbOf (toUpper msg.command) = some .NICK ∨
    verbOf (toUpper msg.command) = some .USER ∨ verbOf (toUpper msg.command) = some .CAP
  seats := verbOf (toUpper msg.command) = some .JOIN ∨
    verbOf (toUpper msg.command) = some .PART ∨ verbOf (toUpper msg.command) = some .KICK
  logs := verbOf (toUpper msg.command) = some .CAP ∨
    verbOf (toUpper msg.command) = some .AUTHENTICATE

/-- A command of a registered session that is not `NICK` is in the scopes of its verb. -/
theorem script_dispatchRegistered {cmd : Bytes} (hnick : verbOf cmd ≠ some .NICK)
    (hseats : verbOf cmd ∈ [some .JOIN, some .PART, some .KICK] → p.seats = true)
    (hmoderates : verbOf cmd ∈ [some .MODE, some .OPER] → p.moderates = true)
    (hrecords : verbOf cmd ∈ [some .PRIVMSG, some .NOTICE] → p.records = true)
    (hreplays : verbOf cmd = some .CHATHISTORY → p.replays = true)
    (hchecks : verbOf cmd = some .OPER → p.checks = true) :
    Script p (dispatchRegistered s msg cmd) := by
  unfold dispatchRegistered
  split
  case h_1 hv | h_2 hv | h_6 hv =>
    have : Decided p.seats := ⟨hseats (by simp [hv])⟩
    infer_instance
  case h_8 hv =>
    have : Decided p.moderates := ⟨hmoderates (by simp [hv])⟩
    infer_instance
  case h_9 hv | h_10 hv =>
    have : Decided p.records := ⟨hrecords (by simp [hv])⟩
    infer_instance
  case h_12 hv =>
    have : Decided p.replays := ⟨hreplays hv⟩
    infer_instance
  case h_17 hv => exact absurd hv hnick
  case h_30 hv =>
    have : Decided p.checks := ⟨hchecks hv⟩
    have : Decided p.moderates := ⟨hmoderates (by simp [hv])⟩
    infer_instance
  case h_21 | h_22 | h_23 | h_33 => infer_instance
  all_goals
    dsimp only [handleTopic, sendTopic, handleNames, handleList, handleInvite, handleTagmsg,
      relayToChannel, relayToNick, handleWho, handleWhois, handleWhowas, handleAway,
      handleUserhost, handleIson, handleMonitor, monitorAdd, monitorRemove, monitorList,
      monitorStatus, handleVersion, handleTime, handleAdmin, handleInfo, handleStats,
      handleWallops, notOperator, handleKill, handleSetname, elim_none]
    infer_instance

theorem script_dispatch : Script msg.scope (dispatch s msg) := by
  unfold dispatch
  split
  case h_1 hv =>
    have hnegotiates : Decided msg.scope.negotiates := ⟨by simp [Message.scope, hv]⟩
    have henrolls : Decided msg.scope.enrolls := ⟨by simp [Message.scope, hv]⟩
    have hlogs : Decided msg.scope.logs := ⟨by simp [Message.scope, hv]⟩
    infer_instance
  case h_3 hv | h_4 hv =>
    have henrolls : Decided msg.scope.enrolls := ⟨by simp [Message.scope, hv]⟩
    infer_instance
  case h_8 hv =>
    have hchecks : Decided msg.scope.checks := ⟨by simp [Message.scope, hv]⟩
    have hlogs : Decided msg.scope.logs := ⟨by simp [Message.scope, hv]⟩
    infer_instance
  case h_9 hcap hpass hnick huser hquit hping hpong hauth =>
    have := script_dispatchRegistered (p := msg.scope) s msg hnick (by simp [Message.scope])
      (by simp [Message.scope]) (by simp [Message.scope]) (by simp [Message.scope])
      fun hv => by simp [Message.scope, hv]
    unfold dispatchOther
    infer_instance
  all_goals infer_instance

instance : Within OnlyReads (frameResponse s label messages) := by
  unfold frameResponse frameMessage responseMessage
  split <;> infer_instance

instance : Within Onward (finishResponse s) := by
  unfold finishResponse
  infer_instance

instance : Within Onward (sendPrepared s messages) := by
  unfold sendPrepared
  infer_instance

/-- What is done with a command that needs a registered session. -/
theorem dispatch_run (handler : M Unit)
    (hdispatch : dispatch s msg = dispatchOther s msg (toUpper msg.command))
    (hregistered : dispatchRegistered s msg (toUpper msg.command) = handler) (env : Env)
    (st : State) :
    dispatch s msg env st = if (st.srv.session s).state = .registered then handler env st
      else sendNumeric s .ERR_NOTREGISTERED [lit "You have not registered"] env st := by
  rw [hdispatch, dispatchOther, hregistered, bind_run, server_run, ite_run]
  exact ite_not ..

/-- What is done with a line before its message is handled. -/
def noteIdle : M Unit := do
  let idleAt ← now
  updateSession s fun u => { u with idleAt := idleAt }

instance : Script p (noteIdle s) := by
  unfold noteIdle
  infer_instance

variable {raw : Bytes} {msg : Message}

theorem handleLine_run (h : lineMessage raw = some msg) (s : SessionId) (env : Env)
    (st : State) : handleLine s raw env st = dispatchCommand s msg env (noteIdle s env st).2 := by
  unfold lineMessage at h
  split at h
  · cases h
  · rename_i hlong
    simp only [handleLine, ite_run]
    rw [if_neg hlong, h]
    rfl

theorem handleLine_long (h : inputTooLong raw = true) (s : SessionId) (env : Env) (st : State) :
    handleLine s raw env st =
      sendNumeric s .ERR_INPUTTOOLONG [lit "Input line was too long"] env st := by
  simp only [handleLine, ite_run]
  exact if_pos h

theorem handleLine_none (hlong : ¬ inputTooLong raw = true) (h : lineMessage raw = none)
    (s : SessionId) (env : Env) (st : State) : handleLine s raw env st = ((), st) := by
  rw [lineMessage, if_neg hlong] at h
  simp only [handleLine, ite_run]
  rw [if_neg hlong, h]
  rfl

/-- **What a line does**: nothing but a reply, or what its message does. -/
theorem handleLine_cases (s : SessionId) (raw : Bytes) (env : Env) (st : State) :
    lineMessage raw = none ∧ Onward st (handleLine s raw env st).2 ∨
      ∃ msg st₁, lineMessage raw = some msg ∧ Begun s st st₁ ∧
        Onward (dispatch s msg env st₁).2 (handleLine s raw env st).2 := by
  simp only [handleLine, ite_run, lineMessage]
  split
  · exact .inl ⟨rfl, within_run Onward (sendNumeric s _ _) env st⟩
  · cases (parse raw).toOption with
    | none => exact .inl ⟨rfl, refl_of Onward st⟩
    | some msg =>
      refine .inr ⟨msg, ?_⟩
      simp only [elim_some, bind_run, dispatchCommand]
      cases responseLabel _ msg with
      | none => exact ⟨_, trivial, ⟨Nat.le_succ _, _, rfl⟩, refl_of Onward _⟩
      | some label =>
        exact ⟨_, trivial, ⟨Nat.le_succ _, _, rfl⟩,
          within_run Onward (do let response ← finishResponse s; sendPrepared s response) env _⟩

/-- **A line around its message**: what is done before and after that lies within a relation if each
part of it does. -/
theorem handleLine_around (R : State → State → Prop) [IsPreorder State R] (s : SessionId)
    [Within R (noteIdle s)] [∀ label, Within R (beginResponse s label)]
    [Within R (do
      let response ← finishResponse s
      sendPrepared s response)]
    [Within R (sendNumeric s .ERR_INPUTTOOLONG [lit "Input line was too long"])] (raw : Bytes)
    (env : Env) (st : State) :
    lineMessage raw = none ∧ R st (handleLine s raw env st).2 ∨
      ∃ msg st₁, lineMessage raw = some msg ∧ R st st₁ ∧
        R (dispatch s msg env st₁).2 (handleLine s raw env st).2 := by
  by_cases hlong : inputTooLong raw = true
  · rw [handleLine_long hlong]
    exact .inl ⟨if_pos hlong, within_run R _ env st⟩
  cases hline : lineMessage raw with
  | none =>
    rw [handleLine_none hlong hline]
    exact .inl ⟨rfl, refl_of R st⟩
  | some msg =>
    have hnote := within_run R (noteIdle s) env st
    refine .inr ⟨msg, ?_⟩
    rw [handleLine_run hline]
    simp only [dispatchCommand, bind_run]
    cases responseLabel _ msg with
    | none => exact ⟨_, trivial, hnote, refl_of R _⟩
    | some label =>
      exact ⟨_, trivial, trans_of R hnote (within_run R (beginResponse s label) env _),
        within_run R (do let response ← finishResponse s; sendPrepared s response) env _⟩

/-- What a line keeps: a property that a command in no special scope keeps, and that the handling
of the line's message keeps. -/
theorem handleLine_keeps {P : State → Prop} {s : SessionId} {raw : Bytes} {env : Env}
    (hsteady : ∀ st st', Steady {} st st' → P st → P st')
    (hdispatch : ∀ msg st, lineMessage raw = some msg → P st → P (dispatch s msg env st).2)
    {st : State} (h : P st) : P (handleLine s raw env st).2 := by
  rcases handleLine_cases s raw env st with ⟨-, honward⟩ | ⟨msg, st₁, hline, hbegun, honward⟩
  · exact hsteady _ _ honward.steady h
  · exact hsteady _ _ honward.steady (hdispatch msg st₁ hline (hsteady _ _ hbegun.steady h))

instance [Decided p.seats] (s : SessionId) (u : Session) (ch : Sigma fun _ : Bytes => Channel) :
    Script p (leaveChannel s u ch) := by
  unfold leaveChannel
  infer_instance

instance [Decided p.enrolls] [Decided p.seats] (s : SessionId) : Script p (removeSession s) := by
  unfold removeSession
  infer_instance

instance [Decided p.enrolls] [Decided p.seats] (s : SessionId) : Script p (disconnect s) := by
  unfold disconnect
  infer_instance

theorem steady_disconnect (s : SessionId) (env : Env) (st : State) :
    Steady { enrolls := true, seats := true } st (disconnect s env st).2 :=
  within_run _ (disconnect s) env st

end

end Irc
