import GoProtocols.Irc.Disconnect
import GoProtocols.Irc.Sasl
import GoProtocols.Lib.Pending

/-!
# Registration, over whole runs

A session registers at most once and stays registered. It registers with a message of its own, when
it has a valid nick that is free, a user name and no negotiation of capabilities open. Until then
its messages are a matter between it and the server, but for a `QUIT`: the disconnect that follows
goes by the nick that the session has asked for, whoever has it (`registration_lawful`).

* `Negotiating log`: the messages leave a negotiation open. A session that is not registered is in
  its state, too (`Waits`).
* `Alone s st st'`: nobody but `s` notices. Every handler that may run before registration does no
  more than this allows, unless it registers the session (`Modest`, `dispatch_modest`).
* `NickUnused srv s`: nobody goes by the nick of `s`. The disconnect of `s` is noticed otherwise, and
  not noticed if nobody watches for the nick, either (`disconnect_alone`).
-/

namespace Irc

open Go Prog System List

set_option synthInstance.maxSize 4096

/-! ## Between a session and the server -/

variable {α : Type} (s : SessionId) (m : M α)

/-- The registry, the channels, and all that the other sessions have and are sent, are as they
were. -/
structure Alone (s : SessionId) (st st' : State) : Prop where
  sessions : st'.srv.sessions = st.srv.sessions
  channels : st'.srv.channels = st.srv.channels
  session : ∀ t, t ≠ s → st'.srv.session t = st.srv.session t
  output : ∀ t, t ≠ s → st'.output t = st.output t

instance : IsPreorder State (Alone s) where
  refl _ := ⟨rfl, rfl, fun _ _ => rfl, fun _ _ => rfl⟩
  trans _ _ _ h h' :=
    { sessions := h'.sessions.trans h.sessions
      channels := h'.channels.trans h.channels
      session := fun t ht => (h'.session t ht).trans (h.session t ht)
      output := fun t ht => (h'.output t ht).trans (h.output t ht) }

theorem Alone.symm {s : SessionId} {st st' : State} (h : Alone s st st') : Alone s st' st where
  sessions := h.sessions.symm
  channels := h.channels.symm
  session t ht := (h.session t ht).symm
  output t ht := (h.output t ht).symm

theorem OnlyReads.alone {st st' : State} (h : OnlyReads st st') (s : SessionId) :
    Alone s st st' where
  sessions := by rw [h.srv]
  channels := by rw [h.srv]
  session t _ := by rw [h.srv]
  output t _ := by rw [h.output]

instance (priority := low) within_alone_of_reads [h : Within OnlyReads m] : Within (Alone s) m :=
  h.mono fun _ _ h => h.alone s

instance (f : Session → Session) : Within (Alone s) (updateSession s f) where
  run _ st :=
    { sessions := rfl
      channels := rfl
      session := fun t ht => by simp [updateSession, updateServer, Server.setSession, ht]
      output := fun _ _ => rfl }

instance (f : Output → Output) : Within (Alone s) (updateOutput s f) where
  run _ st :=
    { sessions := rfl
      channels := rfl
      session := fun _ _ => rfl
      output := fun t ht => by simp [updateOutput, ht] }

instance (hash password : Bytes) : Within (Alone s) (checkPassword s hash password) :=
  ⟨fun env st => by rw [checkPassword_state]; exact refl_of (Alone s) st⟩

variable {s} (env : Env) (st : State)

/-- Session `s` is registered. -/
def State.Registered (s : SessionId) : Prop :=
  (st.srv.session s).state = .registered

instance (s : SessionId) : Decidable (st.Registered s) :=
  inferInstanceAs (Decidable (_ = _))

/-- Nobody but `s` notices, unless it is registered afterwards. -/
def Modest (s : SessionId) (st st' : State) : Prop := st'.Registered s ∨ Alone s st st'

theorem Modest.after {st st' st'' : State} (h : Modest s st' st'') (h' : Alone s st st') :
    Modest s st st'' :=
  h.imp_right fun h => trans_of (Alone s) h' h

theorem modest_of_alone [Within (Alone s) m] : Modest s st (m env st).2 :=
  .inr (within_run (Alone s) m env st)

/-- Session `s` is registered if it was, and nobody else notices if it is not. -/
structure Waiting (s : SessionId) (st st' : State) : Prop where
  registered : st'.Registered s ↔ st.Registered s
  alone : ¬ st.Registered s → Alone s st st'

instance (s : SessionId) : IsPreorder State (Waiting s) where
  refl st := ⟨.rfl, fun _ => refl_of (Alone s) st⟩
  trans _ _ _ h h' := ⟨h'.registered.trans h.registered, fun hst =>
    trans_of (Alone s) (h.alone hst) (h'.alone (h.registered.not.2 hst))⟩

theorem Same.registered_iff {st st' : State} (h : Same st st') :
    st'.Registered s ↔ st.Registered s :=
  iff_of_eq (congrArg (fun us : Users => (us.ident s).state = .registered) h.users)

instance (priority := low) within_waiting_of_alone {α : Type} (m : M α) [ha : Within (Alone s) m]
    [hu : Within Same m] : Within (Waiting s) m where
  run env st := ⟨(hu.run env st).registered_iff, fun _ => ha.run env st⟩

section
variable [UnicodeTables] (s : SessionId) (msg : Message) (env : Env) (st : State) (subCmd : Bytes)
  (lines : List (List Bytes)) {us us' : Users} (subArg : Bytes) (n : Numeric) (text : Bytes)
  (verb : Verb) (params : List Bytes)

instance : Within (Alone s) (send s msg) := by
  unfold send
  infer_instance

instance : Within (Alone s) (sendServer s verb params) := by
  unfold sendServer
  infer_instance

instance : Within (Alone s) (sendNumeric s n params) := by
  unfold sendNumeric
  infer_instance

instance : Within (Alone s) (noteIdle s) := by
  unfold noteIdle
  infer_instance

instance (label : Bytes) : Within (Alone s) (beginResponse s label) := by
  unfold beginResponse
  infer_instance

instance : Within (Alone s) (finishResponse s) := by
  unfold finishResponse
  infer_instance

instance (messages : List Message) : Within (Alone s) (sendPrepared s messages) := by
  unfold sendPrepared
  infer_instance

instance (value : Bytes) : Within (Alone s) (sendCAP s subCmd value) := by
  unfold sendCAP
  infer_instance

instance : Within (Alone s) (sendCAPLines s subCmd lines) := by
  induction lines with
  | nil => exact within_pure ()
  | cons line lines ih =>
    cases lines with
    | nil => exact inferInstanceAs (Within (Alone s) (sendCAP s subCmd _))
    | cons line' lines =>
      unfold sendCAPLines
      infer_instance

instance : Within (Alone s) (handleCapLS s subArg) := by
  unfold handleCapLS sendCapLS sendCAPList beginNegotiation
  infer_instance

instance : Within (Alone s) (handleCapLIST s) := by
  unfold handleCapLIST sendCAPList
  infer_instance

instance : Within (Alone s) (handleCapREQ s subArg) := by
  unfold handleCapREQ beginNegotiation
  infer_instance

instance : Within (Alone s) (saslFailure s n text) := by
  unfold saslFailure
  infer_instance

instance : Within (Alone s) (handlePass s msg) := by
  unfold handlePass
  infer_instance

instance : Within (Alone s) (handlePing s msg) := by
  unfold handlePing
  infer_instance

instance : Within (Alone s) (handleQuit s msg) := by
  unfold handleQuit
  infer_instance

/-! ## Handlers that may do more -/

variable (account : Account) {t : SessionId}

theorem tryRegister_modest : Modest s st (tryRegister s env st).2 := by
  refine or_iff_not_imp_left.2 fun h => ?_
  -- a session that is ready, with a free nick, would be registered
  have hused (hready : Users.Ready (st.srv.users.ident s)) :
      toLower (st.srv.users.ident s).nick ∈ st.srv.users.sessions := by
    by_contra hfree
    have hstate := congrArg (fun us : Users => (us.ident s).state)
      (tryRegister_handshake s env st).users
    rw [Users.tryRegister_free hready hfree] at hstate
    exact h (hstate.trans (by simp [Users.enroll]))
  clear h
  simp only [tryRegister, bind_run, ite_run, pure_run]
  split_ifs with hreg hneg hnil
  · exact refl_of (Alone s) st
  · exact refl_of (Alone s) st
  · exact refl_of (Alone s) st
  · rw [not_or] at hnil
    have hkey := hused ⟨by
      cases hst : (st.srv.session s).state <;> simp_all [Server.users, Session.ident], hnil⟩
    have hnone : st.srv.register s = none := if_pos hkey
    simp only [server_run, hnone, Option.elim_none]
    exact within_run (Alone s) (do
      sendNumeric s .ERR_NICKNAMEINUSE [_, _]
      updateSession s _) env st

theorem handleNick_modest : Modest s st (handleNick s msg env st).2 := by
  simp only [handleNick, bind_run, ite_run]
  split_ifs
  · exact modest_of_alone _ env st
  · exact modest_of_alone _ env st
  · exact (tryRegister_modest s env _).after (within_run (Alone s) (updateSession s _) env st)
  · exact modest_of_alone _ env st

theorem handleUser_modest : Modest s st (handleUser s msg env st).2 := by
  simp only [handleUser, bind_run, ite_run]
  split_ifs
  · exact modest_of_alone _ env st
  · exact modest_of_alone _ env st
  · exact (tryRegister_modest s env _).after (within_run (Alone s) (updateSession s _) env st)

theorem handleCapEND_modest : Modest s st (handleCapEND s env st).2 := by
  simp only [handleCapEND, bind_run]
  refine (tryRegister_modest s env _).after ?_
  exact trans_of (Alone s) (within_run (Alone s) (when _ (saslFailure s _ _)) env st)
    (within_run (Alone s) (when _ (updateSession s _)) env _)

theorem handleCAP_modest : Modest s st (handleCAP s msg env st).2 := by
  simp only [handleCAP, ite_run]
  split_ifs
  all_goals first | exact modest_of_alone _ env st | exact handleCapEND_modest s env st

theorem logIn_alone (h : ¬ st.Registered s) : Alone s st (logIn s account env st).2 := by
  -- the peers of a registered session only are told
  have hskip (m : M Unit) :
      when (((server env st).1.session s).state = .registered) m = pure () := if_neg h
  simp only [logIn, bind_run, hskip]
  exact trans_of (Alone s) (trans_of (Alone s) (trans_of (Alone s)
    (within_run (Alone s) (updateSession s _) env st)
    (within_run (Alone s) (when _ (do
      updateSession s _
      pure ())) env _))
    (within_run (Alone s) (sendNumeric s _ _) env _))
    (within_run (Alone s) (sendNumeric s _ _) env _)

instance : Within (Waiting s) (logIn s account) where
  run env st := ⟨(within_run Same (logIn s account) env st).registered_iff,
    logIn_alone s env st account⟩

instance : Within (Waiting s) (handleAuthenticate s msg) := by
  unfold handleAuthenticate authenticate
  infer_instance

/-! ## Lines -/

theorem dispatchOther_alone (cmd : Bytes) (h : ¬ st.Registered s) :
    Alone s st (dispatchOther s msg cmd env st).2 := by
  simp only [dispatchOther, bind_run, ite_run]
  rw [if_pos (show ((server env st).1.session s).state ≠ .registered from h)]
  exact within_run (Alone s) (sendNumeric s _ _) env st

theorem dispatch_modest (h : ¬ st.Registered s) : Modest s st (dispatch s msg env st).2 := by
  generalize hm : dispatch s msg = m
  unfold dispatch at hm
  split at hm <;> subst hm
  · exact handleCAP_modest s msg env st
  · exact modest_of_alone _ env st
  · exact handleNick_modest s msg env st
  · exact handleUser_modest s msg env st
  · exact modest_of_alone _ env st
  · exact modest_of_alone _ env st
  · exact modest_of_alone _ env st
  · exact .inr ((within_run (Waiting s) (handleAuthenticate s msg) env st).alone h)
  · exact .inr (dispatchOther_alone s msg env st _ h)

/-- **Nobody but the session notices a line of a session that is not registered**, unless it
registers the session. -/
theorem handleLine_modest (raw : Bytes) (h : ¬ st.Registered s) :
    Modest s st (handleLine s raw env st).2 := by
  rcases handleLine_around (Waiting s) s raw env st with ⟨-, hw⟩ | ⟨msg, st₁, -, hbefore, hafter⟩
  · exact .inr (hw.alone h)
  have hst₁ : ¬ st₁.Registered s := hbefore.registered.not.2 h
  by_cases hreg : (dispatch s msg env st₁).2.Registered s
  · exact .inl (hafter.registered.2 hreg)
  · have halone := (dispatch_modest s msg env st₁ hst₁).resolve_left hreg
    exact .inr (trans_of (Alone s) (trans_of (Alone s) (hbefore.alone h) halone) (hafter.alone hreg))

/-! ## Disconnects -/

/-- The nick of session `s` has no entry in the registry and no seat in a channel. -/
def NickUnused (srv : Server) (s : SessionId) : Prop :=
  (srv.session s).nick = [] ∨
    toLower (srv.session s).nick ∉ srv.sessions ∧
      ∀ e ∈ srv.channels.entries, e.2.hasMember (srv.session s).nick = false

/-- Nobody but `s` watches for its nick. -/
def NickUnwatched (srv : Server) (s : SessionId) : Prop :=
  ∀ e ∈ srv.sessions.entries, e.2 ≠ s →
    (srv.session e.2).isMonitoring (srv.session s).nick = false

instance (srv : Server) (s : SessionId) : Decidable (NickUnused srv s) :=
  inferInstanceAs (Decidable (_ ∨ _ ∧ _))

instance (srv : Server) (s : SessionId) : Decidable (NickUnwatched srv s) :=
  inferInstanceAs (Decidable (∀ e ∈ _, _))

variable {s msg env st}

theorem notifyMonitorOffline_alone {nick : Bytes} (h : ∀ e ∈ st.srv.sessions.entries, e.2 ≠ s →
    (st.srv.session e.2).isMonitoring nick = false) :
    Alone s st (notifyMonitorOffline nick env st).2 := by
  have hround (w : SessionId) (hw : w ∈ (allSessions env st).1) : Within (Alone s)
      (when ((st.srv.session w).isMonitoring nick)
        (sendMonitorList w .RPL_MONOFFLINE [nick])) := by
    by_cases hws : w = s
    · rw [hws]
      unfold sendMonitorList
      infer_instance
    · obtain ⟨e, he, rfl⟩ := mem_map.1 hw
      have he' : e ∈ st.srv.sessions.entries := (visit_perm _ _).subset he
      rw [when, if_neg (by simp [h e he' hws])]
      infer_instance
  simp only [notifyMonitorOffline, bind_run]
  exact trans_of (Alone s) (within_run (Alone s) allSessions env st)
    ((Within.forM hround).run env (allSessions env st).2)

theorem removeSession_alone (h : NickUnused st.srv s) (hwatch : NickUnwatched st.srv s) :
    Alone s st (removeSession s env st).2 := by
  by_cases hnick : (st.srv.session s).nick = []
  · rw [removeSession_nil hnick]
    exact refl_of (Alone s) st
  obtain ⟨hentry, hseat⟩ := h.resolve_left hnick
  obtain ⟨l, st₁, st₂, hperm, husers, hsession, hchannels, hout, hst₂, hrun⟩ := removeSession_run hnick env
  have hleave : Within (Alone s) (l.forM (leaveChannel s (st.srv.session s))) := .forM fun e he => by
    unfold leaveChannel
    rw [when, if_neg (by simp [hseat e (hperm.subset he)])]
    infer_instance
  have hloop : Alone s st (l.forM (leaveChannel s (st.srv.session s)) env st₁).2 :=
    trans_of (Alone s) ⟨congrArg Users.sessions husers, hchannels, fun t _ => congrFun hsession t,
      fun t _ => congrFun hout t⟩ (hleave.run env st₁)
  have herase : Alone s st st₂ := by
    have hsame : st.srv.sessions.erase (toLower (st.srv.session s).nick) = st.srv.sessions :=
      AList.ext (kerase_of_notMem_keys hentry)
    rw [hst₂]
    exact { hloop with sessions := (congrArg (AList.erase _) hloop.sessions).trans hsame }
  rw [hrun]
  refine trans_of (Alone s) herase (notifyMonitorOffline_alone fun e he hes => ?_)
  rw [herase.session e.2 hes]
  exact hwatch e (herase.sessions ▸ he) hes

theorem nickUnused_of_removeSession (h : Alone s st (removeSession s env st).2)
    (hk : Rosters.Keyed st.srv.roster) : NickUnused st.srv s := by
  refine or_iff_not_imp_left.2 fun hnick => ⟨?_, fun e he => ?_⟩
  · have hgone := lookup_sessions_removeSession hnick env (toLower (st.srv.session s).nick)
    rw [h.sessions, if_pos rfl] at hgone
    exact AList.lookup_eq_none.1 hgone
  · have hleft := removeSession_channels hk hnick env e.1
    rw [h.channels, Map.lookup_eq_some_iff.2 he] at hleft
    have hself := Channel.lookup_leave_self hleft.symm
    simp [Channel.hasMember, Channel.getMembership, hself]

/-- **Nobody but the session notices its disconnect if nobody goes by its nick or watches for it**,
and it is noticed if somebody goes by it. -/
theorem disconnect_alone (hk : Rosters.Keyed st.srv.roster) :
    (NickUnused st.srv s → NickUnwatched st.srv s → Alone s st (disconnect s env st).2) ∧
      (Alone s st (disconnect s env st).2 → NickUnused st.srv s) := by
  have hbefore : Alone s st (updateServer (fun srv =>
      { srv with clientsCurrent := srv.clientsCurrent - 1 }) env st).2 :=
    ⟨rfl, rfl, fun _ _ => rfl, fun _ _ => rfl⟩
  have hafter := fun st' => within_run (Alone s)
    (updateSession s fun u => { u with connected := false }) env st'
  refine ⟨fun h hwatch => ?_, fun h => ?_⟩
  · exact trans_of (Alone s) (trans_of (Alone s) hbefore (removeSession_alone h hwatch)) (hafter _)
  · have hremove := trans_of (Alone s) hbefore.symm (trans_of (Alone s) h (hafter _).symm)
    have hunused := nickUnused_of_removeSession hremove hk
    exact hunused

/-! ## Negotiations -/

/-- A `CAP` that opens a negotiation. -/
def Message.OpensNegotiation (m : Message) : Prop := m.IsCap (lit "LS") ∨ m.IsCap (lit "REQ")

/-- After the messages a negotiation is open: one of them opened it, and no `CAP END` followed. -/
def Negotiating (log : List Message) : Prop :=
  Pending Message.OpensNegotiation (Message.IsCap · (lit "END")) log

theorem Message.IsCap.not_opens (h : msg.IsCap (lit "END")) : ¬ msg.OpensNegotiation := by
  rintro (hls | hreq)
  · exact hls.not_end (by decide) h
  · exact hreq.not_end (by decide) h

namespace Users

variable {us : Users}

theorem state_tryRegister (us : Users) (s : SessionId) :
    ((us.tryRegister s).ident s).state = (us.ident s).state ∨
      ((us.tryRegister s).ident s).state = .registered := by
  unfold Users.tryRegister
  split
  · exact .inl rfl
  · split
    · exact .inl (by simp)
    · exact .inr (by simp [enroll])

theorem capNeg_command (h : (us.ident s).state = .capNeg) (hend : ¬ msg.IsCap (lit "END")) :
    ((us.command s msg).ident s).state ≠ .preReg := by
  -- an attempt to register, after a change of the session but not of its state
  have htry {i : Ident} (hi : i.state = .capNeg) :
      (((us.setIdent s i).tryRegister s).ident s).state ≠ .preReg := by
    rcases state_tryRegister (us.setIdent s i) s with hs | hs
    · simp [hs, hi]
    · simp [hs]
  unfold command
  split
  · cases msg.params with
    | nil => simp [nickCommand, h]
    | cons nick params =>
      simp only [nickCommand]
      split
      · exact htry h
      · simp [h]
  · unfold userCommand
    split
    · simp [h]
    · exact htry h
  · rename_i hv
    cases hp : msg.params with
    | nil => simp [capCommand, h]
    | cons sub params =>
      have hsub : toUpper sub ≠ lit "END" := fun he => hend ⟨hv, sub, by simp [hp], he⟩
      simp only [capCommand, negotiate, if_neg hsub, h, reduceCtorEq, if_false]
      split
      · simp
      · simp [h]
  · simp [h]

theorem opens_command (h : (us.ident s).state ≠ .registered) (hopens : msg.OpensNegotiation) :
    ((us.command s msg).ident s).state = .capNeg := by
  have hcap : verbOf (toUpper msg.command) = some .CAP ∧
      ∃ sub ∈ msg.params.head?, toUpper sub = lit "LS" ∨ toUpper sub = lit "REQ" := by
    rcases hopens with ⟨hv, sub, hsub, he⟩ | ⟨hv, sub, hsub, he⟩
    · exact ⟨hv, sub, hsub, .inl he⟩
    · exact ⟨hv, sub, hsub, .inr he⟩
  obtain ⟨hv, sub, hsub, he⟩ := hcap
  obtain ⟨params, hp⟩ := List.head?_eq_some_iff.1 hsub
  simp [command, hv, hp, capCommand, if_pos he, negotiate, h]

/-- The message that completes the handshake is a `CAP END`, or no `CAP` and comes when no
negotiation is open. -/
theorem Completes.closed (h : us.Completes s msg) :
    msg.IsCap (lit "END") ∨ (us.ident s).state = .preReg ∧ ¬ msg.OpensNegotiation := by
  unfold Completes at h
  split at h
  · rename_i hv
    refine .inr ⟨h.1, ?_⟩
    rintro (⟨hcap, -⟩ | ⟨hcap, -⟩) <;> simp [hv] at hcap
  · rename_i hv
    refine .inr ⟨h.1, ?_⟩
    rintro (⟨hcap, -⟩ | ⟨hcap, -⟩) <;> simp [hv] at hcap
  · rename_i hv
    exact .inl ⟨hv, h.2.1⟩
  · exact h.elim

theorem Completes.user_ne (h : us.Completes s msg) : us.userWith s msg ≠ [] := by
  obtain ⟨i, hready, -, huser, -⟩ := h.command_eq
  exact huser ▸ hready.2.2

theorem Moves.free (hm : Moves us s msg us') (h : (us.ident s).state ≠ .registered)
    (h' : (us'.ident s).state = .registered) :
    (us'.ident s).nick ≠ [] ∧ toLower (us'.ident s).nick ∉ us.sessions := by
  cases hm with
  | stay => exact absurd h' h
  | prepare _ hi _ => exact absurd (by simpa using h') hi
  | register _ _ _ hnick hfree _ =>
    exact ⟨by simpa [enroll] using hnick, by simpa [enroll] using hfree⟩
  | respell hs _ _ | rename hs _ _ _ => exact absurd hs h

end Users

/-! ## Runs -/

/-- The event registers session `s`. -/
def Registers (env : Env) (s : SessionId) (st : State) (e : Event) : Prop :=
  ¬ st.Registered s ∧ ((ircd env).step st e).Registered s

instance (env : Env) (s : SessionId) (st : State) (e : Event) : Decidable (Registers env s st e) :=
  inferInstanceAs (Decidable (_ ∧ _))

/-- The events that register session `s`. -/
def registrations (env : Env) (s : SessionId) (es : List Event) : List Event :=
  (ircd env).collect (fun st e => if Registers env s st e then [e] else []) es

/-- All that session `s` needs to be registered by an event after others: the event is its message,
it has a valid nick and a user name with it, no negotiation is open, and the nick is free. -/
structure Lawful (env : Env) (s : SessionId) (es : List Event) (st : State) (e : Event) : Prop where
  message : ∃ raw msg, e = .line s raw ∧ lineMessage raw = some msg
  nick : (((ircd env).step st e).srv.session s).nick ≠ [] ∧
    isValidNick (((ircd env).step st e).srv.session s).nick = true
  user : (((ircd env).step st e).srv.session s).user ≠ []
  settled : ¬ Negotiating (sent s (es ++ [e]))
  free : toLower (((ircd env).step st e).srv.session s).nick ∉ st.srv.sessions

/-- What the messages of the sessions have led to: who has not sent any may be new, and who is in a
negotiation by its messages waits for the end of it. -/
structure Waits (es : List Event) (us : Users) : Prop where
  sound : us.Sound
  valid : us.NicksValid
  silent : ∀ t, us.allocated ≤ t → sent t es = []
  waits : ∀ t, (us.ident t).state ≠ .registered → Negotiating (sent t es) →
    (us.ident t).state = .capNeg

theorem Users.Moves.allocated_eq (h : Users.Moves us s msg us') : us'.allocated = us.allocated := by
  cases h with
  | stay | prepare | register | respell | rename => rfl

theorem Users.Step.allocated_le {e : Event} (h : us.Step e us') : us.allocated ≤ us'.allocated := by
  cases h with
  | refuse | ignore => exact le_rfl
  | connect => exact Nat.le_succ _
  | command => exact (Users.moves_command us _ _).allocated_eq.ge
  | quit => exact (us.unregister_allocated _).ge

variable {es : List Event} {us us' : Users} {e : Event}

theorem Waits.silent_step (h : Waits es us) (hs : us.Step e us') (ht : us'.allocated ≤ t) :
    sent t (es ++ [e]) = [] := by
  have hle := hs.allocated_le
  rw [sent_concat_other, h.silent t (by omega)]
  rintro raw msg rfl hmsg
  cases hs with
  | ignore hnone => simp [hnone] at hmsg
  | command hc _ =>
    -- a session that sends a line is connected, so that it is not new
    rw [h.sound.fresh t (by omega)] at hc
    cases hc

theorem Waits.command (h : Waits es us) (hreg : ((us.command s msg).ident s).state ≠ .registered)
    (hneg : Negotiating (sent s es ++ [msg])) : ((us.command s msg).ident s).state = .capNeg := by
  have hbefore : (us.ident s).state ≠ .registered :=
    fun hst => hreg ((Users.moves_command us s msg).registered hst).1
  rcases pending_concat.1 hneg with hopens | ⟨hlog, hend⟩
  · exact Users.opens_command hbefore hopens
  · have hpre := Users.capNeg_command (h.waits s hbefore hlog) hend
    cases hst : ((us.command s msg).ident s).state with
    | preReg => exact absurd hst hpre
    | capNeg => rfl
    | registered => exact absurd hst hreg

theorem Waits.waits_step (h : Waits es us) (hs : us.Step e us')
    (hreg : (us'.ident t).state ≠ .registered) (hneg : Negotiating (sent t (es ++ [e]))) :
    (us'.ident t).state = .capNeg := by
  cases hs with
  | refuse =>
    rw [sent_concat_other (by simp)] at hneg
    exact h.waits t hreg hneg
  | connect =>
    rw [sent_concat_other (by simp)] at hneg
    by_cases hta : t = us.allocated
    · rw [hta, h.silent _ le_rfl] at hneg
      exact absurd hneg not_pending_nil
    · have hident : us.connect.ident t = us.ident t := Users.ident_setIdent_ne us _ hta
      rw [hident] at hreg ⊢
      exact h.waits t hreg hneg
  | ignore hnone =>
    rw [sent_concat_other fun raw msg he hmsg => by simp [← (Event.line.inj he).2, hnone] at hmsg]
      at hneg
    exact h.waits t hreg hneg
  | @command s raw msg hc hmsg =>
    by_cases hts : t = s
    · subst hts
      rw [sent_concat_line hmsg] at hneg
      exact h.command hreg hneg
    · rw [sent_concat_other fun raw' msg' he _ => hts (Event.line.inj he).1.symm] at hneg
      rw [(Users.moves_command us s msg).ident_ne hts] at hreg ⊢
      exact h.waits t hreg hneg
  | quit =>
    rw [sent_concat_other (by simp)] at hneg
    rw [Users.state_quit] at hreg ⊢
    exact h.waits t hreg hneg

theorem waits_after (hv : (ircd env).Valid es) : Waits es ((ircd env).after es).srv.users := by
  refine (ircd env).invariant (I := fun es st => Waits es st.srv.users) (G := fun _ _ _ => True)
    ?_ ?_ hv fun _ _ _ => trivial
  · exact ⟨Base.init.sound, fun _ => .inl rfl, fun _ _ => rfl,
      fun _ _ hneg => absurd hneg not_pending_nil⟩
  · intro es e h hen _
    have hs := users_step hen env
    exact ⟨h.sound.step hs, h.valid.step hs, fun t => h.silent_step hs,
      fun t => h.waits_step hs⟩

/-- **What a session that is registered by an event has sent before.** -/
theorem lawful_of_registers (h : Waits es st.srv.users) (hen : e.enabled st)
    (hreg : Registers env s st e) : Lawful env s es st e := by
  have hs := users_step hen env
  obtain ⟨raw, msg, rfl, hmsg, hcomp⟩ := (hs.registered_or hreg.2).resolve_left hreg.1
  have husers : ((ircd env).step st (.line s raw)).srv.users = st.srv.users.command s msg :=
    (handleLine_effect hmsg s env st).users
  have hident (f : Ident → Bytes) : f (((ircd env).step st (.line s raw)).srv.users.ident s) =
      f ((st.srv.users.command s msg).ident s) := by rw [husers]
  have hafter : ((st.srv.users.command s msg).ident s).state = .registered :=
    husers ▸ hreg.2
  obtain ⟨hnick, hfree⟩ := (Users.moves_command st.srv.users s msg).free hreg.1 hafter
  refine ⟨⟨raw, msg, rfl, hmsg⟩, ?_, ?_, ?_, ?_⟩
  · have hn : (((ircd env).step st (.line s raw)).srv.session s).nick ≠ [] :=
      fun he => hnick ((hident Ident.nick).symm.trans he)
    exact ⟨hn, ((h.valid.step hs) s).resolve_left hn⟩
  · intro he
    have huser := Users.user_command_of_completes hcomp
    rw [← hident Ident.user] at huser
    exact hcomp.user_ne (huser.symm.trans he)
  · rw [sent_concat_line hmsg]
    intro hneg
    rcases hcomp.closed with hend | ⟨hpre, hnot⟩
    · rcases pending_concat.1 hneg with hopens | ⟨-, hne⟩
      · exact hend.not_opens hopens
      · exact hne hend
    · rcases pending_concat.1 hneg with hopens | ⟨hlog, -⟩
      · exact hnot hopens
      · have hcap := h.waits s hreg.1 hlog
        rw [hpre] at hcap
        cases hcap
  · have hn : (((ircd env).step st (.line s raw)).srv.session s).nick =
        ((st.srv.users.command s msg).ident s).nick := hident Ident.nick
    rw [hn]
    exact hfree

theorem registered_of_isPrefix {es' : List Event} (hv : (ircd env).Valid es) (hpre : es' <+: es)
    (h : ((ircd env).after es').Registered s) : ((ircd env).after es).Registered s := by
  induction es using List.reverseRecOn with
  | nil =>
    obtain rfl := prefix_nil.1 hpre
    exact h
  | append_singleton es e ih =>
    obtain ⟨hv, hen⟩ := (ircd env).each_concat.1 hv
    rcases prefix_concat_iff.1 hpre with rfl | hpre
    · exact h
    · rw [after_concat]
      exact ((users_step hen env).registered (base_after env hv).sound (ih hv hpre)).1

theorem registrations_length (hv : (ircd env).Valid es) :
    (registrations env s es).length ≤ 1 ∧
      (¬ ((ircd env).after es).Registered s → registrations env s es = []) := by
  induction es using List.reverseRecOn with
  | nil => exact ⟨Nat.zero_le _, fun _ => rfl⟩
  | append_singleton es e ih =>
    obtain ⟨hv', hen⟩ := (ircd env).each_concat.1 hv
    obtain ⟨hle, hnil⟩ := ih hv'
    have hconcat : registrations env s (es ++ [e]) = registrations env s es ++
        if Registers env s ((ircd env).after es) e then [e] else [] :=
      (ircd env).collect_concat _ es e
    rw [hconcat]
    split
    · rename_i hreg
      rw [hnil hreg.1, after_concat]
      exact ⟨by simp, fun hnot => absurd hreg.2 hnot⟩
    · rw [append_nil]
      exact ⟨hle, fun hnot => hnil fun hreg =>
        hnot (registered_of_isPrefix hv (prefix_append es [e]) hreg)⟩

/-- Session `s` has sent a `QUIT`. -/
def HasQuit (s : SessionId) (es : List Event) : Prop :=
  ∃ m ∈ sent s es, verbOf (toUpper m.command) = some .QUIT

instance (s : SessionId) (es : List Event) : Decidable (HasQuit s es) :=
  inferInstanceAs (Decidable (∃ _ ∈ _, _))

/-- The event comes of a message of session `s`: it is one, or the disconnect after a `QUIT`. -/
def Caused (s : SessionId) (es : List Event) : Event → Prop
  | .line t _ => t = s
  | .disconnect t => t = s ∧ HasQuit s es
  | .connect _ _ _ => False

theorem not_registers_disconnect (hen : (Event.disconnect t).enabled st) :
    ¬ Registers env s st (.disconnect t) := by
  rintro ⟨hnot, hreg⟩
  obtain ⟨raw, msg, he, -⟩ := ((users_step hen env).registered_or hreg).resolve_left hnot
  cases he

/-- **Registration is a state machine.** A session is registered at most once and for good, and only
lawfully. Before that, nobody else notices what comes of its messages, but for the one that registers
it, if nobody goes by its nick or watches for it whenever it disconnects after a `QUIT`; and somebody
does if somebody goes by it. -/
theorem registration_lawful (env : Env) {es : List Event} (hv : (ircd env).Valid es)
    (s : SessionId) :
    (registrations env s es).length ≤ 1 ∧
      (∀ es', es' <+: es → ((ircd env).after es').Registered s →
        ((ircd env).after es).Registered s) ∧
      (ircd env).Each (fun es' st e => Registers env s st e → Lawful env s es' st e) es ∧
      ((ircd env).Each (fun es' st e => e = .disconnect s → HasQuit s es' → ¬ st.Registered s →
          NickUnused st.srv s ∧ NickUnwatched st.srv s) es →
        (ircd env).Each (fun es' st e => Caused s es' e → ¬ st.Registered s →
          ¬ Registers env s st e → Alone s st ((ircd env).step st e)) es) ∧
      ((ircd env).Each (fun es' st e => Caused s es' e → ¬ st.Registered s →
          ¬ Registers env s st e → Alone s st ((ircd env).step st e)) es →
        (ircd env).Each (fun es' st e => e = .disconnect s → HasQuit s es' → ¬ st.Registered s →
          NickUnused st.srv s) es) := by
  have hvalid {es' : List Event} {e : Event} (hpre : es' ++ [e] <+: es) :
      (ircd env).Valid es' ∧ e.enabled ((ircd env).after es') :=
    (ircd env).each_concat.1 fun es'' e' h => hv es'' e' (h.trans hpre)
  refine ⟨(registrations_length hv).1, fun es' hpre => registered_of_isPrefix hv hpre, ?_, ?_, ?_⟩
  · intro es' e hpre hreg
    obtain ⟨hv', hen⟩ := hvalid hpre
    exact lawful_of_registers (waits_after hv') hen hreg
  · intro hall es' e hpre hcaused hnot hreg
    obtain ⟨hv', -⟩ := hvalid hpre
    cases e with
    | connect => exact hcaused.elim
    | line t raw =>
      obtain rfl : t = s := hcaused
      exact (handleLine_modest t env ((ircd env).after es') raw hnot).resolve_left
        fun h => hreg ⟨hnot, h⟩
    | disconnect t =>
      obtain ⟨rfl, hquit⟩ := hcaused
      obtain ⟨hunused, hwatch⟩ := hall es' _ hpre rfl hquit hnot
      exact (disconnect_alone (base_after env hv').keyed).1 hunused hwatch
  · rintro hall es' e hpre rfl hquit hnot
    obtain ⟨hv', hen⟩ := hvalid hpre
    exact (disconnect_alone (base_after env hv').keyed).2
      (hall es' _ hpre ⟨rfl, hquit⟩ hnot (not_registers_disconnect hen))

end

section
attribute [local instance] asciiTables

/-- A client sends all that registration needs within a negotiation, after another has begun to
watch for its nick. -/
def negotiatedRegistration : List Event :=
  registration 0 (lit "alice") ++
    [.line 0 (lit "MONITOR + bob"), .connect (lit "192.0.2.2:50000") false [],
      .line 1 (lit "CAP LS 302"), .line 1 (lit "NICK bob"), .line 1 (lit "USER bob 0 * :Bob"),
      .line 1 (lit "JOIN #a")]

/-- A third client sends a nick that nobody goes by, and leaves. -/
def leftEarly : List Event :=
  negotiatedRegistration ++ [.line 1 (lit "CAP END"), .connect (lit "192.0.2.3:50000") false [],
    .line 2 (lit "NICK carol"), .line 2 (lit "QUIT :bye")]

theorem registration_lawful_negotiated :
    let st := (ircd (Config.still {})).after negotiatedRegistration
    let st' := (ircd (Config.still {})).after leftEarly
    Registers (Config.still {}) 1 st (.line 1 (lit "CAP END")) ∧
      Lawful (Config.still {}) 1 negotiatedRegistration st (.line 1 (lit "CAP END")) ∧
      (st'.srv.session 2).nick = lit "carol" ∧
      Alone 2 st' ((ircd (Config.still {})).step st' (.disconnect 2)) := by
  have hreg : Registers (Config.still {}) 1
      ((ircd (Config.still {})).after negotiatedRegistration) (.line 1 (lit "CAP END")) := by
    decide +kernel
  have hv : (ircd (Config.still {})).Valid (leftEarly ++ [.disconnect 2]) := by decide +kernel
  have hquit : (ircd (Config.still {})).Each (fun es' st e => e = .disconnect 2 → HasQuit 2 es' →
      ¬ st.Registered 2 → NickUnused st.srv 2 ∧ NickUnwatched st.srv 2)
      (leftEarly ++ [.disconnect 2]) := by
    decide +kernel
  have hlawful := registration_lawful (Config.still {}) hv
  refine ⟨hreg, (hlawful 1).2.2.1 _ _ ?_ hreg, by decide +kernel, ?_⟩
  · exact ⟨leftEarly.drop (negotiatedRegistration.length + 1) ++ [.disconnect 2], by rfl⟩
  · exact (hlawful 2).2.2.2.1 hquit _ _ prefix_rfl ⟨rfl, by decide +kernel⟩ (by decide +kernel)
      (by decide +kernel)

/-- A client with the nick of a user leaves: the user is no longer in the registry, nor in its
channel. -/
theorem not_alone_contested :
    let es := contestedNick ++ [.line 0 (lit "QUIT")]
    let st := (ircd (Config.still {})).after es
    (ircd (Config.still {})).Valid (es ++ [.disconnect 0]) ∧ Caused 0 es (.disconnect 0) ∧
      ¬ st.Registered 0 ∧ ¬ Registers (Config.still {}) 0 st (.disconnect 0) ∧
      ¬ Alone 0 st ((ircd (Config.still {})).step st (.disconnect 0)) := by
  refine ⟨by decide +kernel, ⟨rfl, by decide +kernel⟩, by decide +kernel, by decide +kernel,
    fun h => ?_⟩
  have hlost := congrArg (AList.lookup (lit "alice")) h.sessions
  revert hlost
  decide +kernel

end

end Irc
