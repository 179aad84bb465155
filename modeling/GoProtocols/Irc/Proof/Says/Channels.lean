import GoProtocols.Irc.Proof.Modes
import GoProtocols.Irc.Proof.Says.Handshake

/-!
# What the channel commands send

`JOIN`, `PART`, `TOPIC`, `NAMES`, `LIST`, `KICK`, `INVITE` and `MODE` send legible messages if what
they echo and mention fits. `JOIN` and `PART` go through a list of channels, and what they do to one
does not spoil the next (`Phase.joining`, `Phase.parting`).
-/

namespace Irc

open Go Prog List

theorem nameLines_flatten (line : List Bytes) (lineLen : Nat) (names : List Bytes) :
    (nameLines line lineLen names).flatten = line ++ names := by
  induction names generalizing line lineLen with
  | nil =>
    unfold nameLines
    split
    · simp [*]
    · simp
  | cons n names ih =>
    unfold nameLines
    split
    · rw [flatten_cons, ih, singleton_append]
    · rw [ih, append_assoc, singleton_append]

section
variable [UnicodeTables] {env : Env} {srv : Server} {s : SessionId} {msg : Message} {ch : Channel}
  {chanName : Bytes} (ht : Middle (srv.session s).target)

/-! ## Names -/

omit [UnicodeTables] in
theorem fit_mentionsOfNames {u : Session} : Fit (mentionsOfNames srv u ch) ↔
    Middle ch.name ∧ ch.members.All fun _ m => Ended (shownName srv u m) := by
  simp [mentionsOfNames, Map.All]

section
include ht

theorem says_sendNames (h : Fit (mentionsOfNames srv (srv.session s) ch)) :
    Says env (.at srv) (sendNames s ch) := by
  obtain ⟨hname, hmembers⟩ := fit_mentionsOfNames.1 h
  refine Says.server (says_memberList.bind fun members hlist => .seq (.forM fun line hline => ?_)
    fun _ => says_refusal ht hname (by decide))
  refine says_sendNumeric ht (.cons (by decide) (.cons hname (.single (.join (by decide) ?_))))
  intro name hmem
  have hflat := mem_flatten.2 ⟨line, hline, hmem⟩
  rw [nameLines_flatten, nil_append] at hflat
  obtain ⟨m, hm, rfl⟩ := mem_map.1 hflat
  obtain ⟨e, he, rfl⟩ := hlist m hm
  exact hmembers e he

theorem says_handleNames (h : Fit (mentionsNames srv s msg)) :
    Says env (.at srv) (handleNames s msg) := by
  have hall := fit_flatMap.1 h
  refine Says.server (.ite (fun hnil => ?_) fun hne => ?_)
  · rw [if_pos hnil] at hall
    refine says_allChannels.bind fun channels hchannels => .forM fun ch hch => .when fun hmem => ?_
    exact says_sendNames ht (hall _ (mem_filter.2 ⟨mem_map_of_mem (hchannels ch hch), hmem⟩))
  · rw [if_neg hne] at hall
    exact .forM fun name hname => .elim (fun _ => .pure trivial) fun ch hch =>
      says_sendNames ht (hall ch (mem_filterMap.2 ⟨name, hname, hch⟩))

/-! ## JOIN -/

theorem says_sendTopic (hname : Middle chanName) (h : Fit (mentionsOfTopic ch)) :
    Says env (.at srv) (sendTopic s chanName ch) := by
  refine .ite (fun _ => says_refusal ht hname (by decide)) fun htopic => ?_
  rw [mentionsOfTopic, if_neg htopic] at h
  simp only [fit_cons, fits_last, fits_word] at h
  refine (says_refusal ht hname h.1).seq fun _ => ?_
  exact says_sendNumeric ht (.cons hname (.cons h.2.1 (.single (word_formatInt _).ended)))

/-- What a session brings to a channel fits. -/
structure Joins (srv : Server) (s : SessionId) : Prop where
  source : 32 ∉ (srv.session s).source.string
  account : Middle (if (srv.session s).account = [] then lit "*" else (srv.session s).account)
  realname : Ended (srv.session s).realname

theorem says_announceJoin (hs : Joins srv s) (hname : Word chanName) (htopic : Fit (mentionsOfTopic ch))
    (hnames : Fit (mentionsOfNames srv (srv.session s) ch)) :
    Says env (.at srv) (announceJoin s chanName ch) := by
  refine Says.server (says_reads.seq fun members => ?_)
  refine .seq (.forM fun m _ => says_send (legible_user hs.source (.word_cons hname ?_))) fun _ =>
    (says_sendTopic ht hname.toMiddle htopic).seq fun _ => .when fun _ => says_sendNames ht hnames
  split
  · exact .cons hs.account (.single hs.realname)
  · exact .nil

end

/-- What the channel would have to be announced with fits, unless the session is in it. -/
def Joinable (srv : Server) (s : SessionId) (ch : Channel) : Prop :=
  ch.hasMember (srv.session s).nick = true ∨
    Fit (mentionsOfTopic ch) ∧ Fit (mentionsOfNames srv (srv.session s) ch)

/-- The sessions are those of `srv`, and the channels of these names can be joined. -/
def Phase.joining (srv : Server) (s : SessionId) (names : List Bytes) : Phase :=
  ⟨fun srv' => srv'.session = srv.session ∧
    ∀ name ∈ names, ∀ ch, srv'.getChannel name = some ch → Joinable srv s ch⟩

section
variable {names : List Bytes} (hname : Middle chanName) (hmem : chanName ∈ names)
include hname hmem

theorem says_getOrCreate :
    Says env (.joining srv s names) (getOrCreate chanName) (Joinable srv s) := by
  refine says_server.bind fun srv' hsrv' => .elim (fun _ => says_reads.seq fun at_ => ?_) fun ch hch =>
    .pure (hsrv'.2 chanName hmem ch hch)
  have hnew : Joinable srv s { name := chanName, createdAt := at_ } := .inr <| by
    simp only [mentionsOfTopic, mentionsOfNames, if_true, fit_nil, fit_cons, fits_word, hname, true_and]
    exact fit_nil
  refine .seq (says_updateServer fun srv'' hsrv'' => ⟨hsrv''.1, ?_⟩) fun _ => .pure hnew
  intro name hname' ch hch
  rw [Server.getChannel, Map.lookup_insert_eq] at hch
  split at hch
  · exact Option.some.inj hch ▸ hnew
  · exact hsrv''.2 name hname' ch hch

theorem says_joinChannel (ht : Middle (srv.session s).target) (hs : Joins srv s)
    (hown : Ended (shownName srv (srv.session s) ⟨s, []⟩)) (hended : Ended chanName) (key : Bytes) :
    Says env (.joining srv s names) (joinChannel s chanName key) := by
  have hrefuse {n : Numeric} {text : Bytes} (htext : Ended text) :
      Says env (.joining srv s names) (sendNumeric s n [chanName, text]) :=
    Says.at fun srv' hsrv' => says_refusal (by rwa [hsrv'.1]) hname htext
  refine says_server.bind fun srv' hsrv' => .ite (fun _ => .pure trivial) fun _ => ?_
  rw [hsrv'.1]
  refine .ite (fun _ => hrefuse (by decide)) fun _ => (says_getOrCreate hname hmem).bind fun ch hch => ?_
  refine .ite (fun _ => hrefuse (by decide)) fun _ => .ite (fun _ => hrefuse (by decide)) fun _ =>
    .ite (fun _ => hrefuse (by decide)) fun _ => .ite (fun _ => .pure trivial) fun hnot => ?_
  obtain ⟨htopic, hnames⟩ := hch.resolve_left hnot
  have hstatus : Ended (shownName srv (srv.session s)
      ⟨s, if ch.members.entries = [] then lit "@" else []⟩) := by
    unfold shownName at hown ⊢
    refine .append ?_ (by simpa [shownStatus] using hown)
    unfold shownStatus
    dsimp only
    split <;> split <;> decide
  obtain ⟨hchan, hmembers⟩ := fit_mentionsOfNames.1 hnames
  refine .seq (says_updateServer fun srv'' hsrv'' => ?_) fun _ =>
    Says.at fun srv'' hsrv'' => says_announceJoin (by rwa [hsrv''.1]) ?_
      { hname with ended := hended } htopic (fit_mentionsOfNames.2 ⟨hchan, ?_⟩)
  · -- the channel under this key now has the session in it
    unfold Server.setChannel
    split
    · exact hsrv''
    · refine ⟨hsrv''.1, fun name hname' ch' hch' => ?_⟩
      rw [Server.getChannel, Map.lookup_insert_eq] at hch'
      split at hch'
      · refine .inl (Option.some.inj hch' ▸ ?_)
        simp [Channel.hasMember, Channel.getMembership, Channel.addMember]
      · exact hsrv''.2 name hname' ch' hch'
  · exact ⟨by rw [hsrv''.1]; exact hs.source, by rw [hsrv''.1]; exact hs.account,
      by rw [hsrv''.1]; exact hs.realname⟩
  · have hshown : shownName srv'' (srv''.session s) = shownName srv (srv.session s) := by
      funext m
      simp only [shownName, hsrv''.1]
    rw [hshown]
    exact hmembers.insert hstatus

end

section
include ht

theorem says_handleJoin (h : Fit (mentionsJoin srv s msg)) :
    Says env (.joining srv s ((split (msg.param 0) 44).filter (· ≠ []))) (handleJoin s msg) := by
  simp only [mentionsJoin, cons_append, nil_append, fit_cons, fits_source, fits_word, fits_last,
    fit_flatMap] at h
  obtain ⟨hsource, haccount, hreal, hown, hnames⟩ := h
  refine .ite (fun _ => ?_) fun _ => .forM fun c hc => ?_
  · exact Says.at fun srv' hsrv' =>
      says_refusal (by rwa [hsrv'.1]) (Verb.word _).toMiddle (by decide)
  · by_cases hnil : c.1 = []
    · unfold joinChannel
      exact says_server.seq fun _ => .ite (fun _ => .pure trivial) fun hne => absurd hnil hne
    · have hname : c.1 ∈ (split (msg.param 0) 44).filter (· ≠ []) :=
        mem_filter.2 ⟨fst_mem_of_mem_zipIdx hc, by simpa using hnil⟩
      obtain ⟨hword, hlast, -⟩ := hnames _ hname
      exact says_joinChannel hword hname ht ⟨hsource, haccount, hreal⟩ hown hlast _

omit ht in
/-- The phase holds to begin with. -/
theorem Phase.joining_self (h : Fit (mentionsJoin srv s msg)) :
    (Phase.joining srv s ((split (msg.param 0) 44).filter (· ≠ []))).holds srv := by
  refine ⟨rfl, fun name hname ch hch => .inr ?_⟩
  have hnames := fit_flatMap.1 (fit_append.1 h).2 name hname
  exact fit_append.1 (fit_flatMap.1 (fit_cons.1 (fit_cons.1 hnames).2).2 ch (by simp [hch]))

/-! ## PART and KICK -/

def Phase.parting (srv : Server) : Phase := ⟨fun srv' => srv'.session = srv.session⟩

omit [UnicodeTables] ht in
theorem Server.removeMember_session [UnicodeTables] (srv : Server) (key name nick : Bytes) :
    (srv.removeMember key name nick).session = srv.session := by
  unfold Server.removeMember
  split
  · rfl
  · dsimp only
    split <;> rfl

theorem says_partChannel {reason : Bytes} (hsource : 32 ∉ (srv.session s).source.string)
    (hreason : Ended reason) (hname : Word chanName) :
    Says env (.parting srv) (partChannel s reason chanName) := by
  have hrefuse {n : Numeric} {text : Bytes} (htext : Ended text) :
      Says env (.parting srv) (sendNumeric s n [chanName, text]) :=
    Says.at fun srv' hsession => says_refusal (by rwa [show srv'.session = _ from hsession])
      hname.toMiddle htext
  refine says_server.bind fun srv' hsession => .elim (fun _ => hrefuse (by decide)) fun ch _ =>
    .ite (fun _ => hrefuse (by decide)) fun _ => ?_
  rw [show srv'.session = srv.session from hsession]
  refine (says_broadcast (legible_user hsource (.word_cons hname ?_))).seq fun _ =>
    says_updateServer fun srv' hsession => (Server.removeMember_session ..).trans hsession
  split
  · exact .single hreason
  · exact .nil

theorem says_handlePart (h : Fit (mentionsPart srv s msg)) :
    Says env (.parting srv) (handlePart s msg) := by
  simp only [mentionsPart, fit_cons, fit_flatMap, fits_source, fits_word, fits_last] at h
  obtain ⟨hsource, hreason, hnames⟩ := h
  refine .ite (fun _ => ?_) fun hne => .forM fun name hname => ?_
  · exact Says.at fun srv' hsession => says_refusal (by rwa [show srv'.session = _ from hsession])
      (Verb.word _).toMiddle (by decide)
  · have htarget : msg.target.flatMap (split · 44) = split (msg.param 0) 44 := by
      obtain ⟨p, ps, hparams⟩ := exists_cons_of_ne_nil hne
      simp [Message.target, Message.param, hparams]
    obtain ⟨hword, hlast, -⟩ := hnames name (htarget ▸ hname)
    exact says_partChannel ht hsource hreason { hword with ended := hlast }

theorem tells_handleKick (hmsg : msg.Spelled) (h : Fit (mentionsKick srv s msg)) :
    Tells env srv (handleKick s msg) := by
  simp only [mentionsKick, cons_append, nil_append, fit_cons, fit_flatMap, fits_source, fits_last] at h
  obtain ⟨hsource, hreason, htargets⟩ := h
  refine .ite (fun _ => ?_) fun hlen => .server ?_
  · exact (says_refusal ht (Verb.word _).toMiddle (by decide)).tells rfl
  rw [not_lt] at hlen
  have hname : Middle (msg.param 0) := hmsg.middle_param hlen
  have hrefuse {n : Numeric} {text : Bytes} (htext : Ended text) :
      Tells env srv (sendNumeric s n [msg.param 0, text]) := (says_refusal ht hname htext).tells rfl
  refine .elim (fun _ => hrefuse (by decide)) fun ch hch => .elim (fun _ => hrefuse (by decide))
    fun m hm => .ite (fun _ => hrefuse (by decide)) fun hop => ?_
  rw [not_not] at hop
  have htarget : Middle (msg.param 1) := by
    have hfit := htargets ch (by simp [hch])
    rw [hm, if_pos (by simpa using hop)] at hfit
    exact (fit_cons.1 hfit).1
  refine .ite (fun _ => ?_) fun _ => .seq (says_broadcast (legible_user hsource ?_)) fun _ =>
    tells_updateServer
  · exact (says_sendNumeric ht (.cons htarget (.cons hname (.single (by decide))))).tells rfl
  · exact .cons hname (.cons htarget (.single hreason))

/-! ## TOPIC, LIST and INVITE -/

theorem tells_handleTopic (h : Fit (mentionsTopic srv s msg)) :
    Tells env srv (handleTopic s msg) := by
  simp only [mentionsTopic, cons_append, nil_append, fit_cons, fit_append, fit_flatMap, fits_source,
    fits_last] at h
  obtain ⟨hsource, hlast, htarget, htopic⟩ := h
  refine .ite (fun _ => ?_) fun hne => .server ?_
  · exact (says_refusal ht (Verb.word _).toMiddle (by decide)).tells rfl
  have hname := middle_first htarget hne
  have hrefuse {n : Numeric} {text : Bytes} (htext : Ended text) :
      Tells env srv (sendNumeric s n [msg.param 0, text]) := (says_refusal ht hname htext).tells rfl
  refine .elim (fun _ => hrefuse (by decide)) fun ch hch => .ite (fun _ => hrefuse (by decide)) fun _ =>
    .ite (fun _ => ?_) fun _ => .ite (fun _ => hrefuse (by decide)) fun _ => .seq says_reads fun at_ =>
    .update ?_
  · exact (says_sendTopic ht hname (htopic ch (by simp [hch]))).tells rfl
  · exact (says_broadcast (p := .at _) (legible_user hsource (.cons hname (.single hlast)))).tells rfl

theorem says_handleList (h : Fit (mentionsList srv s)) : Says env (.at srv) (handleList s msg) := by
  refine Says.server (.seq (says_refusal ht (by decide) (by decide)) fun _ => ?_)
  refine says_allChannels.bind fun channels hchannels => .seq (.forM fun ch hch => .when fun hseen => ?_)
    fun _ => says_text ht (by decide)
  have hfit := fit_flatMap.1 h ch (mem_filter.2 ⟨hchannels ch hch, by simpa using hseen⟩)
  simp only [fit_cons, fits_word, fits_last] at hfit
  exact says_sendNumeric ht (.cons hfit.1 (.cons (word_itoa _).toMiddle (.single hfit.2.1)))

theorem says_handleInvite (hmsg : msg.Spelled) (h : Fit (mentionsInvite srv s msg)) :
    Says env (.at srv) (handleInvite s msg) := by
  simp only [mentionsInvite, cons_append, nil_append, fit_cons, fits_source, fits_last] at h
  obtain ⟨hsource, hlast, hchannel⟩ := h
  refine .ite (fun _ => ?_) fun hlen => Says.server ?_
  · exact says_refusal ht (Verb.word _).toMiddle (by decide)
  rw [not_lt] at hlen
  have htarget : Middle (msg.param 0) := hmsg.middle_param hlen
  have hinvite := legible_user (v := .INVITE) hsource (.cons htarget (.single hlast))
  refine .elim (fun _ => says_refusal ht htarget (by decide)) fun dest _ => .ite (fun hany => ?_)
    fun _ => (says_refusal ht htarget hlast).seq fun _ => (says_send hinvite).seq fun _ =>
    .elim (fun _ => .pure trivial) fun ch _ => says_reads.seq fun members =>
    .forM fun m _ => .when fun _ => says_send hinvite
  obtain ⟨ch, hch, -⟩ := (Option.any_eq_true _ _).1 hany
  exact says_refusal ht (fit_map.1 hchannel ch (by simp [hch])) (by decide)

end

/-! ## MODE -/

omit [UnicodeTables] in
theorem says_modeString {p : Phase} {modes : ModeSet} (h : Fit modes.mentions) :
    Says env p (modeString modes) Ended := by
  refine says_rangeOver.bind fun flags hflags => says_rangeOver.bind fun args hargs => .pure ?_
  simp only [ModeSet.mentions, fit_append, fit_map, fit_flatMap, fit_cons, fits_last] at h
  have hflatMap {α : Type} (l : List α) (f : α → Bytes) (hl : ∀ a ∈ l, Ended (f a)) :
      Ended (l.flatMap f) := by
    induction l with
    | nil => simp [Ended]
    | cons a l ih => exact (hl a (by simp)).append (ih (forall_mem_cons.1 hl).2)
  have hflag : Ended (flags.flatMap fun f => encodeRune f.1) :=
    hflatMap _ _ fun f hf => h.1 f (hflags.mem_iff.1 hf)
  have harg : Ended (args.flatMap fun a => encodeRune a.1) :=
    hflatMap _ _ fun a ha => (h.2 a (hargs.mem_iff.1 ha)).1
  have hvalues : Ended (join (args.map Sigma.snd) (lit " ")) :=
    .join (by decide) (forall_mem_map.2 fun a ha => (h.2 a (hargs.mem_iff.1 ha)).2.1)
  have hplus : Ended (lit "+") := by decide
  unfold ModeSet.string
  refine ((hplus.append hflag).append harg).append ?_
  split
  · simp [Ended]
  · exact .append (by decide) hvalues

section
variable (hmsg : msg.Spelled) (hsource : 32 ∉ (srv.session s).source.string)
  (hargs : ∀ a ∈ msg.params.drop 2, Ended a) {target : Bytes} (htarget : Middle target)
include ht hmsg hsource hargs htarget

theorem tells_handleChannelMode
    (h : ∀ ch, srv.getChannel target = some ch → Fit (if msg.params.length < 2 then ch.modes.mentions
      else (ch.modes.list ((msg.param 1).headD 0).toNat).map .last)) :
    Tells env srv (handleChannelMode s msg target) := by
  have hrefuse {n : Numeric} {text : Bytes} (htext : Ended text) :
      Tells env srv (sendNumeric s n [target, text]) := (says_refusal ht htarget htext).tells rfl
  refine .server (.elim (fun _ => hrefuse (by decide)) fun ch hch => .ite (fun hshort => ?_) fun hlong =>
    .ite (fun _ => ?_) fun _ => .elim (fun _ => hrefuse (by decide)) fun m _ =>
    .ite (fun _ => hrefuse (by decide)) fun _ => .update ?_)
  · have hmodes := h ch hch
    rw [if_pos hshort] at hmodes
    exact .bind (says_modeString hmodes) fun text htext => .seq (says_refusal ht htarget htext)
      fun _ => hrefuse (word_formatInt _).ended
  · have hlist := h ch hch
    rw [if_neg hlong, fit_map] at hlist
    exact .seq (.forM fun entry hentry => says_refusal ht htarget (hlist entry hentry)) fun _ =>
      hrefuse (by decide)
  · obtain ⟨applied, happ, hreported⟩ :=
      applyChannelModes_reported (parseModeString (msg.param 1) (msg.params.drop 2)) ch []
    rw [nil_append] at happ
    refine Says.tells (p := .at _) (.when fun hne => says_broadcast (legible_user hsource ?_)) rfl
    rw [happ] at hne ⊢
    exact readable_modeParams htarget hmsg.params hargs hne hreported

end

section
variable (hmsg : msg.Spelled)
include ht hmsg

theorem tells_handleUserMode {target : Bytes} (hsource : 32 ∉ (srv.session s).source.string)
    (hargs : ∀ a ∈ msg.params.drop 2, Ended a)
    (h : equalFold target (srv.session s).nick ∨ (srv.session s).isOper → Middle target ∧
      ∀ dest, srv.getSession target = some dest → msg.params.length < 2 →
        Fit (srv.session dest).modes.mentions) : Tells env srv (handleUserMode s msg target) := by
  refine .server (.ite (fun _ => (says_text ht (by decide)).tells rfl) fun hself => ?_)
  rw [not_and_or, not_not, not_not] at hself
  obtain ⟨hmiddle, hmodes⟩ := h hself
  refine .elim (fun _ => ?_) fun dest hdest => .ite (fun hshort => ?_) fun _ => .update ?_
  · exact (says_refusal ht hmiddle (by decide)).tells rfl
  · exact .bind (says_modeString (hmodes dest hdest hshort)) fun text htext =>
      (says_text ht htext).tells rfl
  · refine Says.tells (p := .at _) (.when fun hne => says_send (legible_user hsource ?_)) rfl
    exact readable_modeParams hmiddle hmsg.params hargs hne (apply_reported userValidator_plain _ _)

theorem tells_handleMode (h : Fit (mentionsMode srv s msg)) : Tells env srv (handleMode s msg) := by
  simp only [mentionsMode, fit_cons, fit_append, fit_map, fits_source, fits_last] at h
  obtain ⟨⟨hsource, hargs⟩, hmodes⟩ := h
  refine .ite (fun _ => ?_) fun hne => .ite (fun hchan => ?_) fun hchan => ?_
  · exact (says_refusal ht (Verb.word _).toMiddle (by decide)).tells rfl
  · rw [if_pos hchan, fit_append, fit_flatMap] at hmodes
    exact tells_handleChannelMode ht hmsg hsource hargs (middle_first hmodes.1 hne) fun ch hch =>
      hmodes.2 ch (by simp [hch])
  · rw [if_neg hchan] at hmodes
    refine tells_handleUserMode ht hmsg hsource hargs fun hself => ?_
    rw [if_pos hself, fit_append, fit_flatMap] at hmodes
    refine ⟨middle_first hmodes.1 hne, fun dest hdest hshort => ?_⟩
    have hfit := hmodes.2 dest (by simp [hdest])
    rwa [if_pos hshort] at hfit

end

end

end Irc
