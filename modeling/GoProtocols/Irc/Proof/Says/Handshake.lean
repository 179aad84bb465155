import GoProtocols.Irc.Proof.Says

/-!
# What the handshake sends

`PASS`, `NICK`, `USER`, `CAP` and `AUTHENTICATE`, with the notifications that they cause, as far as
they do not complete the handshake: the replies to a session that has registered cannot all be read.
-/

namespace Irc

open Go Prog List

theorem Capability.word (cap : Capability) : Word cap.name := by
  cases cap <;> decide

section
variable [UnicodeTables] {env : Env} {p : Phase} {srv : Server} {s t : SessionId} {msg : Message}
  {ch : Channel} {shared : Map SessionId (List Channel)}

/-! ## Notifications -/

instance (target : SessionId) (cap : Capability) :
    Within OnlyReads (extendedMonitorPeers target cap) := by
  unfold extendedMonitorPeers
  infer_instance

section
variable {κ : Type} [DecidableEq κ] {key : SessionId → κ} {cap : Capability}

theorem says_notifyPeer (h : Legible msg) (notified : List κ) (peer : SessionId) :
    Says env p (notifyPeer key cap msg notified peer) :=
  says_server.seq fun _ => .ite (fun _ => .pure trivial) fun _ => (says_send h).seq fun _ =>
    .pure trivial

theorem says_notifyPeers (h : Legible msg) (notified : List κ) :
    Says env p (notifyPeers key s cap msg notified) := by
  have hfold (peers : List SessionId) (notified : List κ) :
      Says env p (peers.foldlM (notifyPeer key cap msg) notified) :=
    .foldlM (fun notified peer _ _ => says_notifyPeer h notified peer) trivial
  unfold notifyPeers
  refine says_server.seq fun srv => says_reads.seq fun channels => ?_
  refine .seq (.foldlM (T := fun _ => True) (fun notified ch _ _ => ?_) trivial) fun notified => ?_
  · exact .ite (fun _ => says_reads.seq fun _ => hfold _ _) fun _ => .pure trivial
  · exact says_reads.seq fun peers => (hfold peers notified).seq fun _ => .pure trivial

end

theorem says_notifyAccount {source : Prefix} (hsource : 32 ∉ source.string)
    (haccount : Ended (srv.session s).account) : Says env (.at srv) (notifyAccount s source) := by
  have hmsg := legible_from hsource (known_verb .ACCOUNT) (.single haccount)
  exact Says.server (.seq (.when fun _ => says_send hmsg) fun _ => says_notifyPeers hmsg _)

/-- What the peers are told of a session with a new host can be read. -/
structure Rejoins (u : Session) : Prop where
  source : 32 ∉ u.source.string
  user : Middle u.user
  host : Ended u.host
  account : Middle u.account
  realname : Ended u.realname
  nick : Ended u.nick

theorem says_sendRejoin (hu : Rejoins (srv.session s)) (hname : Word ch.name) :
    Says env (.at srv) (sendRejoin s t ch) := by
  refine Says.server (.seq (says_send (legible_user hu.source (.word_cons hname ?_))) fun _ => ?_)
  · split
    · exact .cons hu.account (.single hu.realname)
    · exact .nil
  · refine .elim (fun _ => .pure trivial) fun m _ => .forM fun status hstatus => .when fun _ => ?_
    have hmode : statusModes.all (fun status => decide (Middle [43, status.2])) = true := by decide
    have hstatus := of_decide_eq_true (all_eq_true.1 hmode status hstatus)
    exact says_sendServer (.cons hname.toMiddle (.cons hstatus (.single hu.nick)))

omit [UnicodeTables] in
theorem shared_all (hname : Word ch.name) (members : List Membership)
    (h : shared.All fun _ chs => ∀ ch ∈ chs, Word ch.name) :
    (members.foldl (fun shared m =>
      if m.session = s then shared
      else shared.insert m.session ((shared.lookup m.session).getD [] ++ [ch])) shared).All
      fun _ chs => ∀ ch ∈ chs, Word ch.name := by
  refine foldlRecOn members _ h fun shared h m _ => ?_
  split
  · exact h
  · exact h.insert (forall_mem_append.2 ⟨h.getD (by simp) fun _ h => h,
      forall_mem_singleton.2 hname⟩)

theorem says_notifyHostChange (hu : Rejoins (srv.session s))
    (hnames : ∀ ch ∈ srv.channels.entries, ch.2.hasMember (srv.session s).nick → Word ch.2.name)
    {source : Prefix} (hsource : 32 ∉ source.string) :
    Says env (.at srv) (notifyHostChange s source) := by
  unfold notifyHostChange
  have hmsg := legible_from hsource (known_verb .CHGHOST) (.cons hu.user (.single hu.host))
  refine Says.server (.seq (.when fun _ => says_send hmsg) fun _ => ?_)
  refine says_allChannels.bind fun channels hchannels => ?_
  -- the shared channels are channels of the server
  refine .bind (.foldlM (T := Map.All fun _ shared => ∀ ch ∈ shared, Word ch.name)
    (fun shared ch hch hshared => ?_) Map.all_empty) fun shared hshared => ?_
  · refine .ite (fun hmem => says_reads.seq fun members => .pure ?_) fun _ => .pure hshared
    exact shared_all (hnames ch (hchannels ch hch) hmem) members hshared
  refine says_rangeOver.bind fun peers hpeers => ?_
  refine .seq (.forM fun peer hpeer => .ite (fun _ => says_send hmsg) fun _ => ?_) fun _ => ?_
  · refine .seq (says_send (legible_from hsource (known_verb .QUIT) (.single (by decide)))) fun _ => ?_
    exact .forM fun ch hch => says_sendRejoin hu (hshared peer (hpeers.mem_iff.1 hpeer) ch hch)
  · refine says_reads.seq fun watchers => ?_
    exact .seq (.foldlM (T := fun _ => True)
      (fun notified peer _ _ => says_notifyPeer hmsg notified peer) trivial) fun _ => .pure trivial

/-! ## The server's own texts -/

section
variable (ht : Middle (srv.session s).target)
include ht

theorem says_sendMOTD (h : Fit ((split env.cfg.motd 10).map .last)) :
    Says env (.at srv) (sendMOTD s) := by
  refine Says.config fun _ => .ite (fun _ => says_text ht (by decide)) fun _ => ?_
  refine .seq (says_text ht ((ended_append_iff (by decide)).2 (by decide))) fun _ => ?_
  refine .seq (.forM fun line hline => says_text ht ?_) fun _ => says_text ht (by decide)
  exact .append (by decide) (fit_map.1 h line hline)

theorem says_sendLusers : Says env (.at srv) (sendLusers s) := by
  unfold sendLusers
  refine Says.server (.seq (says_text ht ((ended_append_iff (by decide)).2 (by decide))) fun _ => ?_)
  refine .seq (says_refusal ht (word_itoa _).toMiddle (by decide)) fun _ => ?_
  exact says_text ht ((ended_append_iff (by decide)).2 (by decide))

/-! ## Registration -/

theorem tells_tryRegister (hnot : Users.Ready (srv.session s).ident →
    toLower (srv.session s).nick ∈ srv.sessions) : Tells env srv (tryRegister s) := by
  refine .server (.ite (fun _ => .pure ()) fun hreg => .ite (fun _ => .pure ()) fun hneg =>
    .ite (fun _ => .pure ()) fun hnames => .elim (fun _ => ?_) fun srv' hsrv' => ?_)
  · rw [not_or] at hnames
    refine .seq (says_refusal ht ?_ (by decide)) fun _ => tells_updateServer
    rwa [Session.target, if_neg hnames.1] at ht
  · have hstate : (srv.session s).state = .preReg := by
      cases hs : (srv.session s).state
      · rfl
      · exact absurd hs hneg
      · exact absurd hs hreg
    rw [not_or] at hnames
    have htaken : toLower (srv.session s).nick ∈ srv.sessions := hnot ⟨hstate, hnames⟩
    simp [Server.register, htaken] at hsrv'

theorem says_handlePass : Says env (.at srv) (handlePass s msg) :=
  Says.server (.when fun _ => says_text ht (by decide))

theorem tells_handleNick (hv : verbOf (toUpper msg.command) = some .NICK)
    (hnot : ¬ srv.users.Completes s msg) (h : Fit (msg.target.map .word)) :
    Tells env srv (handleNick s msg) := by
  refine .server (.ite (fun _ => ?_) fun hne => ?_)
  · exact (says_text ht (by decide)).tells rfl
  have hmiddle := middle_first h hne
  refine .ite (fun _ => ?_) fun hvalid => .ite (fun _ => ?_) fun _ => .update ?_
  · exact (says_refusal ht hmiddle (by decide)).tells rfl
  · exact (says_refusal ht hmiddle (by decide)).tells rfl
  rw [not_not] at hvalid
  have hnick := ne_nil_of_isValidNick hvalid
  refine tells_tryRegister ?_ ?_
  · simpa [Server.setSession, Session.target, hnick] using hmiddle
  · simp only [Server.setSession, Function.update_self, Session.ident]
    rintro ⟨hstate, -, huser⟩
    by_contra hfree
    refine hnot ?_
    simp only [Users.Completes, hv]
    obtain ⟨nick, params, hparams⟩ := exists_cons_of_ne_nil hne
    have hparam : msg.param 0 = nick := by simp [Message.param, hparams]
    rw [hparam] at hvalid hfree
    exact ⟨hstate, huser, nick, by simp [hparams], hvalid, hfree⟩

theorem tells_handleUser (hv : verbOf (toUpper msg.command) = some .USER)
    (hnot : ¬ srv.users.Completes s msg) : Tells env srv (handleUser s msg) := by
  refine .server (.ite (fun _ => ?_) fun hreg => .ite (fun _ => ?_) fun hlen => .update ?_)
  · exact (says_text ht (by decide)).tells rfl
  · exact (says_refusal ht (Verb.word _).toMiddle (by decide)).tells rfl
  rw [not_lt] at hlen
  refine tells_tryRegister ?_ ?_
  · simpa [Server.setSession, Session.target] using ht
  · simp only [Server.setSession, Function.update_self, Session.ident]
    rintro ⟨hstate, hnick, huser⟩
    by_contra hfree
    refine hnot ?_
    simp only [Users.Completes, hv]
    exact ⟨hstate, hlen, huser, hnick, hfree⟩

end

/-! ## Capabilities -/

theorem supportedCaps_ended (cfg : Config) (table : Map Bytes Account) (u : Session) :
    Map.All (fun cap value => Ended cap ∧ Ended value) (supportedCaps cfg table u) := by
  have hbase : Map.All (fun cap value => Ended cap ∧ Ended value)
      (Map.ofList (baseCaps.map fun c => (c.name, []))) :=
    Map.all_empty.insertAll (forall_mem_map.2 fun c _ => ⟨c.word.ended, by simp [Ended]⟩)
  have hsts (sts : STSConfig) (value : Bytes) (hvalue : stsValue sts u = some value) :
      Ended value := by
    have hnumber (n : Nat) (text : Bytes) : Ended (text ++ itoa n) :=
      (ended_append_iff (word_itoa n).nonempty).2 (word_itoa n).ended
    unfold stsValue at hvalue
    split at hvalue
    · cases hvalue
    split at hvalue
    · exact Option.some.inj hvalue ▸ hnumber _ _
    split at hvalue
    · rw [← Option.some.inj hvalue]
      refine (hnumber _ _).append ?_
      split <;> decide
    · cases hvalue
  have hsasl : Map.All (fun cap value => Ended cap ∧ Ended value)
      (if u.secure = true ∧ table.entries ≠ [] then
        (Map.ofList (baseCaps.map fun c => (c.name, []))).insert Capability.sasl.name (lit "PLAIN")
      else Map.ofList (baseCaps.map fun c => (c.name, []))) := by
    split
    · exact hbase.insert ⟨(Capability.word _).ended, by decide⟩
    · exact hbase
  unfold supportedCaps
  dsimp only
  split
  · rename_i value hvalue
    obtain ⟨sts, -, hvalue⟩ := Option.bind_eq_some_iff.1 hvalue
    exact hsasl.insert ⟨(Capability.word _).ended, hsts sts value hvalue⟩
  · exact hsasl

section
variable (ht : Middle (srv.session s).target) {f : Session → Session}
  (hf : ∀ u, (f u).nick = u.nick)
include ht hf

omit [UnicodeTables] in
theorem middle_target : Middle ((srv.setSession t f).session s).target := by
  by_cases he : s = t
  · subst he
    simpa [Server.setSession, Session.target, hf] using ht
  · simpa [Server.setSession, he] using ht

omit [UnicodeTables] in
/-- A change of a session but for its nick leaves the replies addressed as they were. -/
theorem Tells.update_session {α : Type} {k : Unit → M α}
    (h : ∀ srv', Middle (srv'.session s).target → Tells env srv' (k ())) :
    Tells env srv (updateSession t f >>= k) :=
  .update (h _ (middle_target ht hf))

end

section
variable (ht : Middle (srv.session s).target)
include ht

theorem says_sendCapLS : Says env (.at srv) (sendCapLS s) := by
  refine Says.config fun _ => says_reads.seq fun table => Says.server ?_
  refine says_sendCAPList ht (by decide) fun cap hcap => ?_
  obtain ⟨c, hc, rfl⟩ := mem_map.1 ((perm_insertionSort _ _).mem_iff.1 hcap)
  obtain ⟨hname, hvalue⟩ := supportedCaps_ended env.cfg table (srv.session s) c hc
  split
  · exact (hname.append (by decide)).append hvalue
  · exact hname

omit [UnicodeTables] in
theorem tells_beginNegotiation {k : Unit → M Unit}
    (h : ∀ srv', Middle (srv'.session s).target → Tells env srv' (k ())) :
    Tells env srv (beginNegotiation s >>= k) := by
  unfold beginNegotiation
  rw [bind_assoc]
  exact .server (.when (fun _ => .update_session ht (by exact fun _ => rfl) h) fun _ => h srv ht)

theorem tells_handleCapLS {subArg : Bytes} : Tells env srv (handleCapLS s subArg) := by
  refine tells_beginNegotiation ht fun srv ht => ?_
  cases (atoi subArg).toOption with
  | none => exact (says_sendCapLS ht).tells rfl
  | some version =>
    exact .when (fun _ => .update_session ht (by exact fun _ => rfl) fun srv' ht' =>
      (says_sendCapLS ht').tells rfl) fun _ => (says_sendCapLS ht).tells rfl

theorem says_handleCapLIST
    (h : ∀ c ∈ (srv.session s).caps.entries.filter fun c => c.2, Ended c.1) :
    Says env (.at srv) (handleCapLIST s) := by
  refine Says.server (says_sendCAPList ht (by decide) fun cap hcap => ?_)
  obtain ⟨c, hc, rfl⟩ := mem_map.1 ((perm_insertionSort _ _).mem_iff.1 hcap)
  exact h c hc

theorem tells_handleCapREQ {subArg : Bytes} (hreq : Ended (trimPrefix subArg (lit ":"))) :
    Tells env srv (handleCapREQ s subArg) := by
  refine .config (.seq says_reads fun table => .server (tells_beginNegotiation ht fun srv ht => ?_))
  refine .ite (fun _ => ?_) fun _ => .update_session ht (by exact fun _ => rfl) fun srv' ht' => ?_
  · exact (says_sendCAP ht (by decide) hreq).tells rfl
  · exact (says_sendCAP ht' (by decide) hreq).tells rfl

theorem tells_saslFailure {n : Numeric} {text : Bytes} (htext : Ended text) :
    Tells env srv (saslFailure s n text) :=
  .update_session ht (by exact fun _ => rfl) fun _ ht' => (says_text ht' htext).tells rfl

theorem tells_handleCapEND
    (hnot : (srv.session s).state ≠ .registered → (srv.session s).user ≠ [] →
      (srv.session s).nick ≠ [] → toLower (srv.session s).nick ∈ srv.sessions) :
    Tells env srv (handleCapEND s) := by
  -- the end, from a server with the same user that is about to register
  have hend (srv' : Server) (ht' : Middle (srv'.session s).target)
      (hident : (srv'.session s).ident = (srv.session s).ident)
      (hsessions : srv'.sessions = srv.sessions) : Tells env srv' (do
        when ((srv.session s).state = .capNeg) (updateSession s fun u => { u with state := .preReg })
        tryRegister s) := by
    have hnick : (srv'.session s).nick = (srv.session s).nick := congrArg Ident.nick hident
    have huser : (srv'.session s).user = (srv.session s).user := congrArg Ident.user hident
    have hstate : (srv'.session s).state = (srv.session s).state := congrArg Ident.state hident
    refine .when (fun hneg => .update (tells_tryRegister ?_ ?_)) fun _ => tells_tryRegister ht' ?_
    · exact middle_target ht' fun _ => rfl
    · simp only [Server.setSession, Function.update_self, Session.ident, hnick, huser, hsessions]
      exact fun h => hnot (by simp [hneg]) h.2.2 h.2.1
    · simp only [Users.Ready, Session.ident, hstate, hnick, huser, hsessions]
      exact fun h => hnot (by simp [h.1]) h.2.2 h.2.1
  refine .server (.when (fun _ => ?_) fun _ => hend srv ht rfl rfl)
  unfold saslFailure
  rw [bind_assoc]
  refine .update (.seq (says_text ?_ (by decide)) fun _ => hend _ ?_ ?_ rfl)
  · exact middle_target ht fun _ => rfl
  · exact middle_target ht fun _ => rfl
  · simp [Server.setSession, Session.ident]

theorem tells_handleCAP (hv : verbOf (toUpper msg.command) = some .CAP)
    (hnot : ¬ srv.users.Completes s msg) (h : Fit (mentionsCAP srv s msg)) :
    Tells env srv (handleCAP s msg) := by
  obtain ⟨htarget, h⟩ := fit_append.1 h
  refine .ite (fun _ => ?_) fun hne => .ite (fun _ => tells_handleCapLS ht) fun _ =>
    .ite (fun hlist => ?_) fun hlist => .ite (fun hreq => ?_) fun _ => .ite (fun hend => ?_) fun _ => ?_
  · exact (says_refusal ht (by decide) (by decide)).tells rfl
  · rw [if_pos hlist] at h
    exact (says_handleCapLIST ht (fit_map.1 h)).tells rfl
  · rw [if_neg hlist, if_pos hreq] at h
    exact tells_handleCapREQ ht (fit_cons.1 h).1
  · refine tells_handleCapEND ht fun hstate huser hnick => ?_
    by_contra hfree
    refine hnot ?_
    simp only [Users.Completes, hv]
    obtain ⟨sub, params, hparams⟩ := exists_cons_of_ne_nil hne
    have hsub : msg.param 0 = sub := by simp [Message.param, hparams]
    exact ⟨hstate, ⟨sub, by simp [hparams], hsub ▸ hend⟩, huser, hnick, hfree⟩
  · obtain ⟨sub, params, hparams⟩ := exists_cons_of_ne_nil hne
    have hsub : Middle (toUpper (msg.param 0)) := by
      simpa [Message.target, Message.param, hparams] using htarget
    exact (says_refusal ht hsub (by decide)).tells rfl

/-! ## SASL -/

theorem tells_logIn {account : Account} (h : Fit (mentionsLogIn srv s account)) :
    Tells env srv (logIn s account) := by
  simp only [mentionsLogIn, cons_append, nil_append, fit_cons, fits_word, fits_last] at h
  obtain ⟨hmask, hname, hended, hpeers⟩ := h
  -- the end, wherever the session has its host from
  have hend (srv' : Server) (ht' : Middle (srv'.session s).target)
      (hmask' : Middle (srv'.session s).mask) (haccount : (srv'.session s).account = account.name) :
      Tells env srv' (do
        let srv ← server
        let u := srv.session s
        sendNumeric s .RPL_LOGGEDIN
          [u.mask, u.account, lit "You are now logged in as " ++ u.account]
        sendNumeric s .RPL_SASLSUCCESS [lit "SASL authentication successful"]) := by
    refine .server (.seq (says_sendNumeric ht' ?_) fun _ => (says_text ht' (by decide)).tells rfl)
    rw [haccount]
    exact .cons hmask' (.cons hname (.single (.append (by decide) hended)))
  refine .server (.update (.seq (.when fun hreg => ?_) fun _ => .when (fun hchange => ?_) fun hsame =>
    hend _ ?_ ?_ ?_))
  · rw [if_pos hreg] at hpeers
    refine says_notifyAccount (fit_cons.1 hpeers).1 ?_
    simpa [Server.setSession] using hended
  · rw [bind_assoc]
    refine .update (.seq (.when fun hreg => ?_) fun _ => hend _ ?_ ?_ ?_)
    · rw [if_pos hreg, if_pos hchange] at hpeers
      simp only [fit_cons, fit_nil, fit_flatMap, mem_filter, and_true, and_imp,
        fits_word, fits_last, fits_source] at hpeers
      obtain ⟨hsource, huser, hhost, hreal, hnick, hchannels⟩ := hpeers
      refine says_notifyHostChange ?_ (fun ch hch hmem => ?_) hsource
      · refine ⟨?_, ?_, ?_, ?_, ?_, ?_⟩
        · simpa [Server.setSession, Session.source, hchange.1] using hmask.blank
        all_goals simpa [Server.setSession]
      · obtain ⟨hmid, hlast⟩ := hchannels ch hch (by simpa [Server.setSession] using hmem)
        exact { hmid with ended := hlast }
    · simpa [Server.setSession, Session.target] using ht
    · simpa [Server.setSession, Session.mask, Session.source, hchange.1] using hmask
    · simp [Server.setSession]
  · simpa [Server.setSession, Session.target] using ht
  · have hhost : (if account.host = [] then (srv.session s).host else account.host) =
        (srv.session s).host := by
      split
      · rfl
      · exact not_not.1 fun hne => hsame ⟨‹_›, hne⟩
    rw [hhost] at hmask
    simpa [Server.setSession, Session.mask, Session.source] using hmask
  · simp [Server.setSession]

theorem tells_authenticate {encoded : Bytes}
    (h : ∀ c, (decodeBase64 encoded).bind plainCredentials = some c →
      ∀ account, env.accounts.lookup (toLower c.1) = some account →
        Fit (mentionsLogIn srv s account)) : Tells env srv (authenticate s encoded) := by
  have hfail : Tells env srv (sendNumeric s .ERR_SASLFAIL [saslFailed]) :=
    (says_text ht (by decide)).tells rfl
  refine .bind (Q := (· = env.accounts)) (says_of_reads fun _ _ _ => rfl) fun table htable =>
    .seq says_reads fun w => .elim (fun _ => hfail) fun credentials hc =>
      .seq says_checkPassword fun ok => .elim (fun _ => hfail) fun account haccount => tells_logIn ht ?_
  subst htable
  split at haccount
  · exact h credentials hc account haccount
  · cases haccount

theorem tells_handleAuthenticate (h : Fit (mentionsAuthenticate env srv s msg)) :
    Tells env srv (handleAuthenticate s msg) := by
  unfold handleAuthenticate
  refine .server (.ite (fun _ => tells_saslFailure ht (by decide)) fun _ =>
    .ite (fun _ => ?_) fun hactive => ?_)
  · refine .ite (fun _ => (says_text ht (by decide)).tells rfl) fun _ => .ite (fun _ => ?_) fun _ => ?_
    · exact .seq (says_refusal ht (by decide) (by decide)) fun _ => tells_saslFailure ht (by decide)
    · refine .update ((says_send (p := .at _) ?_).tells rfl)
      exact ⟨Map.all_empty (p := fun k _ => TagKey k), by simp, known_verb .AUTHENTICATE,
        .single (by decide)⟩
  · refine .ite (fun _ => tells_saslFailure ht (by decide)) fun _ =>
      .ite (fun _ => tells_saslFailure ht (by decide)) fun _ => .ite (fun _ => tells_updateServer)
        fun _ => .update (tells_authenticate ?_ fun c hc account haccount => ?_)
    · exact middle_target ht fun _ => rfl
    · rw [not_not] at hactive
      rw [mentionsAuthenticate, if_pos hactive, hc, Option.bind_some, haccount] at h
      simpa [mentionsLogIn, Server.setSession, Session.source] using h

end

end

end Irc
