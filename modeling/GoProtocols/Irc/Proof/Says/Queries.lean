import GoProtocols.Irc.Proof.Says.Handshake

/-!
# What queries send

The replies to queries about users and the server, to changes of a session's own state, to `MONITOR`
and to the operators. What is asked for is echoed by `WHO`, `WHOIS`, `WHOWAS` and `STATS`.
-/

namespace Irc

open Go Prog List

theorem middle_join {words : List Bytes} (hne : words ≠ []) (h : ∀ w ∈ words, Word w) :
    Middle (join words (lit ",")) := by
  obtain ⟨w, words, rfl⟩ := exists_cons_of_ne_nil hne
  have hblank : 32 ∉ join (w :: words) (lit ",") := by
    intro hb
    rcases mem_join hb with hb | ⟨w', hw', hb⟩
    · exact absurd hb (by decide)
    · exact (h w' hw').blank hb
  have hw := h w (by simp)
  obtain ⟨b, rest, rfl⟩ := exists_cons_of_ne_nil hw.nonempty
  refine ⟨?_, hblank, ?_⟩
  · cases words <;> simp [join]
  · have hcolon := hw.colon
    cases words <;> simpa [join] using hcolon

/-- What closes a link ends in a bracket, whatever it is made of. -/
theorem ended_bracket (text : Bytes) : Ended (text ++ lit ")") :=
  (ended_append_iff (by decide)).2 (by decide)

section
variable [UnicodeTables] {env : Env} {srv : Server} {s t : SessionId} {msg : Message}
  {targets : Bytes} (ht : Middle (srv.session s).target)
include ht

/-! ## WHO, WHOIS and WHOWAS -/

theorem says_sendWhoReply {mask status : Bytes} (hmask : Middle mask)
    (h : Fit (mentionsOfWho env srv t status)) :
    Says env (.at srv) (sendWhoReply s t mask status) := by
  simp only [mentionsOfWho, fit_cons, fits_word, fits_last] at h
  obtain ⟨huser, hhost, hname, hnick, hstatus, hreal, -⟩ := h
  have hflags : Middle ((if (srv.session t).away ≠ [] then lit "G" else lit "H") ++ status) := by
    refine Middle.append ?_ fun hb => hstatus.blank (mem_append_right _ hb)
    split <;> decide
  refine Says.config fun _ => Says.server (says_sendNumeric ht ?_)
  exact .cons hmask (.cons huser (.cons hhost (.cons hname (.cons hnick (.cons hflags
    (.single (.append (by decide) hreal)))))))

theorem says_handleWho (h : Fit (mentionsWho env srv msg)) :
    Says env (.at srv) (handleWho s msg) := by
  obtain ⟨htarget, h⟩ := fit_append.1 h
  unfold handleWho
  have hmask : Middle (if msg.params = [] then lit "*" else msg.param 0) :=
    middle_first_or htarget (by decide)
  generalize (if msg.params = [] then lit "*" else msg.param 0) = mask at h hmask ⊢
  refine Says.server (.seq (T := fun _ => True) (.ite (fun hchan => ?_) fun hchan => ?_) fun _ =>
    says_refusal ht hmask (by decide))
  · rw [if_pos (show isChannelTarget mask from hchan), fit_flatMap] at h
    refine .elim (fun _ => .pure trivial) fun ch hch => says_memberList.bind fun members hmembers => ?_
    refine .forM fun m hm => says_sendWhoReply ht hmask ?_
    obtain ⟨e, he, rfl⟩ := hmembers m hm
    exact fit_flatMap.1 (h ch (by simp [hch])) e he
  · rw [if_neg (show ¬ isChannelTarget mask from hchan), fit_flatMap] at h
    refine says_allSessions.bind fun all hall => .forM fun t ht' => .when fun hmatch => ?_
    obtain ⟨e, he, rfl⟩ := hall t ht'
    exact says_sendWhoReply ht hmask (h e (mem_filter.2 ⟨he, hmatch⟩))

theorem says_sendWhois (h : Fit (mentionsOfWhois env srv t)) :
    Says env (.at srv) (sendWhois s t) := by
  simp only [mentionsOfWhois, cons_append, nil_append, fit_cons, fit_append, fits_word, fits_last] at h
  obtain ⟨hnick, huser, hhost, hreal, hname, hnetwork, haway, haccount, hchannels⟩ := h
  refine Says.config fun _ => Says.server ?_
  refine (says_sendNumeric ht (.cons hnick (.cons huser (.cons hhost
    (.cons (by decide) (.single hreal)))))).seq fun _ => .seq (.when fun hne => ?_) fun _ =>
    (says_sendNumeric ht (.cons hnick (.cons hname (.single hnetwork)))).seq fun _ =>
    says_allChannels.bind fun channels hall => .seq (.when fun _ => says_refusal ht hnick ?_) fun _ => ?_
  · rw [if_neg hne] at haccount
    exact says_sendNumeric ht (.cons hnick (.cons (fit_cons.1 haccount).1 (.single (by decide))))
  · refine .join (by decide) fun chan hchan => ?_
    obtain ⟨ch, hch, hchan⟩ := mem_filterMap.1 hchan
    obtain ⟨m, hm, rfl⟩ := Option.map_eq_some_iff.1 hchan
    exact hchannels (.last _) (mem_filterMap.2 ⟨ch, hall ch hch, by simp [hm]⟩)
  refine .seq (.when fun _ => says_refusal ht hnick (by decide)) fun _ =>
    .seq (.when fun _ => says_refusal ht hnick haway) fun _ => says_reads.seq fun at_ =>
    .seq (says_sendNumeric ht ?_) fun _ => says_refusal ht hnick (by decide)
  exact .cons hnick (.cons (word_formatInt _).toMiddle (.cons (word_formatInt _).toMiddle
    (.single (by decide))))

theorem says_handleWhois (h : Fit (mentionsWhois env srv msg)) :
    Says env (.at srv) (handleWhois s msg) := by
  unfold mentionsWhois at h
  refine .ite (fun _ => says_text ht (by decide)) fun hne => Says.server (.elim (fun hnone => ?_)
    fun t hfound => ?_)
  · rw [hnone] at h
    have hname := middle_first h hne
    exact (says_refusal ht hname (by decide)).seq fun _ => says_refusal ht hname (by decide)
  · rw [hfound] at h
    exact says_sendWhois ht h

theorem says_handleWhowas (h : Fit (mentionsWhowas env srv msg)) :
    Says env (.at srv) (handleWhowas s msg) := by
  obtain ⟨htarget, h⟩ := fit_append.1 h
  refine .ite (fun _ => says_text ht (by decide)) fun hne => Says.config fun _ => Says.server ?_
  have hname := middle_first htarget hne
  refine .seq (.forM fun e he => ?_) fun _ => .seq (.when fun _ => says_refusal ht hname (by decide))
    fun _ => says_refusal ht hname (by decide)
  obtain ⟨he, hfold⟩ := mem_filter.1 he
  have hentry := fit_flatMap.1 h e (mem_filter.2 ⟨mem_reverse.1 he, hfold⟩)
  simp only [fit_cons, fits_word, fits_last] at hentry
  obtain ⟨hnick, huser, hhost, hreal, hserver, -⟩ := hentry
  refine (says_sendNumeric ht ?_).seq fun _ => says_sendNumeric ht ?_
  · exact .cons hnick (.cons huser (.cons hhost (.cons (by decide) (.single hreal))))
  · exact .cons hnick (.cons hserver (.single (clear_formatLong _).ended))

/-! ## User state -/

section
variable (hsource : 32 ∉ (srv.session s).source.string) (hlast : Ended (msg.param 0))
include hsource hlast

theorem tells_handleAway : Tells env srv (handleAway s msg) := by
  refine .update ?_
  have ht' : Middle ((srv.setSession s fun u => { u with away := msg.param 0 }).session s).target :=
    middle_target ht fun _ => rfl
  refine Says.tells (p := .at _) (.seq (T := fun _ => True) (.ite (fun _ => says_text ht' (by decide))
    fun _ => says_text ht' (by decide)) fun _ => Says.server (says_notifyPeers (legible_user ?_ ?_) _)) rfl
  · simpa [Server.setSession, Session.source] using hsource
  · split
    · exact .single (by simpa [Server.setSession] using hlast)
    · exact .nil

omit ht in
theorem tells_handleSetname : Tells env srv (handleSetname s msg) := by
  have hu : (srv.setSession s fun u => { u with realname := msg.param 0 }).session s =
      { srv.session s with realname := msg.param 0 } := by simp [Server.setSession]
  have hset := legible_user (u := { srv.session s with realname := msg.param 0 }) (v := .SETNAME)
    hsource (.single hlast)
  refine .ite (fun _ => .pure ()) fun _ => .update (.server ?_)
  rw [hu]
  exact Says.tells (p := .at _) (.seq (.when fun _ => says_send hset) fun _ =>
    says_notifyPeers hset _) rfl

theorem says_handleWallops : Says env (.at srv) (handleWallops s msg) :=
  Says.server (.ite (fun _ => says_text ht (by decide)) fun _ => says_reads.seq fun all =>
    .forM fun t _ => .when fun _ => says_send (legible_user hsource (.single hlast)))

end

theorem says_handleUserhost (h : Fit (mentionsUserhost srv msg)) :
    Says env (.at srv) (handleUserhost s msg) := by
  refine Says.server (says_text ht (.join (by decide) fun text htext => ?_))
  obtain ⟨t, hmem, rfl⟩ := mem_map.1 htext
  have hhost : Ended (srv.session t).host := fit_map.1 h t hmem
  exact .append ((ended_append_iff (by decide)).2 (by decide)) hhost

theorem says_handleIson (h : Fit (mentionsIson srv msg)) : Says env (.at srv) (handleIson s msg) :=
  Says.server (says_text ht (.join (by decide) (fit_map.1 h)))

/-! ## MONITOR -/

/-- What the loop of `MONITOR` has gathered can be sent. -/
structure MonitorAcc.Sendable (acc : MonitorAcc) : Prop where
  online : ∀ mask ∈ acc.online, Ended mask
  offline : ∀ nick ∈ acc.offline, Ended nick
  rejected : ∀ nick ∈ acc.rejected, Word nick

section
variable {acc : MonitorAcc} {nick : Bytes} (hacc : acc.Sendable)
  (hmask : ∀ t, srv.getSession nick = some t → Ended (srv.session t).mask)
include hacc hmask

omit ht in
theorem MonitorAcc.Sendable.report (hnick : Ended nick) : (acc.report srv nick).Sendable := by
  unfold MonitorAcc.report
  split
  · rename_i t hfound
    exact { hacc with online := forall_mem_append.2 ⟨hacc.online,
      forall_mem_singleton.2 (hmask t hfound)⟩ }
  · exact { hacc with offline := forall_mem_append.2 ⟨hacc.offline, forall_mem_singleton.2 hnick⟩ }

omit ht in
theorem MonitorAcc.Sendable.add : (acc.add srv nick).Sendable := by
  unfold MonitorAcc.add
  split
  · exact hacc
  rename_i hvalid
  have hword := word_of_isValidNick (not_not.1 hvalid)
  split
  · exact hacc.report hmask hword.ended
  split
  · exact { hacc with rejected := forall_mem_append.2 ⟨hacc.rejected, forall_mem_singleton.2 hword⟩ }
  · exact MonitorAcc.Sendable.report { hacc with } hmask hword.ended

end

theorem tells_monitorAdd (h : ∀ nick ∈ split targets 44, ∀ t, srv.getSession nick = some t →
    Ended (srv.session t).mask) : Tells env srv (monitorAdd s targets) := by
  have hacc : ((split targets 44).foldl (MonitorAcc.add srv)
      { monitor := (srv.session s).monitor }).Sendable :=
    foldlRecOn _ _ ⟨by simp, by simp, by simp⟩ fun _ hacc nick hnick => hacc.add (h nick hnick)
  refine .server (.update_session ht (by exact fun _ => rfl) fun srv' ht' => Says.tells
    ((says_sendMonitorList ht' hacc.online).seq fun _ => (says_sendMonitorList ht' hacc.offline).seq
    fun _ => .when fun hne => says_sendNumeric ht' ?_) rfl)
  exact .cons (word_itoa _).toMiddle (.cons (middle_join hne hacc.rejected) (.single (by decide)))

theorem says_monitorList (h : ∀ n ∈ (srv.session s).monitor.entries, Ended n.2) :
    Says env (.at srv) (monitorList s) := by
  refine Says.server (.seq (says_sendMonitorList ht fun nick hnick => ?_) fun _ =>
    says_text ht (by decide))
  obtain ⟨n, hn, rfl⟩ := mem_map.1 ((perm_insertionSort _ _).mem_iff.1 hnick)
  exact h n hn

theorem says_monitorStatus (h : ∀ n ∈ (srv.session s).monitor.entries, Ended n.2)
    (hmask : ∀ n ∈ (srv.session s).monitor.entries, ∀ t, srv.getSession n.2 = some t →
      Ended (srv.session t).mask) : Says env (.at srv) (monitorStatus s) := by
  refine Says.server (says_rangeOver.bind fun nicks hnicks => ?_)
  have hacc : (nicks.foldl (fun (acc : MonitorAcc) n => acc.report srv n.2)
      { monitor := ∅ }).Sendable :=
    foldlRecOn _ _ ⟨by simp, by simp, by simp⟩ fun _ hacc n hn =>
      hacc.report (hmask n (hnicks.mem_iff.1 hn)) (h n (hnicks.mem_iff.1 hn))
  exact (says_sendMonitorList ht hacc.online).seq fun _ => says_sendMonitorList ht hacc.offline

theorem tells_handleMonitor (h : Fit (mentionsMonitor srv s msg)) :
    Tells env srv (handleMonitor s msg) := by
  have hrefuse {text : Bytes} (htext : Ended text) :
      Tells env srv (sendNumeric s .ERR_NEEDMOREPARAMS [Verb.MONITOR.name, text]) :=
    (says_refusal ht (Verb.word _).toMiddle htext).tells rfl
  unfold mentionsMonitor at h
  refine .ite (fun _ => hrefuse (by decide)) fun _ => .ite (fun hsub => ?_) fun hadd =>
    .ite (fun _ => ?_) fun _ => .ite (fun _ => tells_updateServer) fun _ => .ite (fun hsub => ?_)
    fun hlist => .ite (fun hsub => ?_) fun _ => hrefuse (by decide)
  · simp only [if_pos hsub, fit_map, fits_last, mem_filterMap] at h
    exact .ite (fun _ => hrefuse (by decide)) fun _ => tells_monitorAdd ht fun nick hnick t hfound =>
      h t ⟨nick, hnick, hfound⟩
  · exact .ite (fun _ => hrefuse (by decide)) fun _ => tells_updateServer
  · simp only [if_neg hadd, if_pos hsub, fit_map, fits_last] at h
    exact (says_monitorList ht h).tells rfl
  · simp only [if_neg hadd, if_neg hlist, if_pos hsub, fit_append, fit_map, fits_last, mem_filterMap] at h
    exact (says_monitorStatus ht h.2 fun n hn t hfound =>
      h.1 t ⟨n.2, mem_map_of_mem hn, hfound⟩).tells rfl

/-! ## The server -/

omit ht in
theorem says_handlePing (hmsg : msg.Spelled) (h : Ended (msg.params.getLastD env.cfg.name)) :
    Says env (.at srv) (handlePing s msg) := by
  refine Says.config fun _ => says_sendServer ?_
  split
  · rename_i hnil
    exact .single (by simpa [hnil] using h)
  · refine readable_of_last hmsg.params fun p hp => ?_
    rwa [getLastD_eq_getLast?, show msg.params.getLast? = some p from hp] at h

omit ht in
theorem tells_handleQuit : Tells env srv (handleQuit s msg) :=
  .server (.seq (says_sendServer (.single (ended_bracket _))) fun _ => tells_updateServer)

theorem tells_handleKill (hmsg : msg.Spelled) (hsource : 32 ∉ (srv.session s).source.string) :
    Tells env srv (handleKill s msg) := by
  refine .server (.ite (fun _ => (says_text ht (by decide)).tells rfl) fun _ => .ite (fun _ => ?_)
    fun hlen => .elim (fun _ => ?_) fun t _ =>
    .seq (says_send (legible_user hsource (.single (ended_bracket _)))) fun _ => tells_updateServer)
  · exact (says_refusal ht (Verb.word _).toMiddle (by decide)).tells rfl
  · exact (says_refusal ht (hmsg.middle_param (not_lt.1 hlen)) (by decide)).tells rfl

section
variable (hname : Middle env.cfg.name)
include hname

theorem says_handleVersion : Says env (.at srv) (handleVersion s msg) :=
  Says.config fun _ => says_sendNumeric ht (.cons (by decide) (.cons hname (.single (by decide))))

theorem says_handleTime : Says env (.at srv) (handleTime s msg) :=
  Says.config fun _ => says_reads.seq fun _ => says_refusal ht hname (clear_formatZoned _).ended

theorem says_handleAdmin (hlast : Ended env.cfg.name) : Says env (.at srv) (handleAdmin s msg) :=
  Says.config fun _ => (says_refusal ht hname (by decide)).seq fun _ =>
    (says_text ht (by decide)).seq fun _ => (says_text ht (by decide)).seq fun _ =>
    says_text ht (.append (by decide) hlast)

end

theorem says_handleInfo : Says env (.at srv) (handleInfo s msg) :=
  (says_text ht (by decide)).seq fun _ => (says_text ht (by decide)).seq fun _ =>
    says_text ht (by decide)

theorem says_handleStats (h : Fit (msg.target.map .word)) :
    Says env (.at srv) (handleStats s msg) :=
  .seq (.when fun _ => says_text ht (by decide)) fun _ =>
    says_refusal ht (middle_first_or h (by decide)) (by decide)

theorem tells_handleOper (hnick : Middle (srv.session s).nick) :
    Tells env srv (handleOper s msg) := by
  have hrefuse : Tells env srv (sendNumeric s .ERR_PASSWDMISMATCH [lit "Password incorrect"]) :=
    (says_text ht (by decide)).tells rfl
  refine .ite (fun _ => (says_refusal ht (Verb.word _).toMiddle (by decide)).tells rfl) fun _ =>
    .config (.server (.elim (fun _ => hrefuse) fun hash _ => .seq says_checkPassword fun ok =>
    .ite (fun _ => hrefuse) fun _ => .update_session ht (by exact fun _ => rfl) fun srv' ht' => ?_))
  exact Says.tells ((says_text ht' (by decide)).seq fun _ =>
    says_sendServer (.cons hnick (.single (by decide)))) rfl

end

end Irc
