import GoProtocols.Irc.Proof.Says.Handshake
import GoProtocols.Irc.Selection

/-!
# What messages and histories send

`PRIVMSG`, `NOTICE`, `TAGMSG` and `CHATHISTORY` send legible messages if what they echo and mention
fits. A history is replayed as it was stored.
-/

namespace Irc

open Go Prog List

variable {v : Verb} {u : Session} {entries : List ChatHistoryEntry} {limit : Nat}
  {first second : Time} {target : Bytes} {e : ChatHistoryEntry} {notice : Bool} {msg : Message}

theorem verbOf_eq_some {name : Bytes} (h : verbOf name = some v) : v.name = name := by
  simpa using List.find?_some h

theorem relayTags_keys (hmsg : msg.Spelled) (u : Session) (msgid time : Bytes) :
    Map.All (fun k _ => TagKey k) (relayTags u msg msgid time) := by
  have hmsgid : TagKey (lit "msgid") := by decide
  have htime : TagKey (lit "time") := by decide
  have hfixed : Map.All (fun k _ => TagKey k)
      (Map.ofList [(lit "msgid", msgid), (lit "time", time)]) :=
    (Map.all_empty.insert hmsgid).insert htime
  have haccount : Map.All (fun k _ => TagKey k) (if u.account ≠ [] then
      (Map.ofList [(lit "msgid", msgid), (lit "time", time)]).insert (lit "account") u.account
      else Map.ofList [(lit "msgid", msgid), (lit "time", time)]) := by
    split
    · exact hfixed.insert (by decide)
    · exact hfixed
  unfold relayTags
  dsimp only
  split
  · refine foldlRecOn _ _ haccount fun tags htags t ht => ?_
    split
    · exact htags.insert (hmsg.tags t ht)
    · exact htags
  · exact haccount

theorem legible_relay (hmsg : msg.Spelled) (hu : 32 ∉ u.source.string) (msgid time : Bytes)
    (verb : Verb) {params : List Bytes} (hparams : Readable params) :
    Legible { tags := relayTags u msg msgid time, source := some u.source, command := verb.name
              params } :=
  { legible_user (v := verb) hu hparams with tags := relayTags_keys hmsg u msgid time }

theorem between_subset {first second : MessageReference} :
    (between entries first second limit).1 ⊆ entries := by
  unfold between
  dsimp only
  split
  · exact ((take_sublist _ _).trans (filterHistory_sublist _ _)).subset
  · exact ((drop_sublist _ _).trans (filterHistory_sublist _ _)).subset

/-- What a selection gives is among the entries, and the text of its error is well ended. -/
def Selected (entries : List ChatHistoryEntry) :
    Except SelectFault (List ChatHistoryEntry × Bool) → Prop
  | .ok result => result.1 ⊆ entries
  | .error (.error text) => Ended text
  | .error .panic => True

theorem parseMessageReference_error {selector text : Bytes}
    (h : parseMessageReference entries selector = .error text) : Ended text := by
  unfold parseMessageReference at h
  split at h
  · split at h
    · rw [← Except.error.inj h]; decide
    · cases h
  split at h
  · dsimp only at h
    split at h
    · rw [← Except.error.inj h]; decide
    · cases h
  · rw [← Except.error.inj h]; decide

theorem ended_selectFaultText
    {selected : Except SelectFault (List ChatHistoryEntry × Bool)} (h : Selected entries selected) :
    Ended (selectFaultText selected) := by
  unfold selectFaultText
  split
  · exact h
  · simp [Ended]

theorem ChatHistoryEntry.legible (e : ChatHistoryEntry) (h : Fit e.msg.mentions) : Legible e.msg := by
  simp only [Message.mentions, fit_append, fit_map, fits_word, fits_last] at h
  obtain ⟨⟨⟨htags, hsource⟩, hmiddle⟩, hlast⟩ := h
  exact ⟨htags, fun p hp => hsource p (by simpa using hp), .inl ⟨e.verb, e.command_eq⟩,
    readable_of_last hmiddle fun p hp => hlast p (by simpa using hp)⟩

theorem legible_targetEntry (htarget : Middle target)
    (h : targetEntry first second target entries = some e) : Legible e.msg := by
  obtain ⟨last, -, he⟩ := Option.bind_eq_some_iff.1 h
  dsimp only at he
  split at he
  · cases he
    exact ⟨Map.all_empty (p := fun k _ => TagKey k), by simp, known_verb .CHATHISTORY,
      .cons (by decide) (.cons htarget (.single (clear_formatServer _).ended))⟩
  · cases he

section
variable [UnicodeTables] {env : Env} {srv : Server} {s : SessionId}

theorem middle_command (h : verbOf (toUpper msg.command) = some v) :
    Middle msg.command :=
  .of_toUpper (verbOf_eq_some h ▸ v.word.toMiddle)

/-! ## Relaying -/

section
variable (ht : Middle (srv.session s).target)
include ht

section
variable {outMsg : Message} {entry : Option ChatHistoryEntry} (htarget : Middle target)
  (hout : Legible outMsg)
include htarget hout

theorem tells_relayToChannel : Tells env srv (relayToChannel s target outMsg entry) := by
  refine .server (.elim (fun _ => ?_) fun ch _ => .elim (fun _ => ?_) fun text htext => ?_)
  · exact (says_refusal ht htarget (by decide)).tells rfl
  · have hrest (srv' : Server) : Tells env srv' (do
        broadcast ch outMsg (some s)
        when ((srv.session s).capEnabled .echoMessage) (send s outMsg)) :=
      Says.tells (p := .at srv') ((says_broadcast hout).seq fun _ => .when fun _ => says_send hout) rfl
    cases entry with
    | none => exact hrest srv
    | some e =>
      rw [Option.elim_some]
      exact .update (hrest _)
  · refine (says_refusal ht htarget ?_).tells rfl
    unfold channelRefusal at htext
    split_ifs at htext <;> obtain rfl := Option.some.inj htext <;> decide

theorem tells_relayToNick
    (haway : notice = false → ∀ dest, srv.getSession target = some dest → Ended (srv.session dest).away) :
    Tells env srv (relayToNick s target outMsg entry notice) := by
  refine .server (.elim (fun _ => ?_) fun dest hdest => ?_)
  · exact (says_refusal ht htarget (by decide)).tells rfl
  have hrest (srv' : Server) (ht' : Middle (srv'.session s).target) : Tells env srv' (do
      (if dest = s then sendImmediate s outMsg else send dest outMsg)
      when ((srv.session s).capEnabled .echoMessage) (send s outMsg)
      when ((srv.session dest).away ≠ [] ∧ ¬ notice)
        (sendNumeric s .RPL_AWAY [target, (srv.session dest).away])) := by
    refine Says.tells (p := .at srv') (.seq (T := fun _ => True)
      (.ite (fun _ => says_sendImmediate hout) fun _ => says_send hout) fun _ =>
      .seq (.when fun _ => says_send hout) fun _ => .when fun hnot => ?_) rfl
    exact says_refusal ht' htarget (haway (by simpa using hnot.2) dest hdest)
  cases entry with
  | none => exact hrest srv ht
  | some e =>
    rw [Option.elim_some, bind_assoc]
    refine .update (.update (hrest _ (middle_target (middle_target ht ?_) ?_))) <;>
    · intro u
      rfl

end

theorem tells_handlePrivmsg (hmsg : msg.Spelled) (hv : verbOf (toUpper msg.command) = some v)
    (h : Fit (mentionsPrivmsg srv s msg notice)) : Tells env srv (handlePrivmsg s msg notice) := by
  simp only [mentionsPrivmsg, cons_append, nil_append, fit_cons, fits_source, fits_last] at h
  obtain ⟨hsource, hlast, haway⟩ := h
  refine .ite (fun _ => ?_) fun hlen => .server ?_
  · exact (says_refusal ht (middle_command hv) (by decide)).tells rfl
  rw [not_lt] at hlen
  have htarget : Middle (msg.param 0) := hmsg.middle_param hlen
  refine .seq says_reads fun at_ => .seq says_reads fun msgid => ?_
  have hout := legible_relay hmsg hsource msgid (serverTime at_)
    (if notice then .NOTICE else .PRIVMSG) (.cons htarget (.single hlast))
  refine .ite (fun _ => tells_relayToChannel ht htarget hout) fun hchan =>
    tells_relayToNick ht htarget hout fun hnotice dest hdest => ?_
  rw [if_neg (by simp [hchan, hnotice]), fit_map] at haway
  exact haway dest (by simp [hdest])

theorem tells_handleTagmsg (hmsg : msg.Spelled) (h : Fit (mentionsTagmsg srv s msg)) :
    Tells env srv (handleTagmsg s msg) := by
  simp only [mentionsTagmsg, cons_append, nil_append, fit_cons, fits_source, fits_last] at h
  obtain ⟨hsource, hlast, htarget⟩ := h
  refine .ite (fun _ => (says_text ht (by decide)).tells rfl) fun hne =>
    .server (.ite (fun _ => .pure ()) fun hcap => ?_)
  rw [if_neg (not_or.2 ⟨hne, hcap⟩), fit_cons, fits_word] at htarget
  refine .seq says_reads fun msgid => .seq says_reads fun at_ => ?_
  have hout := legible_relay hmsg hsource msgid (serverTime at_) .TAGMSG (.single hlast)
  exact .ite (fun _ => tells_relayToChannel ht htarget.1 hout) fun _ =>
    tells_relayToNick ht htarget.1 hout (by simp)

end

/-! ## Selections -/

theorem selectChatHistory_selected (entries : List ChatHistoryEntry) (subcommand : Bytes)
    (selectors : List Bytes) (limit : Int) :
    Selected entries (selectChatHistory entries subcommand selectors limit) := by
  have herror {text : Bytes} (h : Ended text) : Selected entries (.error (.error text)) := h
  have hok {result : List ChatHistoryEntry × Bool} (h : result.1 ⊆ entries) :
      Selected entries (.ok result) := h
  rw [selectChatHistory_eq]
  split
  · exact herror (by decide)
  split
  · exact herror (by decide)
  split
  · exact hok (drop_subset _ _)
  split
  · exact herror (by decide)
  cases hfirst : parseMessageReference entries (selectors.getD 0 []) with
  | error text => exact herror (parseMessageReference_error hfirst)
  | ok reference =>
    cases reference with
    | none => exact hok (nil_subset _)
    | some first =>
      dsimp only [selectFrom]
      split
      · exact hok ((drop_sublist _ _).trans (filterHistory_sublist _ _)).subset
      split
      · exact hok ((take_sublist _ _).trans (filterHistory_sublist _ _)).subset
      split
      · exact hok ((drop_sublist _ _).trans (filterHistory_sublist _ _)).subset
      split
      · exact hok (append_subset.2 ⟨((drop_sublist _ _).trans (filterHistory_sublist _ _)).subset,
          ((take_sublist _ _).trans (filterHistory_sublist _ _)).subset⟩)
      split
      · cases selectors[1]? with
        | none => exact trivial
        | some selector =>
          dsimp only
          cases hsecond : parseMessageReference entries selector with
          | error text => exact herror (parseMessageReference_error hsecond)
          | ok reference =>
            cases reference with
            | none => exact hok (nil_subset _)
            | some second => exact hok between_subset
      · exact herror (by decide)

/-! ## CHATHISTORY -/

theorem says_sendChatHistoryFail {p : Phase} {code subcommand text : Bytes} (hcode : Middle code)
    (hsub : Middle subcommand) (htext : Ended text) :
    Says env p (sendChatHistoryFail s code subcommand text) :=
  says_sendServer (.cons (Verb.word _).toMiddle (.cons hcode (.cons hsub (.single htext))))

theorem says_sendEntry {p : Phase} {batchID : Bytes} (h : Legible e.msg) :
    Says env p (sendEntry s batchID e) := by
  unfold sendEntry
  refine says_send ?_
  split
  · exact h.setTag (by decide) batchID
  · exact h

theorem says_sendHistoryBatch {batchType : Bytes} (htype : Word batchType) (htarget : Ended target)
    (hentries : ∀ e ∈ entries, Legible e.msg) (complete : Bool) :
    Says env (.at srv) (sendHistoryBatch s batchType target entries complete) := by
  refine Says.config fun henv => Says.server (.ite (fun _ => ?_) fun _ => ?_)
  · exact .forM fun e he => says_sendEntry (hentries e he)
  refine says_randText.bind fun batchID hid => ?_
  have hplus : Middle (lit "+" ++ batchID) := Middle.append (by decide) hid.1
  have hparams : Readable ([lit "+" ++ batchID, batchType] ++ if target ≠ [] then [target] else []) := by
    split
    · exact .cons hplus (.cons htype.toMiddle (.single htarget))
    · exact .cons hplus (.single htype.ended)
  have hminus : Ended (lit "-" ++ batchID) := .append (by decide) hid.2.ended
  refine .seq (says_send ?_) fun _ => .seq (.forM fun e he => says_sendEntry (hentries e he)) fun _ =>
    .when fun _ => says_sendServer (.single hminus)
  have hlegible := henv.legible_server (known_verb .BATCH) hparams
  split
  · exact { hlegible with tags := Map.all_empty.insert (p := fun k _ => TagKey k) (by decide) }
  · exact hlegible

theorem says_listTargets
    (hnames : ∀ ch ∈ srv.channels.entries, ch.2.hasMember (srv.session s).nick = true →
      Middle ch.2.name) (hkeys : ∀ h ∈ (srv.session s).history.entries, Middle h.1) :
    Says env (.at srv) (listTargets s first second) fun l => ∀ e ∈ l, Legible e.msg := by
  refine Says.server (says_allChannels.bind fun channels hchannels => ?_)
  refine says_rangeOver.bind fun own hown => says_rangeOver.bind fun targets htargets => .pure ?_
  intro e he
  have hmem := htargets.mem_iff.1 ((perm_insertionSort _ _).mem_iff.1 he)
  rcases mem_append.1 hmem with hmem | hmem
  · obtain ⟨ch, hch, hentry⟩ := mem_filterMap.1 hmem
    obtain ⟨hch, hon⟩ := mem_filter.1 hch
    exact legible_targetEntry (hnames ch (hchannels ch hch) hon) hentry
  · obtain ⟨h, hh, hentry⟩ := mem_filterMap.1 hmem
    exact legible_targetEntry (hkeys h (hown.mem_iff.1 hh)) hentry

theorem says_handleChatHistory (ht : Middle (srv.session s).target)
    (h : Fit (mentionsChatHistory srv s msg)) : Says env (.at srv) (handleChatHistory s msg) := by
  refine Says.server (.ite (fun _ => ?_) fun hcap => ?_)
  · exact says_refusal ht (Verb.word _).toMiddle (by decide)
  rw [mentionsChatHistory, if_neg hcap] at h
  obtain ⟨hsub, h⟩ := fit_cons.1 h
  have hfail {code text : Bytes} (hcode : Middle code) (htext : Ended text) :
      Says env (.at srv) (sendChatHistoryFail s code (msg.param 0) text) :=
    says_sendChatHistoryFail hcode hsub htext
  refine .ite (fun htargets => ?_) fun htargets => ?_
  · rw [if_pos htargets] at h
    simp only [fit_append, fit_map, fits_word, mem_filter, and_imp] at h
    have hinvalid {text : Bytes} (htext : Ended text) :=
      hfail (show Middle (lit "INVALID_PARAMS") by decide) htext
    refine .ite (fun _ => hinvalid (by decide)) fun _ => .elim (fun _ => hinvalid (by decide)) fun first _ =>
      .elim (fun _ => hinvalid (by decide)) fun second _ => .elim (fun _ => hinvalid (by decide)) fun limit _ =>
      (says_listTargets h.1 h.2).bind fun targets hlist => ?_
    exact says_sendHistoryBatch (by decide) (by decide) (fun e he => hlist e (take_subset _ _ he)) _
  · rw [if_neg htargets, fit_flatMap] at h
    refine .ite (fun _ => hfail (by decide) (by decide)) fun _ =>
      .elim (fun _ => hfail (by decide) (by decide)) fun limit _ =>
      .elim (fun _ => hfail (by decide) (by decide)) fun stored hstored => ?_
    obtain ⟨hname, hentries⟩ := fit_cons.1 (h stored (by simp [hstored]))
    rw [fit_flatMap] at hentries
    have hselected := selectChatHistory_selected stored.2 (toUpper (msg.param 0))
      (msg.params.drop 2).dropLast (min limit chatHistoryLimit)
    refine .elim (fun _ => hfail ?_ (ended_selectFaultText hselected)) fun result hresult =>
      says_sendHistoryBatch (by decide) hname (fun e he => e.legible (hentries e ?_)) _
    · split <;> decide
    cases hs : selectChatHistory stored.2 (toUpper (msg.param 0)) (msg.params.drop 2).dropLast
      (min limit chatHistoryLimit) with
    | error fault =>
      rw [hs] at hresult
      cases hresult
    | ok result' =>
      rw [hs] at hresult hselected
      cases hresult
      exact hselected he

end

end Irc
