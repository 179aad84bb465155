import GoProtocols.Irc.Labeled
import GoProtocols.Irc.Proof.Stored
import GoProtocols.Irc.Sasl

/-!
# The senders of replayed messages

An entry of a history has the account of its sender in a tag, if the sender was logged in when it
sent the message (`SentBy.account_eq`). When `CHATHISTORY` replays an entry without the tag, `Send`
looks for a session that has the nick of the sender now, and adds the account of that one. So the
authors are kept exactly if no such session is logged in (`keepsAuthors_iff`).
-/

namespace Irc

open Go Prog System List

variable {d : Delivery} {ds : List Delivery} {m : Message} (ms : List Message) {name raw : Bytes}
  {t : Trace Unit} {s : SessionId}

/-! ## Definitions -/

def Message.IsText (m : Message) : Prop :=
  m.command = Verb.PRIVMSG.name ∨ m.command = Verb.NOTICE.name

instance (m : Message) : Decidable m.IsText := inferInstanceAs (Decidable (_ ∨ _))

def Message.account (m : Message) : Option Bytes := m.tags.lookup (lit "account")

/-- The tag of a user that is logged in to an account; an empty name stands for no login. -/
def accountTag (account : Bytes) : Option Bytes := if account = [] then none else some account

/-- What a session was sent between two states. -/
def State.received (st st' : State) (s : SessionId) : List Message :=
  ((st'.output s).writeQueue.drop (st.output s).writeQueue.length).map Outbound.msg

theorem Begun.account_eq {st st' : State} (h : Begun s st st') (t : SessionId) :
    (st'.srv.session t).account = (st.srv.session t).account := by
  obtain ⟨idleAt, hsrv⟩ := h.srv
  rw [hsrv]
  by_cases ht : t = s
  · subst ht
    simp [Server.setSession]
  · simp [Server.setSession, Function.update_of_ne ht]

/-! ## Texts -/

def texts (ds : List Delivery) : List Message := (ds.map Delivery.msg).filter Message.IsText

theorem texts_filter {p : Delivery → Bool}
    (h : ∀ d ∈ ds, d.msg.IsText → p d = true) : texts (ds.filter p) = texts ds := by
  unfold texts
  rw [filter_map, filter_map, filter_filter]
  congr 1
  refine filter_congr fun d hd => ?_
  by_cases htext : d.msg.IsText
  · simp [htext, h d hd htext]
  · simp [htext]

theorem texts_eq_nil (h : ∀ d ∈ ds, ¬ d.msg.IsText) : texts ds = [] := by
  refine filter_eq_nil_iff.2 (forall_mem_map.2 fun d hd => ?_)
  simpa using h d hd

theorem Frame.not_isText (h : Frame s d) : ¬ d.msg.IsText := by
  unfold Message.IsText
  rw [h.command]
  decide

/-! ## Labels -/

def Retagged (m m' : Message) : Prop := ∃ tags, m' = { m with tags } ∧ m'.account = m.account

theorem retagged_setTag (m : Message) (h : name ≠ lit "account") (value : Bytes) :
    Retagged m (m.setTag name value) :=
  ⟨_, rfl, (lookup_setTag _ _ _ _).trans (if_neg h.symm)⟩

theorem frameMessage_not_isText (s : SessionId) {verb : Verb} (h : verb = .ACK ∨ verb = .BATCH)
    (params : List Bytes) (tags : Tags) (env : Env) (st : State) :
    ¬ (frameMessage s verb params tags env st).1.IsText := by
  unfold Message.IsText
  rw [frameMessage_command]
  rcases h with rfl | rfl
  · decide
  · decide

theorem forall₂_retagged_setTag (h : name ≠ lit "account") (value : Bytes) :
    (ms.filter Message.IsText).Forall₂ Retagged
      ((ms.map (·.setTag name value)).filter Message.IsText) := by
  rw [filter_map]
  exact forall₂_map_right_iff.2 (forall₂_same.2 fun m _ => retagged_setTag m h value)

theorem filter_isText_framed {first last : Message} {ms : List Message} (hfirst : ¬ first.IsText)
    (hlast : ¬ last.IsText) :
    (first :: ms ++ [last]).filter Message.IsText = ms.filter Message.IsText := by
  simp [hfirst, hlast]

theorem frameResponse_texts (s : SessionId) (label : Bytes) (captured : List Message) (env : Env)
    (st : State) : (captured.filter Message.IsText).Forall₂ Retagged
      ((frameResponse s label captured env st).1.filter Message.IsText) := by
  have hlabel : lit "label" ≠ lit "account" := by decide
  match captured with
  | [] =>
    have hframe := frameMessage_not_isText s (.inl rfl) [] (Map.ofList [(lit "label", label)]) env st
    have hrun : (frameResponse s label [] env st).1 =
        [(frameMessage s .ACK [] (Map.ofList [(lit "label", label)]) env st).1] := rfl
    rw [hrun, filter_cons_of_neg (by simpa using hframe)]
    exact .nil
  | [msg] => exact forall₂_retagged_setTag [msg] hlabel label
  | msg :: msg' :: messages =>
    simp only [frameResponse, ite_run]
    split
    · -- the batch of a history: its first message is labeled
      have hfirst := forall₂_retagged_setTag [msg] hlabel label
      have hrest : ((msg' :: messages).filter Message.IsText).Forall₂ Retagged
          ((msg' :: messages).filter Message.IsText) :=
        forall₂_same.2 fun m _ => ⟨m.tags, rfl, rfl⟩
      have happ := rel_append hfirst hrest
      dsimp only at happ
      rwa [← filter_append, ← filter_append] at happ
    · simp only [bind_run, pure_run]
      rw [filter_isText_framed (frameMessage_not_isText s (.inr rfl) _ _ env _)
        (frameMessage_not_isText s (.inr rfl) _ _ env _)]
      exact forall₂_retagged_setTag _ (by decide) _

/-! ## Authors -/

section
variable [UnicodeTables] (env : Env) (past : List Event) (st : State)
  {entries : List ChatHistoryEntry}

/-- The entry is that of a message which was sent by a session with this account. -/
def SentBy (env : Env) (es : List Event) (e : ChatHistoryEntry) (account : Bytes) : Prop :=
  ∃ past s raw msg st notice, past ++ [.line s raw] <+: es ∧ lineMessage raw = some msg ∧
    Begun s ((ircd env).after past) st ∧ st.srv.Records s msg notice ∧
    e = messageEntry env st s msg notice ∧
    account = (((ircd env).after past).srv.session s).account

/-- The message replays the entry, under the account of its sender. -/
structure Attributed (env : Env) (es : List Event) (e : ChatHistoryEntry) (m : Message) : Prop where
  eq : ∃ tags, m = { e.msg with tags }
  account : ∃ account, SentBy env es e account ∧ m.account = accountTag account

/-- **The messages that `CHATHISTORY` replays are attributed**, for a session with `account-tag`. -/
def KeepsAuthors : Event → Prop
  | .line s raw =>
    ∀ msg ∈ lineMessage raw, verbOf (toUpper msg.command) = some .CHATHISTORY →
      (st.srv.session s).capEnabled .accountTag = true →
      (st.srv.selection s msg).Forall₂ (Attributed env past)
        ((st.received (handleLine s raw env st).2 s).filter Message.IsText)
  | .connect _ _ _ | .disconnect _ => True

/-- Nobody has the nick of a sender without an account and is logged in. -/
def Unclaimed : Event → Prop
  | .line s raw =>
    ∀ msg ∈ lineMessage raw, verbOf (toUpper msg.command) = some .CHATHISTORY →
      (st.srv.session s).capEnabled .accountTag = true →
      ∀ e ∈ st.srv.selection s msg, SentBy env past e [] → accountOf st.srv e.msg.source = none
  | .connect _ _ _ | .disconnect _ => True

/-! ## Where the entries come from -/

variable {env : Env} {es : List Event} {e : ChatHistoryEntry} {account : Bytes}

theorem SentBy.account_eq (h : SentBy env es e account) : e.msg.account = accountTag account := by
  obtain ⟨past, s, raw, msg, st, notice, -, -, hbegun, -, rfl, rfl⟩ := h
  have htag : (messageEntry env st s msg notice).msg.account =
      if lit "account" = lit "account" ∧ (st.srv.session s).account ≠ [] then
        some (st.srv.session s).account
      else _ :=
    lookup_relayTags (st.srv.session s) msg _ _ (by decide)
  rw [htag, hbegun.account_eq, accountTag]
  by_cases hnone : (((ircd env).after past).srv.session s).account = []
  · rw [if_pos hnone, if_neg fun h => h.2 hnone]
    rfl
  · rw [if_neg hnone, if_pos ⟨rfl, hnone⟩]

theorem SentBy.isText (h : SentBy env es e account) : e.msg.IsText := by
  obtain ⟨past, s, raw, msg, st, notice, -, -, -, -, rfl, -⟩ := h
  cases notice
  · exact .inl rfl
  · exact .inr rfl

theorem SentBy.concat (h : SentBy env es e account) (ev : Event) :
    SentBy env (es ++ [ev]) e account := by
  obtain ⟨past, s, raw, msg, st, notice, hpre, hrest⟩ := h
  exact ⟨past, s, raw, msg, st, notice, hpre.trans (prefix_append _ _), hrest⟩

/-- **Every entry of a history was sent.** -/
theorem sentBy_after (hv : (ircd env).Valid es) :
    ((ircd env).after es).srv.EachStored fun entries => ∀ e ∈ entries, ∃ a, SentBy env es e a := by
  refine (ircd env).invariant
    (I := fun es st => st.srv.EachStored fun entries => ∀ e ∈ entries, ∃ a, SentBy env es e a)
    (G := fun _ _ _ => True) ?_ (fun es ev h _ _ => ?_) hv fun _ _ _ => trivial
  · intro entries hs
    cases hs with
    | channel hch => cases hch
    | session ht => cases ht
  · have hold : ((ircd env).after es).srv.EachStored fun entries =>
        ∀ e ∈ entries, ∃ a, SentBy env (es ++ [ev]) e a := by
      intro entries hs e he
      obtain ⟨a, ha⟩ := h entries hs e he
      exact ⟨a, ha.concat ev⟩
    refine exec_eachStored (by simp) hold ?_
    rintro s raw msg st₁ notice rfl hline hbegun hrec old hkept
    exact forall_mem_trimHistory hkept
      ⟨_, es, s, raw, msg, st₁, notice, prefix_rfl, hline, hbegun, hrec, rfl, rfl⟩

theorem sentBy_of_holds (hv : (ircd env).Valid es) (h : ((ircd env).after es).srv.Holds e) :
    ∃ a, SentBy env es e a := by
  cases h with
  | channel hch he => exact sentBy_after hv _ (.channel hch) e he
  | session ht =>
    obtain ⟨key, entries, hentries, he⟩ := ht
    exact sentBy_after hv _ (.session hentries) e he

/-! ## What is received -/

variable {st : State} {srv : Server} {msg : Message}

/-- The message is that of the entry, with the account that `Send` gives it. -/
structure Shows (srv : Server) (e : ChatHistoryEntry) (m : Message) : Prop where
  eq : ∃ tags, m = { e.msg with tags }
  account : m.account = e.msg.account.or (accountOf srv e.msg.source)

theorem Replayed.shows {id : Bytes} (h : Replayed srv s id e d)
    (hcap : (srv.session s).capEnabled .accountTag = true) : Shows srv e d.msg where
  eq := by
    obtain ⟨tags, htags⟩ := h.shown.eq
    exact ⟨tags, htags⟩
  account := by
    have haccount := h.shown.account hcap
    rwa [lookup_entryMessage (by decide)] at haccount

theorem Replays.sole (h : Replays env srv s entries ds) :
    ∀ d ∈ ds, d.session = s ∧ d.immediate = false := by
  have hbody {id : Bytes} {ds : List Delivery}
      (h : (entries.filter fun e => (srv.session s).sees e.msg).Forall₂ (Replayed srv s id) ds) :
      ∀ d ∈ ds, d.session = s ∧ d.immediate = false := by
    intro d hd
    obtain ⟨e, -, he⟩ := h.exists_of_mem hd
    exact ⟨he.session, he.immediate⟩
  cases h with
  | bare h => exact hbody h
  | batch hissued hcap hfirst hopens h hclosing hid =>
    refine forall_mem_cons.2 ⟨⟨hfirst.session, hfirst.immediate⟩, forall_mem_append.2 ⟨hbody h, ?_⟩⟩
    exact fun d hd => ⟨(hclosing d hd).1.session, (hclosing d hd).1.immediate⟩

theorem Replayed.isText_iff {id : Bytes} (h : Replayed srv s id e d) :
    d.msg.IsText ↔ e.msg.IsText := by
  unfold Message.IsText
  rw [h.shown.command]
  rfl

theorem Replays.texts_eq (h : Replays env srv s entries ds) : ∃ id body,
      (entries.filter fun e => (srv.session s).sees e.msg).Forall₂ (Replayed srv s id) body ∧
      texts ds = texts body := by
  cases h with
  | bare h => exact ⟨[], ds, h, rfl⟩
  | @batch id hissued first body closing hcap hfirst hopens h hclosing hid =>
    refine ⟨id, body, h, ?_⟩
    have hclosing : texts closing = [] := texts_eq_nil fun d hd => (hclosing d hd).1.not_isText
    have hsplit : texts (first :: (body ++ closing)) =
        texts [first] ++ (texts body ++ texts closing) := by
      simp [texts, ← filter_append, ← map_append]
    rw [hsplit, hclosing, texts_eq_nil (by simpa using hfirst.not_isText), append_nil,
      nil_append]

theorem Reply.texts_shows {selected : List ChatHistoryEntry}
    (h : Reply env srv s selected ds) (htext : ∀ e ∈ selected, e.msg.IsText)
    (hcap : (srv.session s).capEnabled .accountTag = true) :
    selected.Forall₂ (Shows srv) (texts ds) := by
  cases h with
  | refusal hnone h =>
    subst hnone
    rw [texts_eq_nil fun d hd htext => htext.elim (h d hd).privmsg (h d hd).notice]
    exact .nil
  | @targets hnone entries hmade h =>
    subst hnone
    obtain ⟨id, body, hbody, htexts⟩ := h.texts_eq
    rw [htexts, texts_eq_nil fun d hd htext => ?_]
    · exact .nil
    · obtain ⟨e, he, hrel⟩ := hbody.exists_of_mem hd
      have hcommand := hrel.isText_iff.1 htext
      unfold Message.IsText at hcommand
      rw [e.command_eq, (hmade e (mem_filter.1 he).1).1] at hcommand
      revert hcommand
      decide
  | replay h =>
    obtain ⟨id, body, hbody, htexts⟩ := h.texts_eq
    have hsees : (selected.filter fun e => (srv.session s).sees e.msg) = selected := by
      refine filter_eq_self.2 fun e he => ?_
      have hne : e.msg.command ≠ Verb.TAGMSG.name := by
        intro heq
        have hcommand := htext e he
        unfold Message.IsText at hcommand
        rw [heq] at hcommand
        revert hcommand
        decide
      simp [Session.sees, hne]
    rw [hsees] at hbody
    have hall : texts body = body.map Delivery.msg := by
      refine filter_eq_self.2 (forall_mem_map.2 fun d hd => ?_)
      obtain ⟨e, he, hrel⟩ := hbody.exists_of_mem hd
      exact decide_eq_true (hrel.isText_iff.2 (htext e he))
    rw [htexts, hall]
    exact forall₂_map_right_iff.2 (hbody.imp fun _ _ hrel => hrel.shows hcap)

theorem Reply.sole {selected : List ChatHistoryEntry}
    (h : Reply env srv s selected ds) :
    ∀ d ∈ ds, d.msg.IsText → d.session = s ∧ d.immediate = false := by
  intro d hd htext
  cases h with
  | refusal _ h => exact absurd htext (not_or.2 ⟨(h d hd).privmsg, (h d hd).notice⟩)
  | targets _ _ h | replay h => exact h.sole d hd

/-! ## Lines -/

theorem received_line (hrest : st.Resting) (hline : lineMessage raw = some msg)
    (ht : HasTrace (dispatch s msg) env (noteIdle s env st).2.srv (noteIdle s env st).2.reads t) :
    st.received (handleLine s raw env st).2 s =
        (t.deliveries.filter (·.session = s)).map Delivery.msg ∨
      ∃ label st', st.received (handleLine s raw env st).2 s =
        immediates (t.deliveries.filter (·.session = s)) ++
          (frameResponse s label (captures (t.deliveries.filter (·.session = s))) env st').1 := by
  have hnote : (noteIdle s env st).2.output = st.output := rfl
  have hqueue (st' : State) (queued : List Outbound)
      (h : (st'.output s).writeQueue = (st.output s).writeQueue ++ queued) :
      st.received st' s = queued.map Outbound.msg := by
    unfold State.received
    rw [h, drop_left]
  rw [handleLine_run hline, dispatchCommand, bind_run, server_run]
  cases responseLabel ((noteIdle s env st).2.srv.session s) msg with
  | none =>
    left
    have hrun : dispatch s msg env (noteIdle s env st).2 = _ := ht st.output hrest.calm
    refine (hqueue _ _ ?_).trans map_map
    rw [Option.elim_none, hrun]
    dsimp only
    rw [foldl_deliverTo, Output.foldl_put_queue _ (hrest.quiet s) (hrest.calm s)]
  | some label =>
    right
    have hrun : dispatch s msg env (beginResponse s label env (noteIdle s env st).2).2 = _ :=
      ht (capturing st.output s label [] []) hrest.calm.capturing
    simp only [Option.elim_some, bind_run]
    rw [hrun]
    generalize hst' : (⟨t.srv, t.deliveries.foldl deliverTo (capturing st.output s label [] []),
      t.reads⟩ : State) = st'
    have ho : st'.output s = (st.output s).capturing label
        (captures (t.deliveries.filter (·.session = s)))
        (immediates (t.deliveries.filter (·.session = s))) := by
      rw [← hst']
      exact foldl_capturing_self hrest.calm t.deliveries
    obtain ⟨reads', hstate⟩ := frameResponse_state s label
      (captures (t.deliveries.filter (·.session = s))) env (st'.released s)
    rw [finishResponse_run ho, hstate]
    obtain ⟨queued, reads'', hqueued, hsend⟩ := sendPrepared_run s
      (immediates (t.deliveries.filter (·.session = s)) ++
        (frameResponse s label (captures (t.deliveries.filter (·.session = s))) env
          (st'.released s)).1) env { st'.released s with reads := reads' }
    refine ⟨label, st'.released s, (hqueue _ queued ?_).trans hqueued⟩
    rw [hsend]
    simp [State.released, ho, Output.capturing]

theorem selection_noteIdle (s : SessionId) (msg : Message) (env : Env) (st : State) :
    (noteIdle s env st).2.srv.selection s msg = st.srv.selection s msg := by
  have hsession : (noteIdle s env st).2.srv.session s =
      { st.srv.session s with idleAt := env.world.now st.reads } := Function.update_self ..
  unfold Server.selection Server.requested storedHistory
  rw [hsession]
  rfl

theorem accountOf_noteIdle (s : SessionId) (env : Env) (st : State) (source : Option Prefix) :
    accountOf (noteIdle s env st).2.srv source = accountOf st.srv source := by
  have hbegun : Begun s st (noteIdle s env st).2 := ⟨Nat.le_succ _, _, rfl⟩
  unfold accountOf
  simp only [hbegun.account_eq]
  rfl

theorem Shows.retagged {m' : Message} (h : Shows srv e m) (h' : Retagged m m') :
    Shows srv e m' := by
  obtain ⟨tags', rfl, haccount⟩ := h'
  obtain ⟨tags, rfl⟩ := h.eq
  exact ⟨⟨tags', rfl⟩, haccount.trans h.account⟩

/-- **What a session receives on `CHATHISTORY`**: the selected entries, with the accounts that their
nicks have now if they have none. -/
theorem received_shows (env : Env) (hrest : st.Resting) (hline : lineMessage raw = some msg)
    (hverb : verbOf (toUpper msg.command) = some .CHATHISTORY)
    (hcap : (st.srv.session s).capEnabled .accountTag = true)
    (htext : ∀ e ∈ st.srv.selection s msg, e.msg.IsText) :
    (st.srv.selection s msg).Forall₂ (Shows st.srv)
      ((st.received (handleLine s raw env st).2 s).filter Message.IsText) := by
  obtain ⟨t, ht, hreply⟩ := hasReply_dispatch hverb s env (noteIdle s env st).2.srv
    (noteIdle s env st).2.reads
  rw [selection_noteIdle] at hreply
  have hsole := hreply.sole
  have hcap' : ((noteIdle s env st).2.srv.session s).capEnabled .accountTag = true := by
    have hsession : (noteIdle s env st).2.srv.session s =
        { st.srv.session s with idleAt := env.world.now st.reads } := Function.update_self ..
    rw [hsession]
    exact hcap
  have hshows : (st.srv.selection s msg).Forall₂ (Shows st.srv) (texts t.deliveries) := by
    refine (hreply.texts_shows htext hcap').imp fun e m h => ⟨h.eq, ?_⟩
    rw [h.account, accountOf_noteIdle]
  have hmine : texts (t.deliveries.filter (·.session = s)) = texts t.deliveries :=
    texts_filter fun d hd htext => decide_eq_true (hsole d hd htext).1
  have hsole' : ∀ d ∈ t.deliveries.filter (·.session = s), d.msg.IsText → d.immediate = false :=
    fun d hd htext => (hsole d (mem_filter.1 hd).1 htext).2
  rcases received_line hrest hline ht with hrec | ⟨label, st', hrec⟩
  · rw [hrec]
    rw [← hmine] at hshows
    exact hshows
  · have himmediate : (immediates (t.deliveries.filter (·.session = s))).filter Message.IsText =
        [] := by
      refine texts_eq_nil fun d hd htext => ?_
      obtain ⟨hd, himm⟩ := mem_filter.1 hd
      simp [hsole' d hd htext] at himm
    have hcaptures : (captures (t.deliveries.filter (·.session = s))).filter Message.IsText =
        texts t.deliveries := by
      refine Eq.trans ?_ hmine
      exact texts_filter fun d hd htext => by simp [hsole' d hd htext]
    have hframed := frameResponse_texts s label (captures (t.deliveries.filter (·.session = s)))
      env st'
    rw [hcaptures] at hframed
    rw [hrec, filter_append, himmediate, nil_append]
    exact hshows.comp hframed fun _ _ _ h h' => h.retagged h'

theorem Shows.attributed_iff (h : Shows srv e m) (hsent : ∃ a, SentBy env es e a) :
    Attributed env es e m ↔ (SentBy env es e [] → accountOf srv e.msg.source = none) := by
  constructor
  · rintro ⟨-, a, ha, htag⟩ hnone
    have hempty : e.msg.account = none := hnone.account_eq
    rw [h.account, ← ha.account_eq, hempty, Option.none_or] at htag
    exact htag
  · intro hclaim
    obtain ⟨a, ha⟩ := hsent
    refine ⟨h.eq, a, ha, ?_⟩
    rw [h.account, ha.account_eq]
    by_cases hnone : a = []
    · subst hnone
      rw [hclaim ha]
      rfl
    · rw [accountTag, if_neg hnone, Option.some_or]

theorem keepsAuthors_iff_unclaimed (hv : (ircd env).Valid es) (ev : Event) :
    KeepsAuthors env es ((ircd env).after es) ev ↔ Unclaimed env es ((ircd env).after es) ev := by
  cases ev with
  | connect | disconnect => exact Iff.rfl
  | line s raw =>
    refine forall₂_congr fun msg hline => imp_congr_right fun hverb => imp_congr_right fun hcap => ?_
    have hsent : ∀ e ∈ ((ircd env).after es).srv.selection s msg, ∃ a, SentBy env es e a :=
      fun e he => sentBy_of_holds hv (selection_holds he)
    have htext : ∀ e ∈ ((ircd env).after es).srv.selection s msg, e.msg.IsText := by
      intro e he
      obtain ⟨a, ha⟩ := hsent e he
      exact ha.isText
    have hshows := received_shows env (resting_after hv) hline hverb hcap htext
    exact hshows.iff_forall_mem fun e he m hm => hm.attributed_iff (hsent e he)

/-- **Replayed messages keep their authors** exactly in the runs in which nobody who is logged in has
the nick of a sender that was not, when a message of it is replayed. -/
theorem keepsAuthors_iff (env : Env) {es : List Event} (hv : (ircd env).Valid es) :
    (ircd env).Each (KeepsAuthors env) es ↔ (ircd env).Each (Unclaimed env) es := by
  refine forall₃_congr fun past ev hpre => ?_
  have hv' : (ircd env).Valid (past ++ [ev]) := fun es' e h => hv es' e (h.trans hpre)
  exact keepsAuthors_iff_unclaimed ((ircd env).each_concat.1 hv').1 ev

theorem Attributed.account_eq (h : Attributed env es e m) :
    m.account = e.msg.account := by
  obtain ⟨a, ha, htag⟩ := h.account
  exact htag.trans ha.account_eq.symm

end

section
attribute [local instance] asciiTables

/-- A user sends a message to a channel. -/
def sendsMessage : List Event :=
  [.connect (lit "192.0.2.1:50000") true [], .line 0 (lit "NICK alice"),
    .line 0 (lit "USER alice 0 * :Alice"), .line 0 (lit "JOIN #a"), .line 0 (lit "PRIVMSG #a :hi")]

/-- Another user joins it. -/
def joinsLater : List Event :=
  [.connect (lit "192.0.2.2:50000") true [], .line 1 (lit "NICK bob"),
    .line 1 (lit "USER bob 0 * :Bob"), .line 1 (lit "JOIN #a"),
    .line 1 (lit "CAP REQ :account-tag draft/chathistory")]

def asksForHistory : Bytes := lit "CHATHISTORY LATEST #a * 10"

theorem asksForHistory_isSome : (lineMessage asksForHistory).isSome = true := by decide +kernel

def historyRequest : Message := (lineMessage asksForHistory).get asksForHistory_isSome

/-- The accounts that the senders of the selected messages have now. -/
def claims (st : State) : Event → List (Option Bytes)
  | .line s raw => (lineMessage raw).toList.flatMap fun msg =>
    (st.srv.selection s msg).map fun e => accountOf st.srv e.msg.source
  | .connect _ _ _ | .disconnect _ => []

/-- Nobody is logged in. -/
theorem keepsAuthors_iff_nobody :
    (ircd (newServer withAccount .still)).Each (KeepsAuthors (newServer withAccount .still))
      (sendsMessage ++ joinsLater ++ [.line 1 asksForHistory]) := by
  have hclaims : (ircd (newServer withAccount .still)).Each
      (fun _ st ev => ∀ a ∈ claims st ev, a = none)
      (sendsMessage ++ joinsLater ++ [.line 1 asksForHistory]) := by
    decide +kernel
  refine (keepsAuthors_iff _ (by decide +kernel)).2 fun past ev hpre => ?_
  have hnone := hclaims past ev hpre
  cases ev with
  | connect | disconnect => trivial
  | line s raw =>
    intro msg hline _ _ e he _
    refine hnone _ (mem_flatMap.2 ⟨msg, ?_, mem_map_of_mem he⟩)
    exact Option.mem_toList.2 hline

/-- The first user logs in after the message. -/
def logsInLater : List Event :=
  sendsMessage ++ [.line 0 (lit "CAP REQ sasl"), .line 0 (lit "AUTHENTICATE PLAIN"),
    .line 0 (lit "AUTHENTICATE AGFsaWNlAHB3")] ++ joinsLater

/-- The message is replayed with the account, though its sender was not logged in. -/
theorem not_keepsAuthors_logsInLater :
    (ircd (newServer withAccount .still)).Valid (logsInLater ++ [.line 1 asksForHistory]) ∧
      ¬ KeepsAuthors (newServer withAccount .still) logsInLater
        ((ircd (newServer withAccount .still)).after logsInLater) (.line 1 asksForHistory) := by
  refine ⟨by decide +kernel, fun h => ?_⟩
  have hkept := h historyRequest (Option.get_mem asksForHistory_isSome) (by decide +kernel)
    (by decide +kernel)
  have hmap : List.Forall₂ Eq ((((ircd (newServer withAccount .still)).after
      logsInLater).srv.selection 1 historyRequest).map (·.msg.account)) _ :=
    forall₂_map_left_iff.2 (forall₂_map_right_iff.2
      (hkept.imp fun e m hm => hm.account_eq.symm))
  have haccounts := forall₂_eq_eq_eq ▸ hmap
  revert haccounts
  decide +kernel

end

end Irc
