import GoProtocols.Irc.Proof.Capture
import GoProtocols.Irc.Proof.Says.Messaging
import GoProtocols.Lib.Forall2

/-!
# What `CHATHISTORY` sends

An answer to `CHATHISTORY` refuses the command, lists targets, or replays the entries that it selects
(`hasReply_dispatch`): one message for each entry, in order, and around them a batch for a session
that knows batches (`Replays`).
-/

namespace Irc

open Go Prog List Option

variable {batchID : Bytes} {e : ChatHistoryEntry} {ds : List Delivery} {msg : Message}
  {first second : Time} {target : Bytes} {entries : List ChatHistoryEntry} {d : Delivery}

/-! ## Entries -/

/-- The message of an entry as it is handed to `Send`. -/
def entryMessage (batchID : Bytes) (e : ChatHistoryEntry) : Message :=
  { e.msg with
    tags := if batchID ≠ [] then e.msg.tags.insert (lit "batch") batchID else e.msg.tags }

theorem lookup_entryMessage {name : Bytes} (h : name ≠ lit "batch") :
    (entryMessage batchID e).tags.lookup name = e.msg.tags.lookup name := by
  unfold entryMessage
  dsimp only
  split
  · rw [Map.lookup_insert_eq, if_neg h]
  · rfl

theorem captures_eq {s : SessionId} (hsession : ∀ d ∈ ds, d.session = s)
    (himmediate : ∀ d ∈ ds, d.immediate = false) :
    captures (ds.filter (·.session = s)) = ds.map Delivery.msg := by
  have hfilter : ds.filter (·.session = s) = ds :=
    filter_eq_self.2 fun d hd => by simp [hsession d hd]
  rw [captures, hfilter, filter_eq_self.2 fun d hd => by simp [himmediate d hd]]

theorem responds_of_unframed {s : SessionId} (h : ∀ d ∈ ds, Unframed d.msg) :
    (∀ d ∈ ds, d.msg.label = none) ∧ Responds (captures (ds.filter (·.session = s))) :=
  ⟨fun d hd => (h d hd).label,
    .inl (forall_mem_map.2 fun d hd => h d (mem_filter.1 (mem_filter.1 hd).1).1)⟩

theorem mem_targetEntry (h : targetEntry first second target entries = some e) :
    e.verb = .CHATHISTORY ∧ e.msg.tags = ∅ := by
  obtain ⟨last, -, hlast⟩ := bind_eq_some_iff.1 h
  split at hlast
  · cases hlast
    exact ⟨rfl, rfl⟩
  · cases hlast

section
variable [UnicodeTables]

/-- The delivery is the message that was made of the entry. -/
structure Replayed (srv : Server) (s : SessionId) (batchID : Bytes) (e : ChatHistoryEntry)
    (d : Delivery) : Prop where
  session : d.session = s
  immediate : d.immediate = false
  shown : Shown srv s (entryMessage batchID e) d.msg

variable {s : SessionId} {env : Env} {srv : Server} {reads : Nat} {selected : List ChatHistoryEntry}

/-- **Every entry that the session sees is delivered, in order.** -/
theorem trace_entries (s : SessionId) (batchID : Bytes) (entries : List ChatHistoryEntry) (env : Env)
    (srv : Server) (reads : Nat) :
    ∃ t, HasTrace (entries.forM (sendEntry s batchID)) env srv reads t ∧ t.srv = srv ∧
      (entries.filter fun e => (srv.session s).sees e.msg).Forall₂ (Replayed srv s batchID)
        t.deliveries := by
  induction entries generalizing reads with
  | nil => exact ⟨⟨(), srv, reads, []⟩, fun _ _ => rfl, rfl, .nil⟩
  | cons e entries ih =>
    cases hsees : (srv.session s).sees e.msg with
    | false =>
      obtain ⟨t, ht, hsrv, hds⟩ := ih reads
      refine ⟨t, fun output hcalm => ?_, hsrv, by simpa [hsees] using hds⟩
      have hentry : (srv.session s).sees (entryMessage batchID e) = false := hsees
      rw [forM_cons_run, sendEntry, ← entryMessage, send_unseen hentry]
      exact ht output hcalm
    | true =>
      have hentry : (srv.session s).sees (entryMessage batchID e) = true := hsees
      obtain ⟨out, reads', hout, hrun⟩ := send_seen hentry env reads
      obtain ⟨t, ht, hsrv, hds⟩ := ih reads'
      refine ⟨{ t with deliveries := ⟨s, false, out⟩ :: t.deliveries }, fun output hcalm => ?_, hsrv,
        ?_⟩
      · rw [forM_cons_run, sendEntry, ← entryMessage, hrun]
        exact ht _ (hcalm.deliverTo ⟨s, false, out⟩)
      · simp only [filter_cons, hsees, if_true]
        exact .cons ⟨rfl, rfl, hout⟩ hds

/-! ## Batches -/

/-- A delivery that opens or closes a batch. -/
structure Frame (s : SessionId) (d : Delivery) : Prop where
  session : d.session = s
  immediate : d.immediate = false
  label : d.msg.label = none
  command : d.msg.command = Verb.BATCH.name

/-- The deliveries replay the entries. -/
inductive Replays (env : Env) (srv : Server) (s : SessionId) (entries : List ChatHistoryEntry) :
    List Delivery → Prop
  | bare {ds : List Delivery}
      (h : (entries.filter fun e => (srv.session s).sees e.msg).Forall₂ (Replayed srv s []) ds) :
      Replays env srv s entries ds
  | batch {id : Bytes} (hissued : ∃ n, env.world.text n = id) {first : Delivery}
      {body closing : List Delivery} (hcap : (srv.session s).capEnabled .batch = true)
      (hfirst : Frame s first) (hopens : Opens id first.msg)
      (h : (entries.filter fun e => (srv.session s).sees e.msg).Forall₂ (Replayed srv s id) body)
      (hclosing : ∀ d ∈ closing, Frame s d ∧ Closes id d.msg)
      (hid : id ≠ [] → closing.length = 1) :
      Replays env srv s entries (first :: (body ++ closing))

theorem trace_frame (s : SessionId) (msg : Message) (hcommand : msg.command = Verb.BATCH.name)
    (hlabel : msg.tags.lookup (lit "label") = none) (env : Env) (srv : Server) (reads : Nat) :
    ∃ d reads', HasTrace (send s msg) env srv reads ⟨(), srv, reads', [d]⟩ ∧ Frame s d ∧
      d.msg.params = msg.params := by
  have hsees : (srv.session s).sees msg = true := by
    simp [Session.sees, hcommand, show ¬ Verb.BATCH.name = Verb.TAGMSG.name by decide]
  obtain ⟨out, reads', hout, hrun⟩ := send_seen hsees env reads
  exact ⟨⟨s, false, out⟩, reads', fun output _ => hrun output,
    ⟨rfl, rfl, hout.label hlabel, hout.command.trans hcommand⟩, hout.params⟩

theorem trace_closing (s : SessionId) (id : Bytes) (env : Env) (srv : Server) (reads : Nat) :
    ∃ closing reads', HasTrace (when (id ≠ []) (sendServer s .BATCH [lit "-" ++ id])) env srv reads
        ⟨(), srv, reads', closing⟩ ∧
      (∀ d ∈ closing, Frame s d ∧ Closes id d.msg) ∧ (id ≠ [] → closing.length = 1) := by
  by_cases hid : id = []
  · refine ⟨[], reads, fun output _ => ?_, by simp, fun h => absurd hid h⟩
    rw [when_run, if_neg (not_not.2 hid)]
    rfl
  · obtain ⟨d, reads', hrun, hframe, hparams⟩ := trace_frame s
      { source := some { nick := env.cfg.name }, command := Verb.BATCH.name
        params := [lit "-" ++ id] } rfl rfl env srv reads
    refine ⟨[d], reads', fun output hcalm => ?_, ?_, fun _ => rfl⟩
    · rw [when_run, if_pos hid]
      exact hrun output hcalm
    · intro d' hd'
      obtain rfl := mem_singleton.1 hd'
      exact ⟨hframe, hframe.command, hparams⟩

/-- **A batch of history replays its entries.** -/
theorem trace_sendHistoryBatch (s : SessionId) (batchType target : Bytes)
    (entries : List ChatHistoryEntry) (complete : Bool) (env : Env) (srv : Server) (reads : Nat) :
    ∃ t, HasTrace (sendHistoryBatch s batchType target entries complete) env srv reads t ∧
      Replays env srv s entries t.deliveries := by
  by_cases hcap : (srv.session s).capEnabled .batch = true
  · obtain ⟨first, n, hopen, hfirst, hparams⟩ := trace_frame s
      { tags := if complete then Map.ofList [(lit "draft/chathistory-end", [])] else ∅
        source := some { nick := env.cfg.name }, command := Verb.BATCH.name
        params := [lit "+" ++ env.world.text reads, batchType] ++
          if target ≠ [] then [target] else [] }
      rfl (by cases complete <;> rfl) env srv (reads + 1)
    obtain ⟨t, ht, hsrv, hbody⟩ := trace_entries s (env.world.text reads) entries env srv n
    obtain ⟨closing, n', hclose, hclosing, hid⟩ :=
      trace_closing s (env.world.text reads) env srv t.reads
    rw [← hsrv] at hclose
    refine ⟨⟨(), t.srv, n', first :: (t.deliveries ++ closing)⟩, .config (.server ?_),
      .batch ⟨reads, rfl⟩ hcap hfirst ⟨hfirst.command, by rw [hparams]; rfl⟩ hbody hclosing hid⟩
    simp only [hcap, not_true_eq_false, if_false]
    exact .randText (hopen.bind (f := fun _ => _) (ht.bind (f := fun _ => _) hclose))
  · obtain ⟨t, ht, -, hds⟩ := trace_entries s [] entries env srv reads
    refine ⟨t, .config (.server ?_), .bare hds⟩
    rw [if_pos hcap]
    exact ht

/-! ## HasAnswer -/

/-- A message that refuses a command. -/
structure Refusal (m : Message) : Prop extends Unframed m where
  privmsg : m.command ≠ Verb.PRIVMSG.name
  notice : m.command ≠ Verb.NOTICE.name

def Server.Knows (srv : Server) (e : ChatHistoryEntry) : Prop :=
  srv.Holds e ∨ e.verb = .CHATHISTORY ∧ e.msg.tags = ∅

/-- What `CHATHISTORY` sends. -/
inductive Answer (env : Env) (srv : Server) (s : SessionId) (ds : List Delivery) : Prop
  | refusal (h : ∀ d ∈ ds, Refusal d.msg)
  | replay {entries : List ChatHistoryEntry} (hknown : ∀ e ∈ entries, srv.Knows e)
      (h : Replays env srv s entries ds)

def HasAnswer (s : SessionId) (m : M Unit) (env : Env) (srv : Server) (reads : Nat) : Prop :=
  ∃ t, HasTrace m env srv reads t ∧ Answer env srv s t.deliveries

theorem Replayed.unframed (h : Replayed srv s batchID e d) (he : Unframed e.msg) :
    Unframed d.msg := by
  have hentry : Unframed (entryMessage batchID e) :=
    ⟨(lookup_entryMessage (by decide)).trans he.label, he.command⟩
  exact hentry.shown h.shown

theorem Replayed.batch (h : Replayed srv s batchID e d) (hid : batchID ≠ [])
    (hcap : (srv.session s).capEnabled .batch = true) :
    d.msg.tags.lookup (lit "batch") = some batchID := by
  rw [h.shown.tag _ (by decide) (by decide)]
  refine (if_pos hcap).trans ?_
  rw [entryMessage, if_pos hid, Map.lookup_insert_eq, if_pos rfl]

/-- **An answer to `CHATHISTORY` is a batch, or it has no frames.** -/
theorem Answer.responds (h : Answer env srv s ds)
    (htext : ∀ n, env.world.text n ≠ []) (hholds : ∀ e, srv.Holds e → Unframed e.msg) :
    (∀ d ∈ ds, d.msg.label = none) ∧ Responds (captures (ds.filter (·.session = s))) := by
  cases h with
  | refusal h => exact responds_of_unframed fun d hd => (h d hd).toUnframed
  | @replay entries hknown h =>
    have hentry : ∀ e ∈ entries, Unframed e.msg := by
      intro e he
      rcases hknown e he with hheld | ⟨hverb, htags⟩
      · exact hholds e hheld
      · refine ⟨by rw [htags]; rfl, ?_⟩
        rw [e.command_eq, hverb]
        decide
    have hbody {batchID : Bytes} {ds : List Delivery}
        (h : (entries.filter fun e => (srv.session s).sees e.msg).Forall₂ (Replayed srv s batchID) ds)
        (d : Delivery) (hd : d ∈ ds) : ∃ e, Unframed e.msg ∧ Replayed srv s batchID e d := by
      obtain ⟨e, he, hrel⟩ := h.exists_of_mem hd
      exact ⟨e, hentry e (mem_filter.1 he).1, hrel⟩
    cases h with
    | bare h =>
      refine responds_of_unframed fun d hd => ?_
      obtain ⟨e, he, hrel⟩ := hbody h d hd
      exact hrel.unframed he
    | @batch id hissued first body closing hcap hfirst hopens h hclosing hid =>
      obtain ⟨n, rfl⟩ := hissued
      obtain ⟨last, rfl⟩ := length_eq_one_iff.1 (hid (htext n))
      obtain ⟨hlast, hcloses⟩ := hclosing last (by simp)
      have hmem : ∀ d ∈ first :: (body ++ [last]),
          Frame s d ∨ ∃ e, Unframed e.msg ∧ Replayed srv s (env.world.text n) e d := by
        intro d hd
        simp only [mem_cons, mem_append, not_mem_nil, or_false] at hd
        rcases hd with rfl | hd | rfl
        · exact .inl hfirst
        · exact .inr (hbody h d hd)
        · exact .inl hlast
      have hlabel : ∀ d ∈ first :: (body ++ [last]), d.msg.label = none := fun d hd =>
        (hmem d hd).elim (·.label) fun ⟨_, he, hrel⟩ => (hrel.unframed he).label
      have hall := captures_eq (s := s)
        (fun d hd => (hmem d hd).elim (·.session) fun ⟨_, _, hrel⟩ => hrel.session)
        (fun d hd => (hmem d hd).elim (·.immediate) fun ⟨_, _, hrel⟩ => hrel.immediate)
      refine ⟨hlabel, .inr ?_⟩
      rw [hall]
      refine ⟨?_, env.world.text n, first.msg, body.map Delivery.msg, last.msg, by simp,
        hopens, hcloses, ?_⟩
      · exact forall_mem_map.2 hlabel
      · refine forall_mem_map.2 fun d hd => ?_
        obtain ⟨e, -, hrel⟩ := hbody h d hd
        exact hrel.batch (htext n) hcap

theorem Shown.refusal {out : Message} (h : Shown srv s msg out) (hmsg : Refusal msg) :
    Refusal out where
  toUnframed := hmsg.toUnframed.shown h
  privmsg := h.command ▸ hmsg.privmsg
  notice := h.command ▸ hmsg.notice

/-! ## Replies -/

/-- The entries that `CHATHISTORY` is to replay. -/
def Server.requested (srv : Server) (s : SessionId) (msg : Message) : List ChatHistoryEntry :=
  let u := srv.session s
  let subcommand := toUpper (msg.param 0)
  if ¬ u.capEnabled .chatHistory then []
  else if subcommand = lit "TARGETS" then []
  else if msg.params.length ≠ (if subcommand = lit "BETWEEN" then 5 else 4) then []
  else
    ((atoi (msg.params.getLastD [])).toOption.filter (0 < ·)).elim [] fun limit =>
      (storedHistory srv u (msg.param 1)).elim [] fun stored =>
        (selectChatHistory stored.2 subcommand (msg.params.drop 2).dropLast
          (min limit chatHistoryLimit)).toOption.elim [] Prod.fst

/-- The entries that a `CHATHISTORY` of a session replays. -/
def Server.selection (srv : Server) (s : SessionId) (msg : Message) : List ChatHistoryEntry :=
  if (srv.session s).state = .registered then srv.requested s msg else []

/-- What `CHATHISTORY` sends if it selects these entries. -/
inductive Reply (env : Env) (srv : Server) (s : SessionId) (selected : List ChatHistoryEntry)
    (ds : List Delivery) : Prop
  | refusal (hnone : selected = []) (h : ∀ d ∈ ds, Refusal d.msg)
  | targets (hnone : selected = []) {entries : List ChatHistoryEntry}
      (hmade : ∀ e ∈ entries, e.verb = .CHATHISTORY ∧ e.msg.tags = ∅)
      (h : Replays env srv s entries ds)
  | replay (h : Replays env srv s selected ds)

def HasReply (s : SessionId) (selected : List ChatHistoryEntry) (m : M Unit) (env : Env)
    (srv : Server) (reads : Nat) : Prop :=
  ∃ t, HasTrace m env srv reads t ∧ Reply env srv s selected t.deliveries

theorem Reply.answer (h : Reply env srv s selected ds) (hholds : ∀ e ∈ selected, srv.Holds e) :
    Answer env srv s ds := by
  cases h with
  | refusal _ h => exact .refusal h
  | targets _ hmade h => exact .replay (fun e he => .inr (hmade e he)) h
  | replay h => exact .replay (fun e he => .inl (hholds e he)) h

theorem hasReply_server {f : Server → M Unit} (h : HasReply s selected (f srv) env srv reads) :
    HasReply s selected (server >>= f) env srv reads := h

theorem hasReply_send (h : Refusal msg) :
    HasReply s [] (send s msg) env srv reads := by
  obtain ⟨t, ht, hds⟩ := traced_send (fun _ _ hout => hout.refusal h) env srv reads
  exact ⟨t, ht, .refusal rfl hds⟩

theorem hasReply_sendNumeric {n : Numeric} {params : List Bytes}
    (h : n.string ≠ Verb.BATCH.name ∧ n.string ≠ Verb.PRIVMSG.name ∧ n.string ≠ Verb.NOTICE.name) :
    HasReply s [] (sendNumeric s n params) env srv reads := by
  have hmsg : Refusal { source := some { nick := env.cfg.name }, command := n.string
                        params := (srv.session s).target :: params } :=
    ⟨⟨rfl, h.1⟩, h.2.1, h.2.2⟩
  obtain ⟨t, ht, hreply⟩ := hasReply_send hmsg
  exact ⟨t, .config (.server ht), hreply⟩

theorem hasReply_sendChatHistoryFail {code subcommand text : Bytes} :
    HasReply s [] (sendChatHistoryFail s code subcommand text) env srv reads := by
  have h : Verb.FAIL.name ≠ Verb.BATCH.name ∧ Verb.FAIL.name ≠ Verb.PRIVMSG.name ∧
      Verb.FAIL.name ≠ Verb.NOTICE.name := by decide
  have hmsg : Refusal { source := some { nick := env.cfg.name }, command := Verb.FAIL.name
                        params := [Verb.CHATHISTORY.name, code, subcommand, text] } :=
    ⟨⟨rfl, h.1⟩, h.2.1, h.2.2⟩
  obtain ⟨t, ht, hreply⟩ := hasReply_send hmsg
  exact ⟨t, .config ht, hreply⟩

theorem blind_listTargets (s : SessionId) (first second : Time) :
    Blind (listTargets s first second) :=
  .bind blind_server fun _ => .bind (.bind blind_server fun _ => blind_rangeOver _ _) fun _ =>
    .bind (blind_rangeOver _ _) fun _ => .bind (blind_rangeOver _ _) fun _ => .pure _

theorem mem_listTargets {st : State} (h : e ∈ (listTargets s first second env st).1) :
    e.verb = .CHATHISTORY ∧ e.msg.tags = ∅ := by
  simp only [listTargets, bind_run, pure_run, mem_insertionSort] at h
  have h := (visit_perm _ _).mem_iff.1 h
  rcases mem_append.1 h with h | h
  · obtain ⟨_, -, he⟩ := mem_filterMap.1 h
    exact mem_targetEntry he
  · obtain ⟨_, -, he⟩ := mem_filterMap.1 h
    exact mem_targetEntry he

instance (s : SessionId) (first second : Time) : Within Onward (listTargets s first second) := by
  unfold listTargets allChannels
  infer_instance

theorem trace_listTargets (s : SessionId) (first second : Time) (env : Env) (srv : Server)
    (reads : Nat) : ∃ targets reads',
      HasTrace (listTargets s first second) env srv reads ⟨targets, srv, reads', []⟩ ∧
      ∀ e ∈ targets, e.verb = .CHATHISTORY ∧ e.msg.tags = ∅ := by
  obtain ⟨targets, srv', reads', hrun⟩ := blind_listTargets s first second env srv reads
  have hstate := hrun fun _ => {}
  have hsrv : srv' = srv := by
    have honward := within_run Onward (listTargets s first second) env ⟨srv, fun _ => {}, reads⟩
    rw [hstate] at honward
    exact honward.srv
  subst hsrv
  refine ⟨targets, reads', fun output _ => hrun output, fun e he => ?_⟩
  have he : e ∈ (listTargets s first second env ⟨srv', fun _ => {}, reads⟩).1 := by rwa [hstate]
  exact mem_listTargets he

theorem storedHistory_holds {stored : Bytes × List ChatHistoryEntry}
    (h : storedHistory srv (srv.session s) target = some stored) : ∀ e ∈ stored.2, srv.Holds e := by
  intro e he
  unfold storedHistory at h
  split at h
  · obtain ⟨ch, hch, rfl⟩ := map_eq_some_iff.1 h
    exact .channel (filter_eq_some_iff.1 hch).1 he
  · cases h
    simp only [Session.historySnapshot] at he
    cases hlookup : (srv.session s).history.lookup (toLower target) with
    | none => simp [hlookup] at he
    | some entries => exact .session ⟨_, entries, hlookup, by simpa [hlookup] using he⟩

theorem hasReply_handleChatHistoryTargets :
    HasReply s [] (handleChatHistoryTargets s msg) env srv reads := by
  unfold handleChatHistoryTargets
  split
  · exact hasReply_sendChatHistoryFail
  cases timestampParam (msg.param 1) with
  | none => exact hasReply_sendChatHistoryFail
  | some first =>
  cases timestampParam (msg.param 2) with
  | none => exact hasReply_sendChatHistoryFail
  | some second =>
  cases (atoi (msg.param 3)).toOption.filter (0 < ·) with
  | none => exact hasReply_sendChatHistoryFail
  | some limit =>
    obtain ⟨targets, reads', htargets, hmade⟩ := trace_listTargets s
      (if second.nanos < first.nanos then second else first)
      (if second.nanos < first.nanos then first else second) env srv reads
    obtain ⟨t, ht, hds⟩ := trace_sendHistoryBatch s (lit "draft/chathistory-targets") []
      (targets.take limit.toNat) (targets.length ≤ limit.toNat) env srv reads'
    exact ⟨t, htargets.bind ht, .targets rfl (fun e he => hmade e (mem_of_mem_take he)) hds⟩

/-- **`CHATHISTORY` refuses, lists targets, or replays what it selects.** -/
theorem hasReply_handleChatHistory :
    HasReply s (srv.requested s msg) (handleChatHistory s msg) env srv reads := by
  refine hasReply_server ?_
  unfold Server.requested
  dsimp only
  split
  · exact hasReply_sendNumeric (by decide)
  split
  · exact hasReply_handleChatHistoryTargets
  generalize (if toUpper (msg.param 0) = lit "BETWEEN" then 5 else 4) = arity
  split
  · exact hasReply_sendChatHistoryFail
  cases (atoi (msg.params.getLastD [])).toOption.filter (0 < ·) with
  | none => exact hasReply_sendChatHistoryFail
  | some limit =>
  cases storedHistory srv (srv.session s) (msg.param 1) with
  | none => exact hasReply_sendChatHistoryFail
  | some stored =>
    simp only [elim_some]
    generalize selectChatHistory stored.2 _ _ _ = selected
    cases selected with
    | error fault => exact hasReply_sendChatHistoryFail
    | ok result =>
      obtain ⟨t, ht, hds⟩ := trace_sendHistoryBatch s (lit "chathistory") stored.1 result.1 result.2
        env srv reads
      exact ⟨t, ht, .replay hds⟩

theorem hasReply_dispatch (h : verbOf (toUpper msg.command) = some .CHATHISTORY)
    (s : SessionId) (env : Env) (srv : Server) (reads : Nat) :
    HasReply s (srv.selection s msg) (dispatch s msg) env srv reads := by
  have hdispatch : dispatch s msg = dispatchOther s msg (toUpper msg.command) := by
    unfold dispatch
    rw [h]
  have hregistered : dispatchRegistered s msg (toUpper msg.command) = handleChatHistory s msg := by
    unfold dispatchRegistered
    rw [h]
  rw [hdispatch, dispatchOther]
  refine hasReply_server ?_
  unfold Server.selection
  by_cases hstate : (srv.session s).state = .registered
  · rw [if_neg (not_not.2 hstate), if_pos hstate, hregistered]
    exact hasReply_handleChatHistory
  · rw [if_pos hstate, if_neg hstate]
    exact hasReply_sendNumeric (by decide)

theorem selection_holds (h : e ∈ srv.selection s msg) :
    srv.Holds e := by
  unfold Server.selection Server.requested at h
  dsimp only at h
  generalize (if toUpper (msg.param 0) = lit "BETWEEN" then 5 else 4) = arity at h
  split at h
  · split at h
    · cases h
    split at h
    · cases h
    split at h
    · cases h
    cases hlimit : (atoi (msg.params.getLastD [])).toOption.filter (0 < ·) with
    | none =>
      rw [hlimit] at h
      cases h
    | some limit =>
    cases hstored : storedHistory srv (srv.session s) (msg.param 1) with
    | none =>
      rw [hlimit, hstored] at h
      cases h
    | some stored =>
      rw [hlimit, hstored] at h
      simp only [elim_some] at h
      have hselected := selectChatHistory_selected stored.2 (toUpper (msg.param 0))
        (msg.params.drop 2).dropLast (min limit chatHistoryLimit)
      revert hselected h
      generalize selectChatHistory stored.2 _ _ _ = selected
      intro h hselected
      cases selected with
      | error fault => cases h
      | ok result => exact storedHistory_holds hstored e (hselected h)
  · cases h

theorem hasAnswer_dispatch (h : verbOf (toUpper msg.command) = some .CHATHISTORY)
    (s : SessionId) (env : Env) (srv : Server) (reads : Nat) :
    HasAnswer s (dispatch s msg) env srv reads := by
  obtain ⟨t, ht, hreply⟩ := hasReply_dispatch h s env srv reads
  exact ⟨t, ht, hreply.answer fun e he => selection_holds he⟩

end

end Irc
