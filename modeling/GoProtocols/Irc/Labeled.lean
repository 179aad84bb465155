import GoProtocols.Irc.Hub
import GoProtocols.Irc.Proof.Reach
import GoProtocols.Irc.Proof.Replay

/-!
# Labeled responses

`labeled_integrity`: whatever the sessions do at the same time, the reply to a labeled command is
what `Send` rendered for the session in the segments of that command, framed. The reason is that a
response is only captured while its command holds `dispatchMu` for writing: outside of the segments
no output captures (`Hub.Inv`), also while the command waits for a password check.
-/

namespace Irc

open Go Prog Relation List

/-! ## Specification -/

/-- The reply to a labeled command consists of the rendered messages, each once: those of
`sendImmediate` in order, then the others in order and framed. Only one message has the label. -/
def Integrity (label : Bytes) (rendered reply : List Message) : Prop :=
  ∃ immediate captured framed, Split rendered immediate captured ∧ reply = immediate ++ framed ∧
    Framed label captured framed ∧ reply.filterMap Message.label = [label]

/-! ## Frames -/

theorem blind_frameMessage (s : SessionId) (verb : Verb) (params : List Bytes) (tags : Tags) :
    Blind (frameMessage s verb params tags) := by
  refine .bind (fun env srv reads => ⟨env.cfg, srv, reads, fun _ => rfl⟩) fun cfg => ?_
  exact .bind blind_server fun _ => .ite (.pure _) (.bind blind_now fun _ => .pure _)

theorem blind_frameResponse (s : SessionId) (label : Bytes) (messages : List Message) :
    Blind (frameResponse s label messages) := by
  unfold frameResponse
  split
  · exact .bind (blind_frameMessage _ _ _ _) fun _ => .pure _
  · exact .pure _
  · refine .ite (.pure _) (.bind ?_ fun _ => ?_)
    · exact fun env srv reads => ⟨env.world.text reads, srv, reads + 1, fun _ => rfl⟩
    · exact .bind (blind_frameMessage _ _ _ _) fun _ => .bind (blind_frameMessage _ _ _ _) fun _ =>
        .pure _

/-! ## At rest -/

/-- No response is captured. -/
structure State.Resting (st : State) : Prop where
  calm : Calm st.output
  quiet : ∀ t, (st.output t).response = none
  holds : ∀ e, st.srv.Holds e → Unframed e.msg

theorem resting_init : State.Resting {} where
  calm _ := rfl
  quiet _ := rfl
  holds e he := by
    cases he with
    | channel h => cases h
    | session h =>
      obtain ⟨_, _, h, -⟩ := h
      cases h

theorem connect_resting {env : Env} {st : State} (h : st.Resting) (addr : Bytes) (secure : Bool)
    (serverName : Bytes) : (connect addr secure serverName env st).2.Resting := by
  simp only [connect, bind_run, ite_run]
  split
  · exact h
  · refine ⟨h.calm, h.quiet, fun e he => ?_⟩
    cases he with
    | channel hch he => exact h.holds e (.channel hch he)
    | @session t ht =>
      obtain ⟨key, entries, hentries, he⟩ := ht
      simp only [updateServer, Function.update_apply] at hentries
      split at hentries
      · cases hentries
      · exact h.holds e (.session ⟨key, entries, hentries, he⟩)

section
variable {α : Type} {p : Scope} {m : M α} {env : Env} {st : State}
  {s : SessionId} {label : Bytes} {captured immediate rendered : List Message} {st' : State}
  {msg : Message} {check : Check} {es : List Event} {t : Trace α}

/-! ## While a response is captured -/

/-- The response of a session is captured, and no other. -/
structure Capturing (s : SessionId) (label : Bytes) (captured immediate : List Message)
    (st : State) : Prop where
  calm : Calm st.output
  self : ∃ o : Output, st.output s = o.capturing label captured immediate
  quiet : ∀ t, t ≠ s → (st.output t).response = none
  holds : ∀ e, st.srv.Holds e → Unframed e.msg

theorem State.Resting.capturing (h : st.Resting) (s : SessionId) (label : Bytes)
    (captured immediate : List Message) :
    Capturing s label captured immediate
      { st with output := Irc.capturing st.output s label captured immediate } where
  calm := h.calm.capturing
  self := ⟨st.output s, by simp [Irc.capturing]⟩
  quiet t ht := by simpa [Irc.capturing, Function.update_of_ne ht] using h.quiet t
  holds := h.holds

/-- The state when the response of a session was taken out. -/
def State.released (st : State) (s : SessionId) : State :=
  { st with
    output := Function.update st.output s
      { st.output s with responseLabel := [], response := none, responseImmediate := [] } }

theorem Capturing.release (h : Capturing s label captured immediate st) :
    (st.released s).Resting where
  calm := h.calm.update (h.calm s)
  quiet := (Function.forall_update_iff st.output fun _ o => o.response = none).2 ⟨rfl, h.quiet⟩
  holds := h.holds

theorem Capturing.suspend (h : Capturing s label captured immediate st) :
    (suspendResponse s env st).1 = ⟨label, some captured, immediate⟩ ∧
      (suspendResponse s env st).2.Resting := by
  obtain ⟨o, ho⟩ := h.self
  refine ⟨?_, h.release⟩
  have hsaved : (suspendResponse s env st).1 =
      ⟨(st.output s).responseLabel, (st.output s).response, (st.output s).responseImmediate⟩ := rfl
  rw [hsaved, ho]
  rfl

theorem frameResponse_state (s : SessionId) (label : Bytes) (messages : List Message) (env : Env)
    (st : State) :
    ∃ reads', (frameResponse s label messages env st).2 = { st with reads := reads' } := by
  obtain ⟨framed, srv', reads', hblind⟩ := blind_frameResponse s label messages env st.srv st.reads
  have hsrv := (within_run Onward (frameResponse s label messages) env st).srv
  have hstate : frameResponse s label messages env st = _ := hblind st.output
  rw [hstate] at hsrv ⊢
  exact ⟨reads', by rw [← hsrv]⟩

theorem finishResponse_run {o : Output} (ho : st.output s = o.capturing label captured immediate)
    (env : Env) :
    finishResponse s env st =
      (immediate ++ (frameResponse s label captured env (st.released s)).1,
        (frameResponse s label captured env (st.released s)).2) := by
  have hfinish : finishResponse s env st =
      ((st.output s).responseImmediate ++ (frameResponse s (st.output s).responseLabel
          ((st.output s).response.getD []) env (st.released s)).1,
        (frameResponse s (st.output s).responseLabel
          ((st.output s).response.getD []) env (st.released s)).2) := rfl
  rw [hfinish, ho]
  rfl

theorem Capturing.finish_resting (h : Capturing s label captured immediate st) :
    (finishResponse s env st).2.Resting := by
  obtain ⟨o, ho⟩ := h.self
  obtain ⟨reads', hstate⟩ := frameResponse_state s label captured env (st.released s)
  rw [finishResponse_run ho, hstate]
  exact ⟨h.release.calm, h.release.quiet, h.holds⟩

theorem Capturing.finish (h : Capturing s label captured immediate st)
    (hsplit : Split rendered immediate captured) (hresponds : Responds captured)
    (himmediate : ∀ m ∈ immediate, m.label = none) :
    Integrity label rendered (finishResponse s env st).1 ∧ (finishResponse s env st).2.Resting := by
  obtain ⟨o, ho⟩ := h.self
  refine ⟨?_, h.finish_resting⟩
  rw [finishResponse_run ho]
  have hframed : Framed label captured (frameResponse s label captured env (st.released s)).1 :=
    frameResponse_framed hresponds env _
  refine ⟨immediate, captured, _, hsplit, rfl, hframed, ?_⟩
  rw [filterMap_append, filterMap_eq_nil_iff.2 himmediate,
    hframed.filterMap_label hresponds.label]
  rfl

/-- **A reply is queued as it is**, in one piece. -/
theorem sendPrepared_run (s : SessionId) (reply : List Message) (env : Env) (st : State) :
    ∃ queued reads', queued.map Outbound.msg = reply ∧ sendPrepared s reply env st =
      ((), ⟨st.srv, Function.update st.output s
        { st.output s with writeQueue := (st.output s).writeQueue ++ queued }, reads'⟩) := by
  induction reply generalizing st with
  | nil =>
    refine ⟨[], st.reads, rfl, ?_⟩
    rw [append_nil, Function.update_eq_self]
    rfl
  | cons msg reply ih =>
    obtain ⟨out, hout⟩ : ∃ out, render msg env st = (out, { st with reads := st.reads + 1 }) :=
      ⟨_, rfl⟩
    have hmsg : out.msg = msg := congrArg (fun r => r.1.msg) hout.symm
    obtain ⟨queued, reads', hqueued, hrun⟩ := ih
      ⟨st.srv, Function.update st.output s
        { st.output s with writeQueue := (st.output s).writeQueue ++ [out] }, st.reads + 1⟩
    refine ⟨out :: queued, reads', by rw [map_cons, hmsg, hqueued], ?_⟩
    rw [sendPrepared, forM_cons_run, bind_run, hout]
    refine hrun.trans ?_
    simp

theorem sendPrepared_resting (h : st.Resting) (s : SessionId) (reply : List Message) :
    (sendPrepared s reply env st).2.Resting := by
  obtain ⟨queued, reads', -, hrun⟩ := sendPrepared_run s reply env st
  rw [hrun]
  exact ⟨h.calm.update (h.calm s), (Function.forall_update_iff st.output
    fun _ o => o.response = none).2 ⟨h.quiet s, fun t _ => h.quiet t⟩, h.holds⟩

theorem renderedBy_eq (ht : HasTrace m env st.srv st.reads t) (s : SessionId) :
    renderedBy s m env st = (t.deliveries.filter (·.session = s)).map Delivery.msg := by
  have hrun := ht (fun _ => {}) fun _ => rfl
  unfold renderedBy
  rw [hrun]
  dsimp only
  rw [foldl_deliverTo, Output.foldl_put_queue _ rfl rfl]
  simp [Delivery.msg]

variable [UnicodeTables]

theorem Script.resting (hm : Script p m) (h : st.Resting) : (m env st).2.Resting := by
  obtain ⟨t, ht, -⟩ := hm.traced env st.srv st.reads
  have hrun := ht st.output h.calm
  refine ⟨?_, fun u => ?_, fun e he => ?_⟩
  · rw [hrun]
    exact h.calm.foldl t.deliveries
  · rw [hrun]
    dsimp only
    rw [foldl_deliverTo, Output.foldl_put_queue _ (h.quiet u) (h.calm u)]
    exact h.quiet u
  · exact ((hm.within.run env st).srv.holds e he).elim (h.holds e) id

theorem Capturing.script (h : Capturing s label captured immediate st) (hm : Script p m)
    (ht : HasTrace m env st.srv st.reads t) :
    (m env st).1 = t.value ∧ Capturing s label
      (captured ++ captures (t.deliveries.filter (·.session = s)))
      (immediate ++ immediates (t.deliveries.filter (·.session = s))) (m env st).2 := by
  have hrun := ht st.output h.calm
  obtain ⟨o, ho⟩ := h.self
  have hholds : ∀ e, (m env st).2.srv.Holds e → Unframed e.msg := fun e he =>
    ((hm.within.run env st).srv.holds e he).elim (h.holds e) id
  rw [hrun] at hholds ⊢
  refine ⟨rfl, h.calm.foldl t.deliveries, ⟨o, ?_⟩, fun u hu => ?_, hholds⟩
  · dsimp only
    rw [foldl_deliverTo, ho, Output.foldl_put_capture _ rfl (ho ▸ h.calm s)]
    rfl
  · dsimp only
    rw [foldl_deliverTo, Output.foldl_put_queue _ (h.quiet u hu) (h.calm u)]
    exact h.quiet u hu

/-! ## Segments -/

theorem trace_dispatchSegment (s : SessionId) (msg : Message) (env : Env) (srv : Server)
    (reads : Nat) (htext : ∀ n, env.world.text n ≠ [])
    (hholds : ∀ e, srv.Holds e → Unframed e.msg) :
    ∃ t, HasTrace (dispatchSegment s msg) env srv reads t ∧
      (∀ d ∈ t.deliveries, d.msg.label = none) ∧
      (t.value = none → Responds (captures (t.deliveries.filter (·.session = s)))) ∧
      (t.value ≠ none → ∀ d ∈ t.deliveries, Unframed d.msg) := by
  by_cases hreplays : msg.scope.replays = true
  · have hverb : verbOf (toUpper msg.command) = some .CHATHISTORY := of_decide_eq_true hreplays
    have hsegment : dispatchSegment s msg = (do dispatch s msg; return none) := by
      unfold dispatchSegment
      rw [hverb]
    obtain ⟨t, ht, hanswer⟩ := hasAnswer_dispatch hverb s env srv reads
    obtain ⟨hlabel, hresponds⟩ := hanswer.responds htext hholds
    refine ⟨{ t with value := none }, ?_, hlabel, fun _ => hresponds, fun h => absurd rfl h⟩
    rw [hsegment]
    intro output hcalm
    rw [bind_run, ht output hcalm]
    rfl
  · obtain ⟨t, ht, hds⟩ := (script_dispatchSegment s msg).traced env srv reads
    have hplain : ∀ d ∈ t.deliveries, Unframed d.msg := fun d hd =>
      (hds d hd).resolve_left hreplays
    obtain ⟨hlabel, hresponds⟩ := responds_of_unframed hplain
    exact ⟨t, ht, hlabel, fun _ => hresponds, fun _ => hplain⟩

/-! ## The invariant -/

/-- What is known of a goroutine. -/
def Goroutine.Sound : Goroutine → Prop
  | .idle | .waiting _ _ => True
  | .ready m | .reading m => Script .all m
  | .checking label check saved rendered =>
    (∀ ok, Script { moderates := true, logs := true } (check.next ok)) ∧
      (∀ m ∈ rendered, Unframed m) ∧
      ∃ captured immediate, saved = ⟨label, some captured, immediate⟩ ∧
        Split rendered immediate captured
  | .replying label rendered reply => Integrity label rendered reply

/-- Between the steps of the goroutines nothing is captured. -/
structure Hub.Inv (h : Hub) : Prop where
  resting : h.st.Resting
  sound : ∀ s, (h.goroutine s).Sound

theorem Hub.Inv.move {h : Hub} (hi : h.Inv) (s : SessionId) {st : State} {g : Goroutine}
    (hst : st.Resting) (hg : g.Sound) : (h.move s st g).Inv where
  resting := hst
  sound := (Function.forall_update_iff h.goroutine fun _ g => g.Sound).2 ⟨hg, fun t _ => hi.sound t⟩

theorem beginLabeled_run {o : Option Check}
    (h : dispatchSegment s msg env { st with output := capturing st.output s label [] [] } =
      (o, st')) :
    beginLabeled s label msg env st =
      o.elim (.inl (finishResponse s env st').1, (finishResponse s env st').2) fun check =>
        (.inr (check, (suspendResponse s env st').1), (suspendResponse s env st').2) := by
  rw [beginLabeled, bind_run, beginResponse_run, bind_run, h]
  cases o <;> rfl

theorem beginLabeled_sound (h : st.Resting) (htext : ∀ n, env.world.text n ≠ []) (s : SessionId)
    (label : Bytes) (msg : Message) :
    (beginLabeled s label msg env st).2.Resting ∧
      match (beginLabeled s label msg env st).1 with
      | .inl reply =>
        (Goroutine.replying label (renderedBy s (dispatchSegment s msg) env st) reply).Sound
      | .inr (check, saved) =>
        (Goroutine.checking label check saved
          (renderedBy s (dispatchSegment s msg) env st)).Sound := by
  obtain ⟨t, ht, hlabel, hresponds, hplain⟩ :=
    trace_dispatchSegment s msg env st.srv st.reads htext h.holds
  have hsplit := split_deliveries (t.deliveries.filter (·.session = s))
  obtain ⟨hvalue, hcapturing⟩ :=
    (h.capturing s label [] []).script (script_dispatchSegment s msg) ht
  have hrun := Prod.mk.eta.symm.trans (congrArg (·, _) hvalue)
  rw [renderedBy_eq ht]
  cases hcheck : t.value with
  | none =>
    rw [hcheck] at hrun
    rw [beginLabeled_run hrun]
    exact (hcapturing.finish hsplit (hresponds hcheck) (forall_mem_map.2 fun d hd =>
      hlabel d (mem_filter.1 (mem_filter.1 hd).1).1)).symm
  | some check =>
    rw [hcheck] at hrun
    rw [beginLabeled_run hrun]
    obtain ⟨hsaved, hresting⟩ := hcapturing.suspend
    exact ⟨hresting, script_next (congrArg Prod.fst hrun), forall_mem_map.2 fun d hd =>
      hplain (by simp [hcheck]) d (mem_filter.1 hd).1, _, _, hsaved, hsplit⟩

theorem endLabeled_sound (h : st.Resting) {saved : ResponseState}
    (hchecking : (Goroutine.checking label check saved rendered).Sound) (s : SessionId) :
    (endLabeled s check saved env st).2.Resting ∧
      Integrity label
        (rendered ++ renderedBy s
          (check.next (env.world.bcryptCheck check.hash check.password)) env st)
        (endLabeled s check saved env st).1 := by
  obtain ⟨hnext, hrendered, captured, immediate, rfl, hsplit⟩ := hchecking
  obtain ⟨t, ht, hds⟩ := (hnext (env.world.bcryptCheck check.hash check.password)).traced env st.srv
    st.reads
  have hplain : ∀ d ∈ t.deliveries, Unframed d.msg := fun d hd =>
    (hds d hd).resolve_left Bool.false_ne_true
  obtain ⟨-, hcapturing⟩ := (h.capturing s label captured immediate).script (hnext _) ht
  have hsplit' := hsplit.append (split_deliveries (t.deliveries.filter (·.session = s)))
  have hall : ∀ m ∈ rendered ++ (t.deliveries.filter (·.session = s)).map Delivery.msg,
      Unframed m :=
    forall_mem_append.2 ⟨hrendered, forall_mem_map.2 fun d hd => hplain d (mem_filter.1 hd).1⟩
  rw [renderedBy_eq ht]
  exact (hcapturing.finish hsplit' (.inl fun m hm => hall m (hsplit'.sublist_captured.mem hm))
    fun m hm => (hall m (hsplit'.sublist_immediate.mem hm)).label).symm

theorem dispatchCommand_resting (h : st.Resting) (s : SessionId) (msg : Message) :
    (dispatchCommand s msg env st).2.Resting := by
  rw [dispatchCommand, bind_run, server_run]
  cases responseLabel (st.srv.session s) msg with
  | none => exact (script_dispatch s msg).resting h
  | some label =>
    obtain ⟨t, ht, -⟩ := (script_dispatch s msg).traced env st.srv st.reads
    obtain ⟨-, hcapturing⟩ := (h.capturing s label [] []).script (script_dispatch s msg) ht
    exact sendPrepared_resting hcapturing.finish_resting s _

theorem handleLine_resting (h : st.Resting) (s : SessionId) (raw : Bytes) :
    (handleLine s raw env st).2.Resting := by
  by_cases hlong : inputTooLong raw = true
  · rw [handleLine_long hlong]
    exact Script.resting (p := {}) inferInstance h
  · cases hmsg : lineMessage raw with
    | none =>
      rw [handleLine_none hlong hmsg]
      exact h
    | some msg =>
      rw [handleLine_run hmsg]
      refine dispatchCommand_resting ?_ s msg
      exact Script.resting (p := {}) (m := noteIdle s) inferInstance h

theorem resting_after (hv : (ircd env).Valid es) : ((ircd env).after es).Resting := by
  refine (ircd env).invariant (I := fun _ st => st.Resting) (G := fun _ _ _ => True) resting_init
    (fun es e h _ _ => ?_) hv fun _ _ _ => trivial
  cases e with
  | connect addr secure serverName => exact connect_resting h addr secure serverName
  | disconnect s => exact Script.resting (p := .all) (m := disconnect s) inferInstance h
  | line s raw => exact handleLine_resting h s raw

theorem Hub.Inv.step {h h' : Hub} (hi : h.Inv) (htext : ∀ n, env.world.text n ≠ [])
    (hstep : Hub.Step env h h') : h'.Inv := by
  cases hstep with
  | connect addr secure serverName =>
    exact ⟨connect_resting hi.resting addr secure serverName, hi.sound⟩
  | tooLong => exact hi.move _ hi.resting (inferInstanceAs (Script .all (sendNumeric _ _ _)))
  | unlabeled =>
    refine hi.move _ ?_ (script_dispatch _ _).all
    exact Script.resting (p := {}) inferInstance hi.resting
  | labeled => exact hi.move _ (Script.resting (p := {}) inferInstance hi.resting) trivial
  | leave =>
    refine hi.move _ (Script.resting (p := {}) inferInstance hi.resting) ?_
    exact inferInstanceAs (Script .all (depart _))
  | @enter s m hready =>
    have hsound := hi.sound s
    rw [hready] at hsound
    exact hi.move s hi.resting hsound
  | operate _ hop hrest => exact hi.move _ (hop.resting hi.resting) (hrest _)
  | exit => exact hi.move _ hi.resting trivial
  | @answer s label msg reply _ _ hrun | @suspend s label msg check saved _ _ hrun =>
    obtain ⟨hresting, hsound⟩ := beginLabeled_sound hi.resting htext s label msg
    rw [hrun] at hsound
    exact hi.move s hresting hsound
  | @resume s label check saved rendered _ hchecking =>
    have hsound := hi.sound s
    rw [hchecking] at hsound
    obtain ⟨hresting, hintegrity⟩ := endLabeled_sound hi.resting hsound s
    exact hi.move s hresting hintegrity
  | @reply s label rendered reply => exact hi.move s (sendPrepared_resting hi.resting s reply) trivial

theorem Hub.Reachable.inv {h : Hub} (hr : Hub.Reachable env h)
    (htext : ∀ n, env.world.text n ≠ []) : h.Inv := by
  induction hr with
  | refl => exact ⟨resting_init, fun _ => trivial⟩
  | tail _ hstep ih => exact ih.step htext hstep

/-- **Every run of `ircd` is one of the hub.** -/
theorem Hub.reachable_after (htext : ∀ n, env.world.text n ≠ []) (hv : (ircd env).Valid es) :
    Hub.Reachable env ⟨(ircd env).after es, fun _ => .idle⟩ := by
  refine (ircd env).invariant (I := fun _ st => Hub.Reachable env ⟨st, fun _ => .idle⟩)
    (G := fun _ _ _ => True) .refl (fun es e hr hen _ => ?_) hv fun _ _ _ => trivial
  exact hr.trans (Hub.event (hr.inv htext).resting.calm hen)

theorem Hub.Reachable.answer (hr : Hub.Reachable env ⟨st, fun _ => .idle⟩) {raw : Bytes}
    {msg : Message} {reply : List Message} (hconnected : (st.srv.session s).connected = true)
    (hline : lineMessage raw = some msg)
    (hlabel : responseLabel ((noteIdle s env st).2.srv.session s) msg = some label)
    (hrun : (beginLabeled s label msg env (noteIdle s env st).2).1 = .inl reply) :
    Hub.Reachable env (.alone s (beginLabeled s label msg env (noteIdle s env st).2).2
      (.replying label (renderedBy s (dispatchSegment s msg) env (noteIdle s env st).2) reply)) := by
  generalize hst' : (noteIdle s env st).2 = st' at hlabel hrun ⊢
  have hlabeled : Hub.Step env ⟨st, fun _ => .idle⟩ (.alone s st' (.waiting label msg)) := by
    subst hst'
    exact .labeled rfl hconnected hline hlabel
  have hanswer := Hub.Step.answer (Hub.alone_free (by simp) s st') (Hub.alone_goroutine s st' _) hrun
  exact (hr.tail hlabeled).tail hanswer.alone

/-- **Labeled responses**: between the steps of the goroutines nothing is captured, and the reply to
a labeled command is what was rendered for the session in the segments of this command. It is queued
in one piece. -/
theorem labeled_integrity (env : Env) (htext : ∀ n, env.world.text n ≠ []) {h : Hub}
    (hr : Hub.Reachable env h) :
    (∀ t, (h.st.output t).response = none) ∧
      ∀ s label rendered reply, h.goroutine s = .replying label rendered reply →
        Integrity label rendered reply ∧
        ((sendPrepared s reply env h.st).2.output s).writeQueue.map Outbound.msg =
          (h.st.output s).writeQueue.map Outbound.msg ++ reply := by
  have hi := hr.inv htext
  refine ⟨hi.resting.quiet, fun s label rendered reply hs => ⟨?_, ?_⟩⟩
  · have hsound := hi.sound s
    rwa [hs] at hsound
  · obtain ⟨queued, reads', rfl, hrun⟩ := sendPrepared_run s reply env h.st
    rw [hrun]
    simp

end

section
attribute [local instance] asciiTables

def labelingClient : List Event :=
  registration 0 (lit "alice") ++ [.line 0 (lit "CAP REQ :labeled-response batch")]

theorem lusers_isSome : (lineMessage (lit "@label=x LUSERS")).isSome = true := by decide +kernel

def labeledLusers : Message := (lineMessage (lit "@label=x LUSERS")).get lusers_isSome

/-- What the server answers to it. -/
def lusersResponse : List Message ⊕ Check × ResponseState :=
  (beginLabeled 0 (lit "x") labeledLusers (Config.still {})
    (noteIdle 0 (Config.still {}) ((ircd (Config.still {})).after labelingClient)).2).1

theorem labeled_integrity_lusers :
    ∃ h rendered reply, Hub.Reachable (Config.still {}) h ∧
      h.goroutine 0 = .replying (lit "x") rendered reply ∧ 2 < reply.length ∧
      Integrity (lit "x") rendered reply := by
  have htext : ∀ n, (Config.still {}).world.text n ≠ [] := fun _ =>
    (by decide : lit "BATCH" ≠ [])
  have hv : (ircd (Config.still {})).Valid labelingClient := by decide +kernel
  have hlength : 2 < lusersResponse.elim List.length fun _ => 0 := by decide +kernel
  cases hrun : lusersResponse with
  | inl reply =>
    rw [hrun] at hlength
    have hr := (Hub.reachable_after htext hv).answer (by decide +kernel)
      (Option.some_get lusers_isSome).symm (by decide +kernel) hrun
    refine ⟨_, _, reply, hr, Hub.alone_goroutine 0 _ _, hlength, ?_⟩
    exact ((labeled_integrity _ htext hr).2 0 _ _ _ (Hub.alone_goroutine 0 _ _)).1
  | inr suspended =>
    rw [hrun] at hlength
    cases hlength

end

end Irc
