import GoProtocols.Irc.Proof.Step
import GoProtocols.Irc.Proof.Trace

/-!
# Captured responses

Where deliveries go: into the queue, or, while a response is captured, among its messages and its
immediate messages. `Split` says how the messages that were rendered are found again in the two
groups, and `Framed` how a response is framed.
-/

namespace Irc

open Go Prog List

variable (ds : List Delivery) {o : Output} {messages : List Message} {s : SessionId} (id : Bytes)
  (m : Message)

/-! ## Outputs -/

theorem foldl_deliverTo (output : SessionId → Output) (t : SessionId) :
    ds.foldl deliverTo output t = (ds.filter (·.session = t)).foldl Output.put (output t) := by
  induction ds generalizing output with
  | nil => rfl
  | cons d ds ih =>
    rw [foldl_cons, ih, filter_cons]
    by_cases ht : d.session = t
    · subst ht
      simp [deliverTo]
    · simp [deliverTo, ht, Function.update_of_ne (Ne.symm ht)]

def Delivery.msg (d : Delivery) : Message := d.out.msg

/-- The messages of `sendImmediate`. -/
def immediates : List Message := (ds.filter (·.immediate)).map Delivery.msg

def captures : List Message := (ds.filter (!·.immediate)).map Delivery.msg

theorem Output.foldl_put_queue (hresponse : o.response = none)
    (hcalm : o.captureImmediate = false) :
    ds.foldl Output.put o = { o with writeQueue := o.writeQueue ++ ds.map Delivery.out } := by
  induction ds generalizing o with
  | nil => simp
  | cons d ds ih =>
    have hput : o.put d = { o with writeQueue := o.writeQueue ++ [d.out] } := by
      unfold Output.put Output.deliver
      simp only [hresponse]
      split
      · simp [hcalm]
      · rfl
    have hresponse' : (o.put d).response = none := by rw [hput]; exact hresponse
    rw [foldl_cons, ih hresponse' (Output.put_captureImmediate hcalm d), hput]
    simp

theorem Output.foldl_put_capture (hresponse : o.response = some messages)
    (hcalm : o.captureImmediate = false) :
    ds.foldl Output.put o = { o with
      response := some (messages ++ captures ds)
      responseImmediate := o.responseImmediate ++ immediates ds } := by
  induction ds generalizing o messages with
  | nil => simp [captures, immediates, ← hresponse]
  | cons d ds ih =>
    cases himm : d.immediate with
    | true =>
      have hput : o.put d = { o with responseImmediate := o.responseImmediate ++ [d.msg] } := by
        unfold Output.put Output.deliver
        simp [himm, hresponse, hcalm, Delivery.msg]
      have hresponse' : (o.put d).response = some messages := by rw [hput]; exact hresponse
      rw [foldl_cons, ih hresponse' (Output.put_captureImmediate hcalm d), hput]
      simp [captures, immediates, himm]
    | false =>
      have hput : o.put d = { o with response := some (messages ++ [d.msg]) } := by
        unfold Output.put Output.deliver
        simp [himm, hresponse, hcalm, Delivery.msg]
      have hresponse' : (o.put d).response = some (messages ++ [d.msg]) := by rw [hput]
      rw [foldl_cons, ih hresponse' (Output.put_captureImmediate hcalm d), hput]
      simp [captures, immediates, himm]

/-- The output of a session while a response is captured. -/
def Output.capturing (o : Output) (label : Bytes) (messages immediate : List Message) : Output :=
  { o with responseLabel := label, response := some messages, responseImmediate := immediate }

/-- The outputs while the response of a session is captured. -/
def capturing (output : SessionId → Output) (s : SessionId) (label : Bytes)
    (messages immediate : List Message) : SessionId → Output :=
  Function.update output s ((output s).capturing label messages immediate)

section
variable {output : SessionId → Output} {s : SessionId} {label : Bytes}
  {messages immediate : List Message}

theorem beginResponse_run (s : SessionId) (label : Bytes) (env : Env) (st : State) :
    beginResponse s label env st =
      ((), { st with output := capturing st.output s label [] [] }) := rfl

theorem Calm.capturing (h : Calm output) : Calm (capturing output s label messages immediate) :=
  h.update (h s)

theorem foldl_capturing_self (hcalm : Calm output) (ds : List Delivery) :
    ds.foldl deliverTo (capturing output s label messages immediate) s =
      (output s).capturing label (messages ++ captures (ds.filter (·.session = s)))
        (immediate ++ immediates (ds.filter (·.session = s))) := by
  rw [foldl_deliverTo, capturing, Function.update_self,
    Output.foldl_put_capture (ds.filter (·.session = s)) rfl]
  · rfl
  · exact hcalm s

end

/-! ## Groups -/

/-- Every message that was rendered is in one of the groups, once, and each group is in order. -/
structure Split (rendered immediate captured : List Message) : Prop where
  sublist_immediate : immediate.Sublist rendered
  sublist_captured : captured.Sublist rendered
  perm : (immediate ++ captured).Perm rendered

theorem Split.append {r i c r' i' c' : List Message} (h : Split r i c) (h' : Split r' i' c') :
    Split (r ++ r') (i ++ i') (c ++ c') where
  sublist_immediate := h.sublist_immediate.append h'.sublist_immediate
  sublist_captured := h.sublist_captured.append h'.sublist_captured
  perm := by
    refine List.Perm.trans ?_ (h.perm.append h'.perm)
    rw [append_assoc, append_assoc]
    refine .append_left i ?_
    rw [← append_assoc, ← append_assoc]
    exact .append_right c' perm_append_comm

theorem split_deliveries :
    Split (ds.map Delivery.msg) (immediates ds) (captures ds) where
  sublist_immediate := filter_sublist.map _
  sublist_captured := filter_sublist.map _
  perm := by
    rw [immediates, captures, ← map_append]
    exact (filter_append_perm _ ds).map _

/-! ## Frames -/

def Message.label (m : Message) : Option Bytes := m.tags.lookup (lit "label")

def Opens : Prop :=
  m.command = Verb.BATCH.name ∧ m.params.head? = some (lit "+" ++ id)

def Closes : Prop :=
  m.command = Verb.BATCH.name ∧ m.params = [lit "-" ++ id]

/-- Messages that are a batch: all but the first and the last are in it. -/
structure IsBatch (id : Bytes) (first : Message) (body : List Message) (last : Message) : Prop where
  opens : Opens id first
  closes : Closes id last
  inside : ∀ m ∈ body, m.tags.lookup (lit "batch") = some id

/-- How captured messages are framed: by an `ACK` if there are none, by the label if there is one, or
if they are a batch, and by a batch of their own otherwise. -/
inductive Framed (label : Bytes) : List Message → List Message → Prop
  | ack {m : Message} (hcommand : m.command = Verb.ACK.name) (hlabel : m.label = some label) :
      Framed label [] [m]
  | single (m : Message) : Framed label [m] [m.setTag (lit "label") label]
  | history {id : Bytes} {first last : Message} {body : List Message}
      (h : IsBatch id first body last) :
      Framed label (first :: (body ++ [last]))
        (first.setTag (lit "label") label :: (body ++ [last]))
  | batch {id : Bytes} {first last : Message} {captured : List Message}
      (hcaptured : 2 ≤ captured.length)
      (h : IsBatch id first (captured.map (·.setTag (lit "batch") id)) last)
      (hfirst : first.label = some label) (hlast : last.label = none) :
      Framed label captured (first :: (captured.map (·.setTag (lit "batch") id) ++ [last]))

/-- **Exactly one message of a response has the label.** -/
theorem Framed.filterMap_label {label : Bytes} {captured framed : List Message}
    (h : Framed label captured framed) (hcaptured : ∀ m ∈ captured, m.label = none) :
    framed.filterMap Message.label = [label] := by
  have hset (m : Message) : (m.setTag (lit "label") label).label = some label := by
    rw [Message.label, lookup_setTag, if_pos rfl]
  cases h with
  | ack _ hlabel => simp [hlabel]
  | single m => simp [hset]
  | history h =>
    rw [filterMap_cons_some (hset _),
      filterMap_eq_nil_iff.2 fun m hm => hcaptured m (by simp_all)]
  | @batch id first last _ _ h hfirst hlast =>
    rw [filterMap_cons_some hfirst, filterMap_eq_nil_iff.2 fun m hm => ?_]
    rcases mem_append.1 hm with hm | hm
    · obtain ⟨m', hm', rfl⟩ := mem_map.1 hm
      rw [Message.label, lookup_setTag, if_neg (by decide)]
      exact hcaptured m' hm'
    · obtain rfl := mem_singleton.1 hm
      exact hlast

theorem frameMessage_spec (s : SessionId) (verb : Verb) (params : List Bytes) (tags : Tags)
    (env : Env) (st : State) :
    let m := (frameMessage s verb params tags env st).1
    m.command = verb.name ∧ m.params = params ∧ m.label = tags.lookup (lit "label") := by
  simp only [frameMessage, responseMessage, bind_run, ite_run]
  split
  · exact ⟨rfl, rfl, rfl⟩
  · refine ⟨rfl, rfl, ?_⟩
    exact (lookup_setTag _ _ _ _).trans (if_neg (by decide))

theorem Opens.hasPrefix {id : Bytes} {m : Message} (h : Opens id m) :
    hasPrefix (m.param 0) (lit "+") = true := by
  have hparam : m.param 0 = lit "+" ++ id := by
    rw [Message.param, getD_eq_getElem?_getD, ← List.head?_eq_getElem?, h.2]
    rfl
  rw [hparam]
  simp [Go.hasPrefix]

theorem frameResponse_batch {label : Bytes} {m m' : Message} (env : Env) (st : State)
    (h : m.command ≠ Verb.BATCH.name) :
    Framed label (m :: m' :: messages)
      (frameResponse s label (m :: m' :: messages) env st).1 := by
  have hframe := frameMessage_spec s
  simp only [frameResponse, ite_run]
  rw [if_neg fun hc => h hc.1]
  simp only [bind_run, pure_run]
  refine .batch (by simp) ⟨⟨(hframe _ _ _ env _).1, ?_⟩, ⟨(hframe _ _ _ env _).1, ?_⟩, ?_⟩ ?_ ?_
  · rw [(hframe _ _ _ env _).2.1]
    rfl
  · exact (hframe _ _ _ env _).2.1
  · intro m₁ hm₁
    obtain ⟨m₂, -, rfl⟩ := mem_map.1 hm₁
    rw [lookup_setTag, if_pos rfl]
  · rw [(hframe _ _ _ env _).2.2]
    rfl
  · rw [(hframe _ _ _ env _).2.2]
    rfl

theorem frameResponse_history {label id : Bytes} {first last : Message} {body : List Message}
    (h : IsBatch id first body last) (env : Env) (st : State) :
    Framed label (first :: (body ++ [last]))
      (frameResponse s label (first :: (body ++ [last])) env st).1 := by
  have hrun : (frameResponse s label (first :: (body ++ [last])) env st).1 =
      first.setTag (lit "label") label :: (body ++ [last]) := by
    match hrest : body ++ [last] with
    | [] => simp at hrest
    | m :: messages =>
      simp only [frameResponse, ite_run]
      rw [if_pos ⟨h.opens.1, h.opens.hasPrefix⟩]
      rfl
  rw [hrun]
  exact .history h

/-- What a labeled command sends: messages of a handler, or a batch of history. -/
def Responds (captured : List Message) : Prop :=
  (∀ m ∈ captured, Unframed m) ∨
    (∀ m ∈ captured, m.label = none) ∧
      ∃ id first body last, captured = first :: (body ++ [last]) ∧ IsBatch id first body last

theorem Responds.label {captured : List Message} (h : Responds captured) :
    ∀ m ∈ captured, m.label = none :=
  h.elim (fun h m hm => (h m hm).label) (·.1)

/-- **The response to a labeled command is framed.** -/
theorem frameResponse_framed {label : Bytes} {captured : List Message} (h : Responds captured)
    (env : Env) (st : State) : Framed label captured (frameResponse s label captured env st).1 := by
  rcases h with h | ⟨-, id, first, body, last, rfl, h⟩
  · match captured, h with
    | [], _ =>
      obtain ⟨hcommand, -, hlabel⟩ := frameMessage_spec s .ACK []
        (Map.ofList [(lit "label", label)]) env st
      exact .ack hcommand hlabel
    | [m], _ => exact .single m
    | m :: m' :: messages, h => exact frameResponse_batch env st (h m (by simp)).command
  · exact frameResponse_history h env st

end Irc
