import GoProtocols.Go.Fields
import GoProtocols.Irc.Client.Negotiation
import GoProtocols.Irc.Proof.Emit
import GoProtocols.Irc.Proof.Reach
import GoProtocols.Lib.Forall2

/-!
# A list of capabilities over several lines

The server cuts its list into lines (`sendCAPList`), and the client puts it together again
(`Connection.handleLS`). `Agrees` is what is expected of the two, and `agrees_iff` says when it
holds. The client takes a line apart at all white space, not at blanks only; of two tokens with one
name it keeps the later one; and a client that is told to ask for `sasl` without a mechanism
panics when the server has mechanisms to offer.
-/

namespace Irc

open Go List

variable {fuel max : Nat} {line values : List Bytes} {cs : CAPState} {before : List Message}
  {last : Message} {name target : Bytes} {lines : List (List Bytes)} {rest : List Bytes}
  {m : Message} {msgs : List Message} (caps : List Bytes)

/-! ## Lines -/

theorem chunks_ne_nil (h : values.length ≤ fuel)
    (hne : values ≠ []) : chunks max fuel values ≠ [] := by
  intro hnil
  have hflat := chunks_flatten max h
  rw [hnil] at hflat
  exact hne hflat.symm

def room (values : List Bytes) : Nat := (values.map fun v => v.length + 1).sum

theorem room_fitting {size : Nat} (h : size ≤ max) (values : List Bytes) :
    size + room (values.take (fitting max size values)) ≤ max := by
  induction values generalizing size with
  | nil => simpa [fitting, room] using h
  | cons v values ih =>
    unfold fitting
    split
    · rename_i hfits
      have hrest := ih hfits
      simp only [take_succ_cons, room, map_cons, sum_cons] at hrest ⊢
      omega
    · simpa [room] using h

theorem length_join_sep (sep : UInt8) (values : List Bytes) :
    (join values [sep]).length ≤ room values := by
  induction values with
  | nil => simp [join, room]
  | cons v values ih =>
    cases values with
    | nil => simp [join, room]
    | cons w values =>
      simp only [join, intercalate_cons_cons, length_append, room, map_cons,
        sum_cons, length_singleton] at ih ⊢
      omega

/-- **A line is within the limit, or it is one longer value.** -/
theorem room_of_mem_chunks (h : line ∈ chunks max fuel values) :
    line ≠ [] ∧ (room line ≤ max ∨ ∃ v ∈ values, line = [v]) := by
  induction fuel generalizing values with
  | zero => cases h
  | succ fuel ih =>
    unfold chunks at h
    split at h
    · cases h
    · rename_i hne
      obtain ⟨v, rest, rfl⟩ := exists_cons_of_ne_nil hne
      rcases mem_cons.1 h with rfl | h
      · rcases Nat.eq_zero_or_pos (fitting max 0 (v :: rest)) with hzero | hpos
        · exact ⟨by simp [hzero], .inr ⟨v, by simp, by simp [hzero]⟩⟩
        · rw [show Nat.max 1 (fitting max 0 (v :: rest)) = fitting max 0 (v :: rest) from
            Nat.max_eq_right hpos]
          have hroom := room_fitting (Nat.zero_le max) (v :: rest)
          exact ⟨by simp [hpos.ne'], .inl (by omega)⟩
      · obtain ⟨hne, hroom | ⟨w, hw, hline⟩⟩ := ih h
        · exact ⟨hne, .inl hroom⟩
        · exact ⟨hne, .inr ⟨w, drop_subset _ _ hw, hline⟩⟩

theorem capLines_flatten : (capLines caps).flatten = caps := by
  unfold capLines
  split
  · rename_i hnil
    rw [hnil]
    rfl
  · exact chunks_flatten 400 le_rfl

theorem capLines_ne_nil : capLines caps ≠ [] := by
  unfold capLines
  split
  · simp
  · exact chunks_ne_nil le_rfl ‹_›

theorem length_of_mem_capLines {caps : List Bytes} (h : line ∈ capLines caps) :
    (join line (lit " ")).length ≤ 400 ∨ ∃ v ∈ caps, line = [v] := by
  unfold capLines at h
  split at h
  · rw [mem_singleton.1 h]
    exact .inl (by decide)
  · exact (room_of_mem_chunks h).2.imp_left (length_join_sep 32 line).trans

theorem capParams_concat (lines : List (List Bytes)) (line : List Bytes) :
    capParams (lines ++ [line]) =
      (lines.map fun l => [lit "*", join l (lit " ")]) ++ [[join line (lit " ")]] := by
  induction lines with
  | nil => rfl
  | cons l lines ih =>
    obtain ⟨next, rest, hnext⟩ := exists_cons_of_ne_nil
      (show lines ++ [line] ≠ [] by simp)
    rw [cons_append, map_cons, cons_append, ← ih, hnext]
    rfl

/-! ## Tokens -/

def Message.tokens (m : Message) : List Bytes :=
  fields (if m.param 2 = lit "*" then m.param 3 else m.param 2)

variable {tokens : List Bytes}

theorem builtinOf_cap (h : m.command = Verb.CAP.name) : builtinOf m = some .cap := by
  rw [builtinOf, h]
  decide

def advertisedBy (tokens : List Bytes) : Map Bytes Bytes := Map.ofList (tokens.map cutToken)

theorem advertise_advertisedBy
    (h : cs.advertised = advertisedBy tokens) (tokens' : List Bytes) :
    (cs.advertise tokens').advertised = advertisedBy (tokens ++ tokens') := by
  simp only [CAPState.advertise, h, advertisedBy, Map.ofList, Map.insertAll, map_append,
    foldl_append]

theorem noSpace_iff_cutToken (t : Bytes) :
    NoSpace t ↔ NoSpace (cutToken t).1 ∧ NoSpace (cutToken t).2 := by
  unfold cutToken
  cases hcut : cut t 61 with
  | none => simp [noSpace_nil]
  | some p =>
    obtain ⟨name, value⟩ := p
    obtain ⟨-, ht⟩ := cut_eq_some.1 hcut
    have heq : isSpace (61 : UInt8).toNat = false := by decide
    rw [ht, noSpace_append_ascii (by decide), heq]
    simp

theorem mem_of_lookup_advertisedBy {value : Bytes}
    (h : (advertisedBy tokens).lookup name = some value) :
    ∃ t ∈ tokens, cutToken t = (name, value) := by
  have hall : (advertisedBy tokens).All fun k v => ∃ t ∈ tokens, cutToken t = (k, v) :=
    Map.all_empty.insertAll (forall_mem_map.2 fun t ht => ⟨t, ht, rfl⟩)
  exact hall.of_lookup h

theorem lookup_advertisedBy
    (h : ∀ t ∈ tokens, ∀ t' ∈ tokens, (cutToken t).1 = (cutToken t').1 →
      (cutToken t).2 = (cutToken t').2) {value : Bytes} :
    (advertisedBy tokens).lookup name = some value ↔ ∃ t ∈ tokens, cutToken t = (name, value) := by
  refine ⟨mem_of_lookup_advertisedBy, ?_⟩
  rintro ⟨t, ht, hcut⟩
  obtain ⟨value', hvalue'⟩ : ∃ value', (advertisedBy tokens).lookup name = some value' :=
    Map.exists_lookup_insertAll (.inr ⟨value, mem_map.2 ⟨t, ht, hcut⟩⟩)
  obtain ⟨t', ht', hcut'⟩ := mem_of_lookup_advertisedBy hvalue'
  have heq := h t' ht' t ht (by rw [hcut, hcut'])
  rw [hcut, hcut'] at heq
  exact hvalue'.trans (congrArg some heq)

/-! ## The messages of the lines -/

/-- The message of a line that is marked. -/
structure MarkedLine (target : Bytes) (line : List Bytes) (m : Message) : Prop where
  command : m.command = Verb.CAP.name
  params : m.params = [target, lit "LS", lit "*", join line (lit " ")]

/-- The message of the last line. -/
structure LastLine (target : Bytes) (line : List Bytes) (m : Message) : Prop where
  command : m.command = Verb.CAP.name
  params : m.params = [target, lit "LS", join line (lit " ")]

theorem read_capParams
    (h : List.Forall₂ (fun m m' : Message => m'.command = m.command ∧ m'.params = m.params)
      ((capParams (lines ++ [line])).map (capMessage name target (lit "LS"))) msgs) :
    ∃ before last, msgs = before ++ [last] ∧ List.Forall₂ (MarkedLine target) lines before ∧
      LastLine target line last := by
  rw [capParams_concat] at h
  induction lines generalizing msgs with
  | nil =>
    obtain _ | ⟨⟨hcommand, hparams⟩, hnil⟩ := h
    cases hnil
    exact ⟨[], _, rfl, .nil, hcommand, hparams⟩
  | cons l lines ih =>
    obtain _ | ⟨⟨hcommand, hparams⟩, hrest⟩ := h
    obtain ⟨before, last, rfl, hbefore, hlast⟩ := ih hrest
    exact ⟨_ :: before, last, rfl, .cons ⟨hcommand, hparams⟩ hbefore, hlast⟩

theorem fields_join_whole (h : ∀ t ∈ line, t ≠ [] ∧ NoSpace t) :
    fields (join line (lit " ")) = line := by
  rw [fields_join]
  induction line with
  | nil => rfl
  | cons t line ih =>
    obtain ⟨hne, hspace⟩ := h t (by simp)
    rw [flatMap_cons, fields_eq_singleton hspace hne, ih (forall_mem_cons.1 h).2]
    rfl

theorem MarkedLine.read (h : MarkedLine target line m)
    (hline : ∀ t ∈ line, t ≠ [] ∧ NoSpace t) : m.tokens = line := by
  rw [Message.tokens, Message.param, Message.param, h.params]
  exact fields_join_whole hline

theorem LastLine.read (h : LastLine target line m)
    (hline : ∀ t ∈ line, t ≠ [] ∧ NoSpace t) (hstar : lit "*" ∉ line) :
    m.param 2 ≠ lit "*" ∧ m.tokens = line := by
  have hparam : m.param 2 = join line (lit " ") := by rw [Message.param, h.params]; rfl
  have hfields := fields_join_whole hline
  have hne : m.param 2 ≠ lit "*" := by
    intro hp
    rw [← hparam, hp, show fields (lit "*") = [lit "*"] by decide] at hfields
    exact hstar (by simp [← hfields])
  rw [Message.tokens, if_neg hne, hparam]
  exact ⟨hparam ▸ hne, hfields⟩

theorem flatMap_tokens
    (h : List.Forall₂ (MarkedLine target) lines before)
    (hlines : ∀ line ∈ lines, ∀ t ∈ line, t ≠ [] ∧ NoSpace t) :
    before.flatMap Message.tokens = lines.flatten := by
  induction h with
  | nil => rfl
  | cons h _ ih =>
    rw [flatMap_cons, flatten_cons, h.read (hlines _ (by simp)),
      ih (forall_mem_cons.1 hlines).2]

theorem legible_capMessage (hname : 32 ∉ name) (htarget : Word target) (hrest : Readable rest) :
    Legible (capMessage name target (lit "LS") rest) :=
  legible_from (by simpa [Prefix.string, Prefix.isServer] using hname) (known_verb .CAP)
    (.word_cons htarget (.word_cons (by decide) hrest))

theorem writeQueue_foldl_deliver {o : Output} (h : o.response = none) (outs : List Outbound) :
    (outs.foldl Output.deliver o).writeQueue = o.writeQueue ++ outs := by
  induction outs generalizing o with
  | nil => simp
  | cons out outs ih =>
    have hdeliver : o.deliver out = { o with writeQueue := o.writeQueue ++ [out] } := by
      simp only [Output.deliver, h]
    have hrest : (outs.foldl Output.deliver (o.deliver out)).writeQueue =
        (o.deliver out).writeQueue ++ outs := ih (by rw [hdeliver]; exact h)
    rw [foldl_cons, hrest, hdeliver]
    simp

/-! ## The client -/

section
variable [UnicodeTables] {μ : Type} {cfg : ClientConfig μ} {c : Connection μ}

theorem dispatch_LS (hm : m.IsServerCap (lit "LS")) (hc : c.panicked = false) :
    c.dispatch cfg m = c.handleLS cfg m := by
  obtain ⟨hcommand, hlen, hsub⟩ := hm
  rw [Connection.dispatch, hc, builtinOf_cap hcommand]
  show c.handleCAP cfg m = _
  rw [Connection.handleCAP, if_neg (not_lt.2 hlen)]
  exact if_pos hsub

/-- A connection that has been told of capabilities, and no more. -/
structure Connection.Told (c : Connection μ) (tokens : List Bytes) : Prop where
  advertised : c.capState.advertised = advertisedBy tokens
  enabled : c.capState.enabled = ∅
  panicked : c.panicked = false

theorem Connection.Told.marked (h : c.Told tokens) (cfg : ClientConfig μ)
    (hm : m.IsServerCap (lit "LS")) (hmark : m.param 2 = lit "*") :
    (c.dispatch cfg m).1.Told (tokens ++ m.tokens) ∧ (c.dispatch cfg m).2 = [] := by
  rw [dispatch_LS hm h.panicked, Connection.handleLS]
  simp only [hmark, if_true, Message.tokens]
  exact ⟨⟨advertise_advertisedBy h.advertised _, h.enabled, h.panicked⟩, trivial⟩

/-- What the client knows when it decides what to ask for. -/
def knowing (tokens : List Bytes) : CAPState :=
  { advertised := advertisedBy tokens
    enabled := (∅ : Map Bytes Bool).insert Capability.capNotify.name true }

theorem capWantList_congr {cs' : CAPState} (hadvertised : cs.advertised = cs'.advertised)
    (henabled : cs.enabled = cs'.enabled) : cs.capWantList cfg = cs'.capWantList cfg := by
  have hwants : cs.wants cfg = cs'.wants cfg := by
    funext cap
    rw [CAPState.wants, CAPState.wants, hadvertised, henabled]
  have hfrom (caps seen : List Bytes) : cs.wantFrom cfg seen caps = cs'.wantFrom cfg seen caps := by
    induction caps generalizing seen with
    | nil => rfl
    | cons cap caps ih => rw [CAPState.wantFrom, CAPState.wantFrom, hwants, ih, ih]
  exact hfrom _ _

/-- What the client sends after the list. -/
def reaction (cfg : ClientConfig μ) (tokens : List Bytes) : List Message :=
  match (knowing tokens).capWantList cfg with
  | none => []
  | some [] => [Connection.endMessage]
  | some want => [Connection.reqMessage want]

theorem Connection.Told.final (h : c.Told tokens) (cfg : ClientConfig μ)
    (hm : m.FinalLS) :
    (c.dispatch cfg m).1.capState.advertised = advertisedBy (tokens ++ m.tokens) ∧
      (c.dispatch cfg m).2 = reaction cfg (tokens ++ m.tokens) := by
  have hadvertised := advertise_advertisedBy h.advertised m.tokens
  have hwant : CAPState.capWantList cfg
      { c.capState.advertise m.tokens with
        enabled := (c.capState.advertise m.tokens).enabled.insert Capability.capNotify.name true } =
      (knowing (tokens ++ m.tokens)).capWantList cfg :=
    capWantList_congr hadvertised (by rw [CAPState.advertise, h.enabled]; rfl)
  rw [dispatch_LS hm.1 h.panicked, Connection.handleLS, reaction]
  simp only [Message.tokens, hm.2, if_false] at hadvertised hwant ⊢
  rw [hwant]
  cases (knowing (tokens ++ fields (m.param 2))).capWantList cfg with
  | none => exact ⟨hadvertised, rfl⟩
  | some want =>
    cases want with
    | nil | cons cap want => exact ⟨hadvertised, rfl⟩

theorem after_marked (cfg : ClientConfig μ)
    (h : ∀ m ∈ msgs, m.IsServerCap (lit "LS") ∧ m.param 2 = lit "*") :
    (cfg.conversation.after msgs).Told (msgs.flatMap Message.tokens) ∧
      cfg.sent msgs = cfg.sent [] := by
  induction msgs using List.reverseRecOn with
  | nil => exact ⟨⟨rfl, rfl, rfl⟩, rfl⟩
  | append_singleton msgs m ih =>
    obtain ⟨hafter, hsent⟩ := ih (forall_mem_append.1 h).1
    obtain ⟨hm, hmark⟩ := h m (by simp)
    obtain ⟨htold, hnone⟩ := hafter.marked cfg.setDefaults hm hmark
    rw [flatMap_append, flatMap_singleton, System.after_concat, cfg.sent_concat]
    exact ⟨htold, by rw [hsent, hnone, append_nil]⟩

theorem after_list (cfg : ClientConfig μ)
    (hlists : ∀ m ∈ before ++ [last], m.IsServerCap (lit "LS"))
    (hmarked : (∀ m ∈ before, m.param 2 = lit "*") ∧ last.param 2 ≠ lit "*") :
    (cfg.conversation.after (before ++ [last])).capState.advertised =
        advertisedBy ((before ++ [last]).flatMap Message.tokens) ∧
      cfg.sent before = cfg.sent [] ∧
      cfg.sent (before ++ [last]) =
        cfg.sent [] ++ reaction cfg.setDefaults ((before ++ [last]).flatMap Message.tokens) := by
  obtain ⟨htold, hsilent⟩ := after_marked cfg fun m hm =>
    ⟨hlists m (by simp [hm]), hmarked.1 m hm⟩
  obtain ⟨hadvertised, hanswer⟩ := htold.final cfg.setDefaults
    ⟨hlists last (by simp), hmarked.2⟩
  rw [flatMap_append, flatMap_singleton, System.after_concat, cfg.sent_concat, hsilent]
  exact ⟨hadvertised, rfl, by rw [hanswer]⟩

/-! ## What the client asks for -/

theorem wantFrom_eq_none {seen caps : List Bytes} :
    cs.wantFrom cfg seen caps = none ↔ ∃ cap ∈ caps, cap ∉ seen ∧ cs.wants cfg cap = none := by
  induction caps generalizing seen with
  | nil => simp [CAPState.wantFrom]
  | cons cap caps ih =>
    rw [CAPState.wantFrom]
    split
    · rename_i hseen
      rw [ih]
      simp [hseen]
    · rename_i hseen
      cases hwants : cs.wants cfg cap with
      | none => simp [hwants, hseen]
      | some ok =>
        cases hrest : cs.wantFrom cfg (cap :: seen) caps with
        | none =>
          obtain ⟨cap', hmem, hnot, hnone⟩ := ih.1 hrest
          simp only [Option.bind_eq_bind, Option.bind_some, Option.bind_none, true_iff]
          exact ⟨cap', by simp [hmem], fun h => hnot (by simp [h]), hnone⟩
        | some want =>
          simp only [Option.bind_eq_bind, Option.bind_some, Option.pure_def, reduceCtorEq,
            false_iff]
          rintro ⟨cap', hmem, hnot, hnone⟩
          have hne : cap' ≠ cap := by
            rintro rfl
            rw [hwants] at hnone
            cases hnone
          have hmem' : cap' ∈ caps := (mem_cons.1 hmem).resolve_left hne
          have hnot' : cap' ∉ cap :: seen := fun h => (mem_cons.1 h).elim hne hnot
          have hsome := ih.2 ⟨cap', hmem', hnot', hnone⟩
          rw [hrest] at hsome
          cases hsome

/-- **The client panics** if it is to ask for `sasl`, has no mechanism, and the server has. -/
theorem capWantList_eq_none :
    (knowing tokens).capWantList cfg = none ↔
      cfg.sasl = none ∧ Capability.sasl.name ∈ cfg.requestedCaps ∧
        ∃ value ≠ [], (advertisedBy tokens).lookup Capability.sasl.name = some value := by
  have hwants (cap : Bytes) : (knowing tokens).wants cfg cap = none ↔
      cap = Capability.sasl.name ∧ cfg.sasl = none ∧
        ∃ value ≠ [], (advertisedBy tokens).lookup cap = some value := by
    have henabled : ((knowing tokens).enabled.lookup cap).getD false = true ↔
        cap = Capability.capNotify.name := by
      rw [knowing, Map.lookup_insert_eq]
      split_ifs with h <;> simp [h]
    unfold CAPState.wants
    split_ifs with hcap
    · have hname : Capability.capNotify.name ≠ Capability.sasl.name := by decide
      simp [henabled.1 hcap, hname]
    · cases hlookup : (advertisedBy tokens).lookup cap with
      | none => simp [knowing, hlookup]
      | some value =>
        simp only [knowing, hlookup]
        split_ifs with hsasl
        · simp [hsasl.1, hsasl.2]
        · simp only [false_iff]
          rintro ⟨hcap, -, value', hvalue', heq⟩
          cases heq
          exact hsasl ⟨hcap, hvalue'⟩
  have hdesired (hsasl : cfg.sasl = none) :
      Capability.sasl.name ∈ cfg.desired ↔ Capability.sasl.name ∈ cfg.requestedCaps := by
    have hdefault : Capability.sasl.name ∉ defaultCaps.map Capability.name := by decide
    rw [ClientConfig.desired, hsasl, if_neg (show ¬ (none : Option (SASL μ)).isSome = true by simp),
      append_nil, mem_append]
    refine or_iff_right fun h => ?_
    split_ifs at h
    · cases h
    · exact hdefault h
  rw [CAPState.capWantList, wantFrom_eq_none]
  constructor
  · rintro ⟨cap, hcap, -, hnone⟩
    obtain ⟨rfl, hsasl, hvalue⟩ := (hwants cap).1 hnone
    exact ⟨hsasl, (hdesired hsasl).1 hcap, hvalue⟩
  · rintro ⟨hsasl, hreq, hvalue⟩
    exact ⟨_, (hdesired hsasl).2 hreq, by simp, (hwants _).2 ⟨rfl, hsasl, hvalue⟩⟩

/-! ## The agreement -/

/-- `CAP REQ`. -/
def Message.IsReq (m : Message) : Prop :=
  m.command = Verb.CAP.name ∧ m.params.head? = some (lit "REQ")

/-- **The client puts the list together again** from the messages `before` and the message `last`:
all but the last are marked, none is too long, it knows exactly the tokens, each with its value,
and it answers once, after the last message. -/
structure Reassembles (cfg : ClientConfig μ) (tokens : List Bytes) (before : List Message)
    (last : Message) : Prop where
  lists : ∀ m ∈ before ++ [last], m.IsServerCap (lit "LS")
  marked : (∀ m ∈ before, m.param 2 = lit "*") ∧ last.param 2 ≠ lit "*"
  payload : ∀ m ∈ before ++ [last],
    (m.params.getLastD []).length ≤ 400 ∨ m.params.getLastD [] ∈ tokens
  advertised : ∀ name value,
    (cfg.conversation.after (before ++ [last])).capState.advertised.lookup name = some value ↔
      ∃ token ∈ tokens, cutToken token = (name, value)
  silent : cfg.sent before = cfg.sent []
  answer : ∃ m, cfg.sent (before ++ [last]) = cfg.sent [] ++ [m] ∧ (m.IsReq ∨ m.IsEnd)

/-- The lines are read as messages from which the client puts the list together. -/
def Agrees (cfg : ClientConfig μ) (tokens lines : List Bytes) : Prop :=
  ∃ before last, List.Forall₂ (fun line m => parse line = .ok m) lines (before ++ [last]) ∧
    Reassembles cfg tokens before last

/-- The lists that the client can put together. -/
structure Announceable (cfg : ClientConfig μ) (tokens : List Bytes) : Prop where
  whole : ∀ t ∈ tokens, NoSpace t
  consistent : ∀ t ∈ tokens, ∀ t' ∈ tokens, (cutToken t).1 = (cutToken t').1 →
    (cutToken t).2 = (cutToken t').2
  mechanism : cfg.sasl = none → Capability.sasl.name ∈ cfg.requestedCaps →
    ∀ t ∈ tokens, (cutToken t).1 = Capability.sasl.name → (cutToken t).2 = []

/-- The condition is needed. -/
theorem Reassembles.announceable
    (h : Reassembles cfg tokens before last) : Announceable cfg tokens := by
  obtain ⟨hadvertised, -, hsent⟩ := after_list cfg h.lists h.marked
  have hlookup : ∀ t ∈ tokens, (advertisedBy ((before ++ [last]).flatMap Message.tokens)).lookup
      (cutToken t).1 = some (cutToken t).2 := fun t ht =>
    hadvertised ▸ (h.advertised _ _).2 ⟨t, ht, rfl⟩
  refine ⟨fun t ht => ?_, fun t ht t' ht' hname => ?_, fun hsasl hreq t ht hname => ?_⟩
  · -- all that is advertised comes from fields
    obtain ⟨f, hf, hcut⟩ := mem_of_lookup_advertisedBy (hlookup t ht)
    obtain ⟨m, -, hf⟩ := mem_flatMap.1 hf
    have hspace := (noSpace_iff_cutToken f).1 (noSpace_of_mem_fields hf)
    rw [noSpace_iff_cutToken]
    rwa [hcut] at hspace
  · have hvalue := hlookup t ht
    rw [hname, hlookup t' ht'] at hvalue
    exact (Option.some.inj hvalue).symm
  · by_contra hvalue
    have hpanic : (knowing ((before ++ [last]).flatMap Message.tokens)).capWantList
        cfg.setDefaults = none :=
      capWantList_eq_none.2 ⟨hsasl, hreq, _, hvalue, hname ▸ hlookup t ht⟩
    obtain ⟨m, hm, -⟩ := h.answer
    rw [hsent, reaction, hpanic] at hm
    simp at hm

/-! ## Reading the lines -/

theorem parse_crlf (raw : Bytes) : parse (raw ++ lit "\r\n") = parse raw := by
  have htrim : trimRight (raw ++ lit "\r\n") (lit "\r\n") = trimRight raw (lit "\r\n") := by
    rw [show lit "\r\n" = [13, 10] by decide, show raw ++ [13, 10] = raw ++ [13] ++ [10] by simp,
      trimRight_concat (by decide), trimRight_concat (by decide)]
  rw [parse, parse, htrim]

theorem Rendered.parse {out : Outbound} (h : Rendered m out) (hm : Legible m) :
    ∃ m', Irc.parse out.line = .ok m' ∧ m'.command = m.command ∧ m'.params = m.params := by
  obtain ⟨order, horder, hline⟩ := h.line
  obtain ⟨m', hparse, hcommand, hparams⟩ := (h.legible hm).faithful order horder
  obtain ⟨tags, hout⟩ := h.eq
  rw [hout] at hcommand hparams
  exact ⟨m', by rw [hline, parse_crlf, hparse], hcommand, hparams⟩

/-- The lines that a program writes to session `s`. A response that is captured is left out of
account: `Send` makes the same lines then, and keeps the messages. -/
def linesFor (s : SessionId) (prog : M Unit) (env : Env) (st : State) : List Bytes :=
  ((prog env { st with output := fun _ => {} }).2.output s).writeQueue.map Outbound.line

section
variable {env : Env} {st : State} {s : SessionId}

/-- **What is sent as legible messages is read as it was sent.** -/
theorem Emits.parse {msgs : List Message} {prog : M Unit} {env : Env} {st : State}
    (h : ∀ st' : State, st'.srv = st.srv → Emits s msgs st' (prog env st').2)
    (hlegible : ∀ m ∈ msgs, Legible m) :
    ∃ msgs', List.Forall₂ (fun line m => Irc.parse line = .ok m) (linesFor s prog env st) msgs' ∧
      List.Forall₂ (fun m m' => m'.command = m.command ∧ m'.params = m.params) msgs msgs' := by
  obtain ⟨outs, houts, -, hout⟩ := h { st with output := fun _ => {} } rfl
  have hlines : linesFor s prog env st = outs.map Outbound.line := by
    rw [linesFor, hout, Function.update_self, writeQueue_foldl_deliver rfl]
    rfl
  rw [hlines]
  clear hlines hout h
  induction houts with
  | nil => exact ⟨[], .nil, .nil⟩
  | cons h _ ih =>
    obtain ⟨msgs', hparse, hsame⟩ := ih (forall_mem_cons.1 hlegible).2
    obtain ⟨m', hm', hcommand, hparams⟩ := h.parse (hlegible _ (by simp))
    exact ⟨m' :: msgs', .cons hm' hparse, .cons ⟨hcommand, hparams⟩ hsame⟩

theorem isServerCap_LS (hcommand : m.command = Verb.CAP.name)
    (hparams : m.params = target :: lit "LS" :: rest) : m.IsServerCap (lit "LS") := by
  have hupper : toUpper (lit "LS") = lit "LS" := toUpper_of_upper (by decide +kernel)
  refine ⟨hcommand, by simp [hparams], ?_⟩
  rw [Message.param, hparams]
  exact hupper

/-- **The client puts together what the server cut**, from lines that are read as they were sent. -/
theorem Announceable.reassembles
    (h : Announceable cfg tokens)
    (htokens : ∀ t ∈ tokens, t ≠ [] ∧ t ≠ lit "*") (hlines : capLines tokens = lines ++ [line])
    (hbefore : List.Forall₂ (MarkedLine target) lines before) (hlast : LastLine target line last) :
    Reassembles cfg tokens before last := by
  have hflat : (lines ++ [line]).flatten = tokens := hlines ▸ capLines_flatten tokens
  have hwhole : ∀ l ∈ lines ++ [line], ∀ t ∈ l, t ≠ [] ∧ NoSpace t := by
    intro l hl t ht
    have hmem : t ∈ tokens := hflat ▸ mem_flatten.2 ⟨l, hl, ht⟩
    exact ⟨(htokens t hmem).1, h.whole t hmem⟩
  have hstar : lit "*" ∉ line := fun hmem =>
    (htokens _ (hflat ▸ mem_flatten.2 ⟨line, by simp, hmem⟩)).2 rfl
  obtain ⟨hfinal, hread⟩ := hlast.read (hwhole line (by simp)) hstar
  have hlists : ∀ m ∈ before ++ [last], m.IsServerCap (lit "LS") := by
    refine forall_mem_append.2 ⟨fun m hm => ?_, forall_mem_singleton.2 ?_⟩
    · obtain ⟨l, -, hmarked⟩ := hbefore.exists_of_mem hm
      exact isServerCap_LS hmarked.command hmarked.params
    · exact isServerCap_LS hlast.command hlast.params
  have hmarked : (∀ m ∈ before, m.param 2 = lit "*") ∧ last.param 2 ≠ lit "*" := by
    refine ⟨fun m hm => ?_, hfinal⟩
    obtain ⟨l, -, hmarked⟩ := hbefore.exists_of_mem hm
    rw [Message.param, hmarked.params]
    rfl
  have hall : (before ++ [last]).flatMap Message.tokens = tokens := by
    rw [flatMap_append, flatMap_singleton, hread,
      flatMap_tokens hbefore (forall_mem_append.1 hwhole).1, ← hflat]
    simp
  obtain ⟨hadvertised, hsilent, hanswer⟩ := after_list cfg hlists hmarked
  rw [hall] at hadvertised hanswer
  have hpayload {l : List Bytes} (hl : l ∈ lines ++ [line]) :
      (join l (lit " ")).length ≤ 400 ∨ join l (lit " ") ∈ tokens := by
    refine (length_of_mem_capLines (hlines ▸ hl)).imp_right ?_
    rintro ⟨v, hv, rfl⟩
    simpa [join] using hv
  refine ⟨hlists, hmarked, forall_mem_append.2 ⟨fun m hm => ?_, forall_mem_singleton.2 ?_⟩,
    fun name value => ?_, hsilent, ?_⟩
  · obtain ⟨l, hl, hm⟩ := hbefore.exists_of_mem hm
    rw [hm.params]
    exact hpayload (by simp [hl])
  · rw [hlast.params]
    exact hpayload (by simp)
  · rw [hadvertised]
    exact lookup_advertisedBy h.consistent
  · have hwant : (knowing tokens).capWantList cfg.setDefaults ≠ none := by
      intro hnone
      obtain ⟨hsasl, hreq, value, hvalue, hlookup⟩ := capWantList_eq_none.1 hnone
      obtain ⟨t, ht, hcut⟩ := mem_of_lookup_advertisedBy hlookup
      exact hvalue (by simpa [hcut] using h.mechanism hsasl hreq t ht (by rw [hcut]))
    rw [hanswer, reaction]
    cases hlist : (knowing tokens).capWantList cfg.setDefaults with
    | none => exact absurd hlist hwant
    | some want =>
      cases want with
      | nil => exact ⟨_, rfl, .inr ⟨rfl, rfl⟩⟩
      | cons cap want => exact ⟨_, rfl, .inl ⟨rfl, rfl⟩⟩

variable (cfg)

/-- **The two sides agree on a list exactly if the client can put it together**, whatever the
session and the state of the server. -/
theorem agrees_iff (hname : 32 ∉ env.cfg.name)
    (hnick : (st.srv.session s).nick = [] ∨ isValidNick (st.srv.session s).nick = true)
    (htokens : ∀ t ∈ tokens, t ≠ [] ∧ t ≠ lit "*") :
    Agrees cfg tokens (linesFor s (sendCAPList s (lit "LS") tokens) env st) ↔
      Announceable cfg tokens := by
  constructor
  · rintro ⟨before, last, -, h⟩
    exact h.announceable
  · intro h
    obtain ⟨lines, line, hlines⟩ : ∃ lines line, capLines tokens = lines ++ [line] :=
      (eq_nil_or_concat' _).resolve_left (capLines_ne_nil tokens)
    have htarget : Word (st.srv.session s).target := by
      unfold Session.target
      split
      · decide
      · exact word_of_isValidNick (hnick.resolve_left ‹_›)
    have hclear {l : List Bytes} (hl : l ∈ capLines tokens) : Clear (join l (lit " ")) := by
      refine .join (by decide) fun t ht => ?_
      have hspace := h.whole t (capLines_flatten tokens ▸ mem_flatten.2 ⟨l, hl, ht⟩)
      exact ⟨hspace.notMem (by decide) (by decide), hspace.notMem (by decide) (by decide)⟩
    have hlegible : ∀ m ∈ (capParams (capLines tokens)).map
        (capMessage env.cfg.name (st.srv.session s).target (lit "LS")), Legible m := by
      refine forall_mem_map.2 fun rest hrest => legible_capMessage hname htarget ?_
      rw [hlines, capParams_concat] at hrest
      rcases mem_append.1 hrest with hrest | hrest
      · obtain ⟨l, hl, rfl⟩ := mem_map.1 hrest
        exact .cons (by decide) (.single (hclear (by simp [hlines, hl])).ended)
      · rw [mem_singleton.1 hrest]
        exact .single (hclear (by simp [hlines])).ended
    obtain ⟨msgs, hparse, hsame⟩ := Emits.parse (fun st' hst' => by
      have hemits := emits_sendCAPList (s := s) (lit "LS") tokens env st'
      rwa [hst'] at hemits) hlegible
    rw [hlines] at hsame
    obtain ⟨before, last, rfl, hbefore, hlast⟩ := read_capParams hsame
    exact ⟨before, last, hparse, h.reassembles htokens hlines hbefore hlast⟩

end

end

section
attribute [local instance] asciiTables

def longList : List Bytes :=
  [lit "batch", lit "sts=" ++ List.replicate 400 97, lit "sasl=PLAIN,EXTERNAL"]

theorem agrees_iff_longList :
    (capLines longList).length = 3 ∧
      Agrees plainClient longList
        (linesFor 0 (sendCAPList 0 (lit "LS") longList) (Config.still {}) {}) :=
  ⟨by decide +kernel, (agrees_iff plainClient (by decide) (.inl rfl) (by decide +kernel)).2
    ⟨by decide +kernel, by decide +kernel, by decide⟩⟩

/-- A client is to ask for `sasl` and has no mechanism: it panics when it is told of one. -/
theorem not_agrees_without_mechanism :
    let cfg : ClientConfig Plain := { requestedCaps := [lit "sasl"] }
    let tokens := [lit "sasl=PLAIN"]
    (∀ t ∈ tokens, t ≠ [] ∧ 32 ∉ t ∧ t ≠ lit "*") ∧
      ¬ Agrees cfg tokens (linesFor 0 (sendCAPList 0 (lit "LS") tokens) (Config.still {}) {}) := by
  refine ⟨by decide, ?_⟩
  rintro ⟨before, last, -, h⟩
  have hvalue := h.announceable.mechanism rfl (by decide) (lit "sasl=PLAIN") (by simp) (by decide)
  revert hvalue
  decide

end

end Irc
