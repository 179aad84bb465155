import GoProtocols.Irc.Bouncer.Downstream
import GoProtocols.Irc.Bouncer.Members
import GoProtocols.Irc.Selection

/-!
# The order of the bouncer's history

`SelectChatHistory` asks for entries in the order of their times. The bouncer stores messages as they
come, with the time of their tag, which the upstream server chooses, or that of the clock. What it
hands over is in order exactly as long as no message comes that is earlier than one that is kept for
its target, among the targets that a client can ask for (`Timely`, `inOrder_iff`).
-/

namespace Irc

open Go System List

section
variable (cfg : BouncerConfig) (st : Upstreams) (e : Incoming) (i : Nat)
  (n : NetworkState)

/-! ## Requests -/

/-- The target is a channel that somebody has joined, or a conversation. -/
def NetworkState.Known (target : Bytes) : Prop :=
  target ∈ n.channels ∨ n.queries.lookup target = some true

instance (target : Bytes) : Decidable (n.Known target) :=
  inferInstanceAs (Decidable (_ ∨ _))

theorem NetworkState.Known.mem_keys {n : NetworkState} {target : Bytes} (h : n.Known target) :
    target ∈ n.channels.keys ++ n.queries.keys := by
  rcases h with h | h
  · exact mem_append_left _ h
  · exact mem_append_right _ (AList.lookup_isSome.1 (Option.isSome_iff_exists.2 ⟨_, h⟩))

theorem rtake_concat {α : Type} (l : List α) (a : α) {n : Nat} (h : 0 < n) :
    (l ++ [a]).rtake n = l.rtake (n - 1) ++ [a] := by
  obtain _ | n := n
  · omega
  simp [rtake_eq_reverse_take_reverse]

theorem ascending_append_toList {entries : List Entry} {new : Option Entry} :
    Ascending (entries ++ new.toList) ↔
      Ascending entries ∧ ∀ e ∈ new, ∀ old ∈ entries, old.time.nanos ≤ e.time.nanos := by
  unfold Ascending
  rw [pairwise_append]
  cases new with
  | none => simp
  | some e =>
    simp only [Option.toList_some, pairwise_singleton, mem_singleton, true_and,
      Option.mem_def, Option.some.injEq]
    refine and_congr_right fun _ => ⟨fun h e' he old hold => ?_, fun h old hold e' he => ?_⟩
    · exact he ▸ h old hold e rfl
    · exact he ▸ h e rfl old hold

theorem limit_new_le :
    (newMemoryStore cfg.historyLimit).limit ≤ maxInt.toNat := by
  have hle := cfg.historyLimit_le
  unfold newMemoryStore
  dsimp only
  split
  · decide
  · exact Int.toNat_le_toNat hle

variable [UnicodeTables]

/-- The entries that `handleChatHistory` hands to `SelectChatHistory`. -/
def retrieve (target : Bytes) : Option (List Entry) :=
  if (st.network i).Known target then
    some (st.history.query (cfg.name i) target { limit := maxInt }).1
  else none

/-- How a client is answered: with a numeric, with `FAIL`, or with entries and whether these are
all. A request for targets is handled elsewhere, and a panic is no answer. -/
inductive ChatHistoryAnswer
  | unknownCommand
  | targets
  | fail (code context text : Bytes)
  | entries (target : Bytes) (selected : List Entry) (complete : Bool)
  | panic

def DownstreamSession.handleChatHistory (ds : DownstreamSession) (msg : Message) :
    ChatHistoryAnswer :=
  if ds.caps.lookup Capability.chatHistory.name ≠ some true then .unknownCommand
  else
    let subcommand := toUpper (msg.param 0)
    if subcommand = lit "TARGETS" then .targets
    else if msg.params.length ≠ if subcommand = lit "BETWEEN" then 5 else 4 then
      .fail (lit "INVALID_PARAMS") (msg.param 0) (lit "Invalid parameters")
    else
      let target := toLower (msg.param 1)
      match (atoi (msg.params.getLastD [])).toOption.filter (0 < ·) with
      | none => .fail (lit "INVALID_PARAMS") (msg.param 0) (lit "Invalid limit")
      | some limit =>
        match ds.network.bind fun i => retrieve cfg st i target with
        | none =>
          .fail (lit "INVALID_TARGET") (msg.param 0) (lit "Messages could not be retrieved")
        | some stored =>
          let selectors := (msg.params.drop 2).dropLast
          match selectChatHistory stored subcommand selectors (min limit 50) with
          | .ok (selected, complete) => .entries target selected complete
          | .error .panic => .panic
          | .error (.error text) =>
            .fail (if contains text (lit "unsupported") then lit "INVALID_MSGREFTYPE"
              else lit "INVALID_PARAMS") (msg.param 0) text

/-! ## What a message adds -/

/-- The key and the entry under which a message is stored, if it is. -/
def filed : Option (Bytes × Entry) :=
  if e.msg.command = Verb.CAP.name then none
  else
    (((handleWelcome (st.network e.network) e.msg).track e.msg).storage e.msg).map fun s =>
      (MemoryStore.key (cfg.name e.network) s.1, ⟨stamp e.storedAt e.msg, e.msg⟩)

/-- What a message adds for a target of network `i`. -/
def added (target : Bytes) : Option Entry :=
  ((filed cfg st e).filter fun f => f.1 = MemoryStore.key (cfg.name i) target).map Prod.snd

/-- What is kept for the target when the message is handled: a full buffer drops its oldest
entry. -/
def kept (target : Bytes) : List Entry :=
  let contents := st.history.contents (cfg.name i) target
  if (added cfg st e i target).isSome then contents.rtake (st.history.limit - 1) else contents

variable (cfg : BouncerConfig) (st : Upstreams) (e : Incoming)

theorem history_receive :
    (st.receive cfg e).history = ((filed cfg st e).elim st.history fun f =>
      st.history.set f.1 ((st.history.found f.1).push f.2)
        (by rw [RingBuf.cap_push, MemoryStore.cap_found])) := by
  unfold Upstreams.receive handleUpstream filed
  split
  · rfl
  · dsimp only
    cases ((handleWelcome (st.network e.network) e.msg).track e.msg).storage e.msg with
    | none | some s => rfl

/-- **The entries after a message**: those that are kept, and the one that it adds. -/
theorem contents_receive (i : Nat) (target : Bytes) :
    (st.receive cfg e).history.contents (cfg.name i) target =
      kept cfg st e i target ++ (added cfg st e i target).toList := by
  rw [history_receive]
  unfold kept added
  cases hf : filed cfg st e with
  | none => simp
  | some f =>
    simp only [Option.elim_some]
    by_cases hk : f.1 = MemoryStore.key (cfg.name i) target
    · have hadded : (Option.filter (fun f => f.1 = MemoryStore.key (cfg.name i) target) (some f)) =
          some f := by simp [Option.filter, hk]
      rw [hadded]
      unfold MemoryStore.contents
      rw [MemoryStore.found_set, if_pos hk.symm, RingBuf.slice_push, MemoryStore.cap_found,
        rtake_concat _ _ st.history.limit_pos, hk]
      rfl
    · have hadded : (Option.filter (fun f => f.1 = MemoryStore.key (cfg.name i) target) (some f)) =
          none := by simp [Option.filter, hk]
      rw [hadded]
      unfold MemoryStore.contents
      rw [MemoryStore.found_set, if_neg (Ne.symm hk)]
      simp

theorem limit_receive : (st.receive cfg e).history.limit = st.history.limit := by
  rw [history_receive]
  cases filed cfg st e <;> rfl

/-! ## What a request finds -/

variable {cfg st e}

omit [UnicodeTables] in
theorem retrieve_eq {i : Nat} {target : Bytes} (h : (st.network i).Known target)
    (hlimit : st.history.limit ≤ maxInt.toNat) :
    retrieve cfg st i target = some (st.history.contents (cfg.name i) target) := by
  have hlen := st.history.length_contents_le (cfg.name i) target
  rw [retrieve, if_pos h, MemoryStore.query_eq]
  have hall (entries : List Entry) :
      entries.filter (Query.keeps { limit := maxInt }) = entries :=
    filter_eq_self.2 fun _ _ => rfl
  rw [Query.select, Query.later, if_pos rfl, hall, if_neg (by decide), List.rtake,
    Nat.sub_eq_zero_of_le (hlen.trans hlimit), drop_zero]

/-- What is handed to `SelectChatHistory` is in order, whatever is asked for. -/
def InOrder (cfg : BouncerConfig) (st : Upstreams) : Prop :=
  ∀ i < cfg.networks.length, ∀ target, ∀ entries ∈ retrieve cfg st i target, Ascending entries

/-- A message that is added for a target that can be asked for is not earlier than what is kept
there, and what is kept for a target that can be asked for from now on is in order. -/
def Timely (cfg : BouncerConfig) (st : Upstreams) (e : Incoming) : Prop :=
  ∀ i < cfg.networks.length, ∀ target, ((st.receive cfg e).network i).Known target →
    (∀ new ∈ added cfg st e i target, ∀ old ∈ kept cfg st e i target,
      old.time.nanos ≤ new.time.nanos) ∧
    (¬ (st.network i).Known target → Ascending (kept cfg st e i target))

instance (cfg : BouncerConfig) (st : Upstreams) (e : Incoming) : Decidable (Timely cfg st e) :=
  decidable_of_iff (∀ i < cfg.networks.length,
    ∀ target ∈ ((st.receive cfg e).network i).channels.keys ++
        ((st.receive cfg e).network i).queries.keys,
      ((st.receive cfg e).network i).Known target →
        (∀ new ∈ added cfg st e i target, ∀ old ∈ kept cfg st e i target,
          old.time.nanos ≤ new.time.nanos) ∧
        (¬ (st.network i).Known target → Ascending (kept cfg st e i target)))
    ⟨fun h i hi target hk => h i hi target hk.mem_keys hk, fun h i hi target _ => h i hi target⟩

/-- What the induction over a run keeps. -/
structure Ordered (cfg : BouncerConfig) (st : Upstreams) : Prop where
  limit : st.history.limit ≤ maxInt.toNat
  order : ∀ i < cfg.networks.length, ∀ target, (st.network i).Known target →
    Ascending (st.history.contents (cfg.name i) target)

theorem kept_sublist (target : Bytes) :
    (kept cfg st e i target).Sublist (st.history.contents (cfg.name i) target) := by
  unfold kept
  dsimp only
  split
  · exact drop_sublist _ _
  · exact List.Sublist.refl _

theorem Ordered.step (h : Ordered cfg st) (hg : Timely cfg st e) :
    Ordered cfg (st.receive cfg e) where
  limit := by
    rw [limit_receive]
    exact h.limit
  order i hi target hknown := by
    obtain ⟨hnew, hkept⟩ := hg i hi target hknown
    rw [contents_receive, ascending_append_toList]
    refine ⟨?_, hnew⟩
    by_cases hbefore : (st.network i).Known target
    · exact (h.order i hi target hbefore).sublist (kept_sublist i target)
    · exact hkept hbefore

omit [UnicodeTables] in
theorem Ordered.inOrder (h : Ordered cfg st) : InOrder cfg st := by
  intro i hi target entries hentries
  by_cases hknown : (st.network i).Known target
  · rw [retrieve_eq hknown h.limit] at hentries
    cases hentries
    exact h.order i hi target hknown
  · simp [retrieve, hknown] at hentries

theorem Ordered.timely (h : Ordered cfg st) (ho : InOrder cfg (st.receive cfg e)) :
    Timely cfg st e := by
  intro i hi target hknown
  have hlimit : (st.receive cfg e).history.limit ≤ maxInt.toNat := by
    rw [limit_receive]
    exact h.limit
  have hasc := ho i hi target _ (retrieve_eq hknown hlimit)
  rw [contents_receive, ascending_append_toList] at hasc
  exact ⟨hasc.2, fun _ => hasc.1⟩

/-- **What the bouncer hands to `SelectChatHistory` is in order, throughout exactly the runs in
which every message is timely.** -/
theorem inOrder_iff (cfg : BouncerConfig) {es : List Incoming} (hv : (upstreams cfg).Valid es) :
    (upstreams cfg).Throughout (fun _ st => InOrder cfg st) es ↔
      (upstreams cfg).Each (fun _ st e => Timely cfg st e) es := by
  refine (upstreams cfg).throughout_iff (I := fun _ st => Ordered cfg st) ?_ ?_ ?_ ?_ hv
  · refine ⟨limit_new_le cfg, fun i _ target hknown => ?_⟩
    rcases hknown with h | h
    · cases h
    · cases h
  · exact fun _ _ h => h.inOrder
  · exact fun _ _ h _ hg => h.step hg
  · exact fun _ _ h _ ho => h.timely ho

end

section
attribute [local instance] asciiTables

/-- A message to a channel, with the time that the upstream server gives it. -/
def timed (time text : Bytes) : Incoming :=
  let e := fromUser (lit "alice") .PRIVMSG [lit "#a", text]
  { e with msg := e.msg.setTag (lit "time") time }

/-- Two messages in a channel, each at its time. -/
def twoInOrder : List Incoming :=
  [fromUser (lit "alice") .JOIN [lit "#a"], timed (lit "2024-01-01T00:00:00Z") (lit "one"),
    timed (lit "2024-01-01T01:00:01+01:00") (lit "two")]

theorem inOrder_iff_two :
    (upstreams oneNetwork).Throughout (fun _ st => InOrder oneNetwork st) twoInOrder :=
  (inOrder_iff oneNetwork (by decide +kernel)).2 (by decide +kernel)

/-- A message, and then a replay of an older one. -/
def replayed : List Incoming :=
  [fromUser (lit "alice") .JOIN [lit "#a"], timed (lit "2024-01-01T00:00:01Z") (lit "new"),
    timed (lit "2024-01-01T00:00:00Z") (lit "old")]

/-- The older message is handed over after the newer one. -/
theorem not_inOrder_replayed :
    (upstreams oneNetwork).Valid replayed ∧
      ¬ InOrder oneNetwork ((upstreams oneNetwork).after replayed) := by
  refine ⟨by decide +kernel, fun h => ?_⟩
  have hretrieve : ((retrieve oneNetwork ((upstreams oneNetwork).after replayed) 0
      (lit "#a")).map fun entries => entries.map fun e => e.time.nanos) =
      some [1704067201000000000, 1704067200000000000] := by
    decide +kernel
  obtain ⟨entries, hentries, htimes⟩ := Option.map_eq_some_iff.1 hretrieve
  have hasc := h 0 (by decide) (lit "#a") entries hentries
  have hsorted : (entries.map fun e => e.time.nanos).Pairwise (· ≤ ·) :=
    pairwise_map.2 hasc
  rw [htimes] at hsorted
  exact absurd hsorted (by decide)

end

end Irc
