import GoProtocols.Irc.Bouncer.RingBuf
import GoProtocols.Irc.ChatHistory

/-!
# The message history of the bouncer

`irc/bouncer/history`, the memory store: a ring buffer for each network and target. A store that
was created with a limit that is not positive keeps 500 messages for each target.
-/

namespace Irc

open Go List

/-! ## Model -/

/-- `Entry`. -/
structure Entry where
  time : Time
  msg : Message

instance : HistoryEntry Entry := ⟨Entry.time, Entry.msg⟩

instance : Inhabited Entry := ⟨⟨⟨0, 0⟩, { command := [] }⟩⟩

/-- `Query`; the field `Around` is not used. -/
structure Query where
  before : Option Time := none
  after : Option Time := none
  afterMsgID : Bytes := []
  limit : Int := 0

def defaultLimit : Nat := 500

/-- `MemoryStore`. -/
structure MemoryStore where
  buffers : Map Bytes (RingBuf Entry)
  limit : Nat
  limit_pos : 0 < limit
  cap_eq : ∀ k r, buffers.lookup k = some r → r.cap = limit

variable (m : MemoryStore) (limit : Int) (k : Bytes) (q : Query) (entries : List Entry)

/-- `NewMemoryStore`. -/
def newMemoryStore (limit : Int) : MemoryStore where
  buffers := ∅
  limit := if limit ≤ 0 then defaultLimit else limit.toNat
  limit_pos := by
    split
    · decide
    · exact Int.lt_toNat.2 (not_le.1 ‹_›)
  cap_eq k r h := by
    rw [AList.lookup_empty] at h
    cases h

namespace MemoryStore

def key (network target : Bytes) : Bytes := network ++ [0] ++ target

/-- Put a buffer of the right capacity into the store. -/
def set (r : RingBuf Entry) (h : r.cap = m.limit) : MemoryStore where
  buffers := m.buffers.insert k r
  limit := m.limit
  limit_pos := m.limit_pos
  cap_eq k' r' h' := by
    rw [Map.lookup_insert_eq] at h'
    split at h'
    · rw [← Option.some.inj h', h]
    · exact m.cap_eq k' r' h'

/-- The buffer under a key, or a new one. -/
def found : RingBuf Entry :=
  (m.buffers.lookup k).getD (RingBuf.new m.limit)

theorem cap_found : (m.found k).cap = m.limit := by
  unfold found
  cases h : m.buffers.lookup k with
  | none => exact (RingBuf.cap_new (by have := m.limit_pos; omega)).trans (Int.toNat_natCast _)
  | some r => exact m.cap_eq k r h

/-- `buf`: the buffer under a key, which is created if there is none. -/
def buf : MemoryStore := m.set k (m.found k) (m.cap_found k)

/-- `Append`. -/
def append (network target : Bytes) (t : Time) (msg : Message) : MemoryStore :=
  let k := key network target
  m.set k ((m.found k).push ⟨t, msg⟩) (by rw [RingBuf.cap_push, cap_found])

end MemoryStore

/-- Where the entries after the given message begin. -/
def Query.start (all : List Entry) : Nat :=
  if q.afterMsgID ≠ [] then
    match all.findIdx? fun e => msgidTag e.msg = q.afterMsgID with
    | some i => i + 1
    | none => all.length
  else 0

/-- The entry is within the bounds. -/
def Query.keeps (e : Entry) : Bool :=
  (q.before.all fun t => e.time.nanos < t.nanos) && (q.after.all fun t => t.nanos < e.time.nanos)

/-- `Query`: the entries, and the store with a buffer for the target. -/
def MemoryStore.query (network target : Bytes) (q : Query) :
    List Entry × MemoryStore :=
  let k := key network target
  let all := (m.found k).slice
  let limit := if q.limit ≤ 0 then defaultLimit else q.limit.toNat
  let result := (all.drop (q.start all)).filter q.keeps
  (if limit < result.length then result.drop (result.length - limit) else result, m.buf k)

/-- A call of the store. -/
inductive StoreCall
  | append (network target : Bytes) (t : Time) (msg : Message)
  | query (network target : Bytes) (q : Query)

def StoreCall.network : StoreCall → Bytes
  | append network _ _ _ | query network _ _ => network

namespace MemoryStore

def call : StoreCall → MemoryStore
  | .append network target t msg => m.append network target t msg
  | .query network target q => (m.query network target q).2

/-- The store after some calls. -/
def run (calls : List StoreCall) : MemoryStore := calls.foldl call m

end MemoryStore

/-! ## Specification -/

/-- What a call appends for a network and a target. -/
def StoreCall.entry (network target : Bytes) : StoreCall → Option Entry
  | append network' target' t msg =>
    if network' = network ∧ target' = target then some ⟨t, msg⟩ else none
  | query _ _ _ => none

variable (calls : List StoreCall) (network target : Bytes)

/-- All that was appended for a network and a target. -/
def appended : List Entry :=
  calls.filterMap (StoreCall.entry network target)

/-- The entries after the first one with the given message id; all of them if none is given. -/
def Query.later : List Entry :=
  if q.afterMsgID = [] then entries
  else (entries.dropWhile fun e => msgidTag e.msg ≠ q.afterMsgID).tail

/-- What a query selects from the entries that are kept: the last of those that are later than the
given message and within the bounds. -/
def Query.select : List Entry :=
  ((q.later entries).filter q.keeps).rtake (if q.limit ≤ 0 then 500 else q.limit.toNat)

/-! ## Keys -/

theorem MemoryStore.key_inj {network network' target target' : Bytes} (h : 0 ∉ network)
    (h' : 0 ∉ network') (heq : key network target = key network' target') :
    network = network' ∧ target = target' := by
  induction network generalizing network' with
  | nil =>
    cases network' with
    | nil => exact ⟨rfl, by simpa [key] using heq⟩
    | cons b network' =>
      have hb : (0 : UInt8) = b := by simpa [key] using congrArg List.head? heq
      exact absurd (by simp [hb]) h'
  | cons a network ih =>
    cases network' with
    | nil =>
      have ha : a = 0 := by simpa [key] using congrArg List.head? heq
      exact absurd (by simp [ha]) h
    | cons b network' =>
      have hcons : a :: key network target = b :: key network' target' := heq
      rw [List.cons.injEq] at hcons
      obtain ⟨rfl, rfl⟩ := ih (fun hm => h (.tail _ hm)) (fun hm => h' (.tail _ hm)) hcons.2
      exact ⟨by rw [hcons.1], rfl⟩

/-! ## Contents -/

theorem rtake_append_rtake {α : Type} (l l' : List α) (n : Nat) :
    (l.rtake n ++ l').rtake n = (l ++ l').rtake n := by
  simp only [rtake_eq_reverse_take_reverse, reverse_append, reverse_reverse,
    take_append, take_take]
  rw [Nat.min_eq_left (Nat.sub_le n _)]

namespace MemoryStore

theorem found_set {k : Bytes} {r : RingBuf Entry} (h : r.cap = m.limit)
    (k' : Bytes) : (m.set k r h).found k' = if k' = k then r else m.found k' := by
  unfold found set
  dsimp only
  rw [Map.lookup_insert_eq]
  split <;> rfl

@[simp]
theorem found_buf (k' : Bytes) : (m.buf k).found k' = m.found k' := by
  rw [buf, found_set]
  split
  · rename_i h
    rw [h]
  · rfl

@[simp]
theorem limit_call (c : StoreCall) : (m.call c).limit = m.limit := by
  cases c <;> rfl

theorem slice_found_new : ((newMemoryStore limit).found k).slice = [] := by
  unfold found newMemoryStore
  rw [AList.lookup_empty]
  rfl

/-- The contents of a buffer. -/
def contents : List Entry :=
  (m.found (key network target)).slice

theorem length_contents_le : (m.contents network target).length ≤ m.limit := by
  rw [← m.cap_found (key network target)]
  exact RingBuf.length_slice_le _

theorem contents_call {c : StoreCall} (hc : 0 ∉ c.network) {network : Bytes}
    (hn : 0 ∉ network) (target : Bytes) :
    (m.call c).contents network target =
      (m.contents network target ++ (c.entry network target).toList).rtake m.limit := by
  have hsame : (m.contents network target).rtake m.limit = m.contents network target := by
    rw [List.rtake, Nat.sub_eq_zero_of_le (m.length_contents_le network target), drop_zero]
  cases c with
  | append network' target' t msg =>
    unfold contents call append
    rw [found_set]
    by_cases h : network' = network ∧ target' = target
    · obtain ⟨rfl, rfl⟩ := h
      rw [if_pos rfl, RingBuf.slice_push, cap_found]
      simp only [StoreCall.entry, and_self, if_true, Option.toList_some]
    · have hk : key network target ≠ key network' target' := by
        intro heq
        obtain ⟨rfl, rfl⟩ := key_inj hn hc heq
        exact h ⟨rfl, rfl⟩
      simp only [if_neg hk, StoreCall.entry, if_neg h, Option.toList_none, append_nil]
      exact hsame.symm
  | query network' target' q =>
    show ((m.buf _).found _).slice = _
    rw [found_buf]
    simp only [StoreCall.entry, Option.toList_none, append_nil]
    exact hsame.symm

/-- **A buffer has the last messages appended** for its network and target, whatever else was
called. -/
theorem contents_run {calls : List StoreCall} (hcalls : ∀ c ∈ calls, 0 ∉ c.network)
    {network : Bytes} (hn : 0 ∉ network) (target : Bytes) :
    ((newMemoryStore limit).run calls).limit = (newMemoryStore limit).limit ∧
    ((newMemoryStore limit).run calls).contents network target =
      (appended calls network target).rtake (newMemoryStore limit).limit := by
  induction calls using List.reverseRecOn with
  | nil =>
    refine ⟨rfl, ?_⟩
    rw [contents]
    exact (slice_found_new limit _).trans (by simp [appended])
  | append_singleton calls c ih =>
    obtain ⟨hlimit, ih⟩ := ih (forall_mem_append.1 hcalls).1
    have hrun : (newMemoryStore limit).run (calls ++ [c]) =
        ((newMemoryStore limit).run calls).call c := by
      simp [run]
    rw [hrun]
    refine ⟨by rw [limit_call, hlimit], ?_⟩
    rw [contents_call _ (hcalls c (by simp)) hn, ih, hlimit, appended, appended,
      filterMap_append]
    rw [rtake_append_rtake]
    congr 2

end MemoryStore

/-! ## Queries -/

theorem Query.drop_start (all : List Entry) : all.drop (q.start all) = q.later all := by
  unfold Query.start Query.later
  by_cases h : q.afterMsgID = []
  · simp [h]
  · rw [if_pos h, if_neg h, dropWhile_eq_drop_findIdx_not, tail_drop]
    simp only [ne_eq, decide_not, Bool.not_not]
    cases hidx : all.findIdx? fun e => msgidTag e.msg = q.afterMsgID with
    | none =>
      rw [List.findIdx?_eq_none_iff_findIdx_eq] at hidx
      simp [hidx]
    | some i =>
      rw [List.findIdx?_eq_some_iff_findIdx_eq] at hidx
      rw [hidx.2]

theorem MemoryStore.query_eq (q : Query) :
    (m.query network target q).1 = q.select (m.contents network target) := by
  unfold query Query.select contents
  simp only [Query.drop_start, defaultLimit]
  generalize ((q.later (m.found (key network target)).slice).filter q.keeps) = result
  generalize (if q.limit ≤ 0 then 500 else q.limit.toNat) = limit
  split
  · rfl
  · rw [List.rtake, Nat.sub_eq_zero_of_le (by omega), drop_zero]

/-- **The store is a bounded log for each network and target**, and an append for one of them leaves
the others alone. -/
theorem MemoryStore.query_spec {calls : List StoreCall} (hcalls : ∀ c ∈ calls, 0 ∉ c.network)
    {network : Bytes} (hn : 0 ∉ network) (target : Bytes) (q : Query) :
    (((newMemoryStore limit).run calls).query network target q).1 =
      q.select ((appended calls network target).rtake
        (if limit ≤ 0 then 500 else limit.toNat)) ∧
    ∀ network' target' t msg, 0 ∉ network' → (network', target') ≠ (network, target) →
      ((((newMemoryStore limit).run calls).append network' target' t msg).query network target q).1 =
        (((newMemoryStore limit).run calls).query network target q).1 := by
  constructor
  · rw [query_eq, (contents_run limit hcalls hn target).2]
    rfl
  · intro network' target' t msg hn' hne
    have hother : ¬ (network' = network ∧ target' = target) := by
      rintro ⟨rfl, rfl⟩
      exact hne rfl
    have hcall := contents_call ((newMemoryStore limit).run calls)
      (c := .append network' target' t msg) hn' hn target
    simp only [StoreCall.entry, if_neg hother, Option.toList_none, append_nil] at hcall
    rw [query_eq, query_eq]
    congr 1
    refine hcall.trans ?_
    rw [List.rtake, Nat.sub_eq_zero_of_le (length_contents_le _ network target), drop_zero]

/-- Messages to one channel. -/
def threeAppends : List StoreCall :=
  [lit "a", lit "b", lit "c"].map fun id =>
    .append (lit "net") (lit "#chan") ⟨0, 0⟩
      { tags := Map.ofList [(lit "msgid", id)], command := lit "PRIVMSG" }

theorem MemoryStore.query_spec_three :
    (((newMemoryStore 2).run threeAppends).query (lit "net") (lit "#chan") { limit := 1 }).1 =
      ({ limit := 1 } : Query).select ((appended threeAppends (lit "net") (lit "#chan")).rtake 2) :=
  (query_spec 2 (by decide) (by decide) _ _).1

/-- A limit that is not positive is not taken as it is. -/
theorem MemoryStore.query_limit_zero :
    (((newMemoryStore 0).run threeAppends).query (lit "net") (lit "#chan") {}).1 ≠
      ({} : Query).select ((appended threeAppends (lit "net") (lit "#chan")).rtake (min 0 3)) := by
  intro h
  exact absurd (congrArg List.length h) (by decide +kernel)

end Irc
