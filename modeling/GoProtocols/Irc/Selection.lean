import Mathlib.Data.List.DropRight
import GoProtocols.Irc.ChatHistory

/-!
# What a history request selects

A selector refers to a time or to a message (`Reference`). The entries before and after a reference
are those with an earlier or a later time, or at a smaller or a larger index.

* `select_one`: the selection by one reference depends only on what is before and after it.
-/

namespace Irc

open Go List

/-! ## Filtered entries -/

section
variable {α : Type} {entries : List α} {keep : α → Nat → Bool} {e : α} {x y : α × Nat}

theorem filterHistory_sublist (entries : List α) (keep : α → Nat → Bool) :
    (filterHistory entries keep).Sublist entries := by
  have h := (filter_sublist (p := fun e => keep e.1 e.2) (l := entries.zipIdx)).map Prod.fst
  rwa [zipIdx_map_fst] at h

theorem filterHistory_congr {keep' : α → Nat → Bool}
    (h : ∀ x ∈ entries.zipIdx, keep x.1 x.2 = keep' x.1 x.2) :
    filterHistory entries keep = filterHistory entries keep' := by
  rw [filterHistory, filterHistory, filter_congr h]

theorem filterHistory_eq_nil (h : ∀ x ∈ entries.zipIdx, keep x.1 x.2 = false) :
    filterHistory entries keep = [] := by
  rw [filterHistory, filter_eq_nil_iff.2 (by simpa using h), map_nil]

theorem kept_of_mem_filterHistory (h : e ∈ filterHistory entries keep) : ∃ i, keep e i = true := by
  obtain ⟨x, hx, rfl⟩ := mem_map.1 h
  exact ⟨x.2, (mem_filter.1 hx).2⟩

theorem mem_filterHistory_of_kept (he : e ∈ entries) (h : ∀ i, keep e i = true) :
    e ∈ filterHistory entries keep := by
  obtain ⟨i, hi, rfl⟩ := getElem_of_mem he
  refine mem_map.2 ⟨(entries[i], i), mem_filter.2 ⟨?_, h i⟩, rfl⟩
  rw [mem_zipIdx_iff_getElem?]
  exact List.getElem?_eq_getElem hi

/-- What one filter keeps can stand before what another keeps if that is how they stand in the list. -/
theorem filter_append_sublist {β : Type} {p q : β → Bool} {l : List β}
    (hself : ∀ x ∈ l, q x = true → p x = false)
    (hl : l.Pairwise fun x y => q x = true → p y = false) :
    (l.filter p ++ l.filter q).Sublist l := by
  induction l with
  | nil => simp
  | cons x l ih =>
    rw [pairwise_cons] at hl
    by_cases hq : q x = true
    · have hnil : (x :: l).filter p = [] := by
        refine filter_eq_nil_iff.2 fun y hy => ?_
        rcases mem_cons.1 hy with rfl | hy
        · simp [hself y (by simp) hq]
        · simp [hl.1 y hy hq]
      rw [hnil, nil_append]
      exact filter_sublist
    · rw [filter_cons_of_neg (p := q) hq]
      have ih := ih (fun y hy => hself y (mem_cons_of_mem _ hy)) hl.2
      by_cases hp : p x = true
      · rw [filter_cons_of_pos hp]
        exact ih.cons_cons x
      · rw [filter_cons_of_neg hp]
        exact ih.cons x

@[simp]
theorem filterHistory_false : filterHistory entries (fun _ _ => false) = [] :=
  filterHistory_eq_nil fun _ _ => rfl

/-! ## Specification -/

/-- What a selector refers to. -/
inductive Reference
  | time (t : Time)
  | message (id : Bytes)

/-- The text of a selector. -/
inductive Reference.Denoted : Reference → Bytes → Prop
  | time {t : Time} {value : Bytes} (h : parseServerTime value = some t) :
      Denoted (.time t) (lit "timestamp=" ++ value)
  | message {id : Bytes} (h : id ≠ []) : Denoted (.message id) (lit "msgid=" ++ id)

variable {a b : Reference} {first ref ref' second : MessageReference} {id : Bytes}

variable [HistoryEntry α]

def entryId (e : α) : Bytes := msgidTag (HistoryEntry.msg e)

def position (entries : List α) (id : Bytes) : Option Nat := entries.findIdx? (entryId · = id)

/-- The entry is before the reference. -/
def Reference.isBefore (entries : List α) (r : Reference) (e : α) (i : Nat) : Bool :=
  match r with
  | .time t => (HistoryEntry.time e).nanos < t.nanos
  | .message id => (position entries id).any (i < ·)

/-- The entry is after the reference. -/
def Reference.isAfter (entries : List α) (r : Reference) (e : α) (i : Nat) : Bool :=
  match r with
  | .time t => t.nanos < (HistoryEntry.time e).nanos
  | .message id => (position entries id).any (· < i)

def entriesBefore (entries : List α) (r : Reference) : List α :=
  filterHistory entries (r.isBefore entries)

def entriesAfter (entries : List α) (r : Reference) : List α :=
  filterHistory entries (r.isAfter entries)

def entriesFrom (entries : List α) (a b : Reference) : List α :=
  filterHistory entries fun e i => a.isAfter entries e i && b.isBefore entries e i

/-- The entries between two references, whichever of them comes first. -/
def entriesBetween (entries : List α) (a b : Reference) : List α :=
  filterHistory entries fun e i =>
    a.isAfter entries e i && b.isBefore entries e i ||
      b.isAfter entries e i && a.isBefore entries e i

/-- A request with valid selectors. -/
inductive Request
  | latestOfAll
  | latest (r : Reference)
  | before (r : Reference)
  | after (r : Reference)
  | around (r : Reference)
  | between (a b : Reference)

/-- The texts of a request. -/
inductive Request.Asked [UnicodeTables] : Request → Bytes → List Bytes → Prop
  | latestOfAll {sub : Bytes} (h : toUpper sub = lit "LATEST") : Asked .latestOfAll sub [lit "*"]
  | latest {sub selector : Bytes} {r : Reference} (h : toUpper sub = lit "LATEST")
      (hr : r.Denoted selector) : Asked (.latest r) sub [selector]
  | before {sub selector : Bytes} {r : Reference} (h : toUpper sub = lit "BEFORE")
      (hr : r.Denoted selector) : Asked (.before r) sub [selector]
  | after {sub selector : Bytes} {r : Reference} (h : toUpper sub = lit "AFTER")
      (hr : r.Denoted selector) : Asked (.after r) sub [selector]
  | around {sub selector : Bytes} {r : Reference} (h : toUpper sub = lit "AROUND")
      (hr : r.Denoted selector) : Asked (.around r) sub [selector]
  | between {sub first second : Bytes} {a b : Reference} (h : toUpper sub = lit "BETWEEN")
      (ha : a.Denoted first) (hb : b.Denoted second) : Asked (.between a b) sub [first, second]

/-- The number of entries that match a request. -/
def Request.matching (entries : List α) : Request → Nat
  | .latestOfAll => entries.length
  | .latest r | .after r => (entriesAfter entries r).length
  | .before r => (entriesBefore entries r).length
  | .around r => (entriesBefore entries r).length + (entriesAfter entries r).length
  | .between a b => (entriesBetween entries a b).length

/-- What a request selects, up to a limit. The two orders of the references of `BETWEEN` select from
the same entries: the earliest if these lie after the first reference and before the second, the
latest if they lie the other way round. -/
def Request.Meets (entries : List α) (limit : Nat) (selected : List α) : Request → Prop
  | .latestOfAll => selected = entries.rtake limit
  | .latest r => selected = (entriesAfter entries r).rtake limit
  | .before r => selected = (entriesBefore entries r).rtake limit
  | .after r => selected = (entriesAfter entries r).take limit
  | .around r => ∃ left right, selected =
        (entriesBefore entries r).rtake left ++ (entriesAfter entries r).take right ∧
      left ≤ (entriesBefore entries r).length ∧ right ≤ (entriesAfter entries r).length ∧
      left + right = min limit ((entriesBefore entries r).length + (entriesAfter entries r).length) ∧
      min (limit / 2) (entriesBefore entries r).length ≤ left
  | .between a b =>
    entriesBetween entries a b = entriesFrom entries a b ∧
        selected = (entriesBetween entries a b).take limit ∨
      entriesBetween entries a b = entriesFrom entries b a ∧
        selected = (entriesBetween entries a b).rtake limit

/-- The references of a request. -/
def Request.references : Request → List Reference
  | .latestOfAll => []
  | .latest r | .before r | .after r | .around r => [r]
  | .between a b => [a, b]

def Ascending (entries : List α) : Prop :=
  entries.Pairwise fun e e' => (HistoryEntry.time e).nanos ≤ (HistoryEntry.time e').nanos

instance (entries : List α) : Decidable (Ascending entries) :=
  inferInstanceAs (Decidable (Pairwise _ _))

/-- What `SelectChatHistory` has to return for a request. -/
structure Selects (entries : List α) (limit : Nat) (q : Request) (page : List α × Bool) : Prop where
  sublist : page.1.Sublist entries
  bounded : page.1.length ≤ limit
  meets : q.Meets entries limit page.1
  unknown : ∀ id, .message id ∈ q.references → position entries id = none → page.1 = []
  complete : page.2 = true ↔ page.1.length = q.matching entries

/-! ## References -/

theorem Ascending.zipIdx (h : Ascending entries) :
    entries.zipIdx.Pairwise fun x y =>
      x.2 < y.2 ∧ (HistoryEntry.time x.1).nanos ≤ (HistoryEntry.time y.1).nanos := by
  rw [pairwise_iff_getElem]
  intro i j hi hj hij
  simp only [getElem_zipIdx, Nat.zero_add]
  exact ⟨hij, pairwise_iff_getElem.1 h i j (by simpa using hi) (by simpa using hj) hij⟩

theorem Ascending.le (h : Ascending entries) (hx : x ∈ entries.zipIdx) (hy : y ∈ entries.zipIdx)
    (hlt : x.2 < y.2) : (HistoryEntry.time x.1).nanos ≤ (HistoryEntry.time y.1).nanos := by
  obtain ⟨e, i⟩ := x
  obtain ⟨e', j⟩ := y
  obtain ⟨hi, he⟩ := mem_zipIdx' hx
  obtain ⟨hj, he'⟩ := mem_zipIdx' hy
  show (HistoryEntry.time e).nanos ≤ (HistoryEntry.time e').nanos
  rw [he, he']
  exact pairwise_iff_getElem.1 h i j hi hj hlt

/-- The reference of the source stands for a reference: a time, or the place of a message. -/
inductive Stands (entries : List α) : Reference → MessageReference → Prop
  | time (t : Time) : Stands entries (.time t) { time := t }
  | message {id : Bytes} {e : α} {k : Nat} (hid : id ≠ []) (hpos : position entries id = some k)
      (hmem : (e, k) ∈ entries.zipIdx) : Stands entries (.message id) ⟨HistoryEntry.time e, id, k⟩

variable {r : Reference} {selector : Bytes}

theorem Stands.before (h : Stands entries r ref) (e : α) (i : Nat) :
    beforeReference e i ref = r.isBefore entries e i := by
  cases h with
  | time t => simp [beforeReference, Reference.isBefore]
  | message hid hpos _ => simp [beforeReference, Reference.isBefore, hid, hpos]

theorem Stands.after (h : Stands entries r ref) (e : α) (i : Nat) :
    afterReference e i ref = r.isAfter entries e i := by
  cases h with
  | time t => simp [afterReference, Reference.isAfter]
  | message hid hpos _ => simp [afterReference, Reference.isAfter, hid, hpos]

theorem find?_zipIdx {β : Type} (p : β → Bool) (l : List β) (n : Nat) :
    ((l.zipIdx n).find? fun x => p x.1).map Prod.snd = (l.findIdx? p).map (· + n) := by
  induction l generalizing n with
  | nil => rfl
  | cons x l ih =>
    rw [zipIdx_cons, List.findIdx?_cons, List.find?_cons]
    cases p x with
    | true => simp
    | false =>
      rw [ih]
      cases l.findIdx? p with
      | none => rfl
      | some k => simp [Nat.add_assoc, Nat.add_comm 1]

theorem position_eq (entries : List α) (id : Bytes) :
    position entries id = (entries.zipIdx.find? fun e => entryId e.1 = id).map Prod.snd := by
  rw [find?_zipIdx (fun e => decide (entryId e = id)) entries 0]
  simp [position]

theorem Reference.Denoted.parse (h : r.Denoted selector) (entries : List α) :
    (∃ ref, parseMessageReference entries selector = .ok (some ref) ∧ Stands entries r ref) ∨
      parseMessageReference entries selector = .ok none ∧
        ∃ id, r = .message id ∧ position entries id = none := by
  cases h with
  | @time t value h =>
    have hp : hasPrefix (lit "timestamp=" ++ value) (lit "timestamp=") = true :=
      hasPrefix_iff.2 (prefix_append _ _)
    refine .inl ⟨_, ?_, .time t⟩
    simp only [parseMessageReference, trimPrefix, hp, if_true, drop_left, h]
  | @message id hid =>
    have hp : hasPrefix (lit "msgid=" ++ id) (lit "msgid=") = true :=
      hasPrefix_iff.2 (prefix_append _ _)
    have hne : hasPrefix (lit "msgid=" ++ id) (lit "timestamp=") = false := rfl
    have hparse : parseMessageReference entries (lit "msgid=" ++ id) =
        .ok ((entries.zipIdx.find? fun e => entryId e.1 = id).map fun e =>
          ⟨HistoryEntry.time e.1, id, e.2⟩) := by
      simp only [parseMessageReference, trimPrefix, hp, hne, if_true, drop_left, hid, if_false,
        Bool.false_eq_true]
      rfl
    have hpos := position_eq entries id
    rw [hparse]
    cases hf : entries.zipIdx.find? fun e => entryId e.1 = id with
    | none =>
      rw [hf] at hpos
      exact .inr ⟨rfl, id, rfl, hpos⟩
    | some x =>
      rw [hf] at hpos
      exact .inl ⟨_, rfl, .message hid hpos (mem_of_find?_eq_some hf)⟩

/-! ## Between two references -/

/-- How the source tells that the first reference comes first. -/
def MessageReference.Forward (first second : MessageReference) : Prop :=
  first.time.nanos < second.time.nanos ∨
    first.time.nanos = second.time.nanos ∧ first.msgid ≠ [] ∧ second.msgid ≠ [] ∧
      first.index < second.index

section
variable {entries : List α} {r : Reference} {ref : MessageReference} {x : α × Nat}

theorem Stands.time_before (hasc : Ascending entries) (h : Stands entries r ref)
    (hx : x ∈ entries.zipIdx) (hb : beforeReference x.1 x.2 ref = true) :
    (HistoryEntry.time x.1).nanos < ref.time.nanos ∨
      (HistoryEntry.time x.1).nanos = ref.time.nanos ∧ ref.msgid ≠ [] ∧ x.2 < ref.index := by
  cases h with
  | time t => exact .inl (by simpa [beforeReference] using hb)
  | @message id e k hid _ hmem =>
    have hlt : x.2 < k := by simpa [beforeReference, hid] using hb
    have hle := hasc.le hx hmem hlt
    rcases Int.lt_or_eq_of_le hle with h | h
    · exact .inl h
    · exact .inr ⟨h, hid, hlt⟩

theorem Stands.time_after (hasc : Ascending entries) (h : Stands entries r ref)
    (hx : x ∈ entries.zipIdx) (ha : afterReference x.1 x.2 ref = true) :
    ref.time.nanos < (HistoryEntry.time x.1).nanos ∨
      ref.time.nanos = (HistoryEntry.time x.1).nanos ∧ ref.msgid ≠ [] ∧ ref.index < x.2 := by
  cases h with
  | time t => exact .inl (by simpa [afterReference] using ha)
  | @message id e k hid _ hmem =>
    have hlt : k < x.2 := by simpa [afterReference, hid] using ha
    have hle := hasc.le hmem hx hlt
    rcases Int.lt_or_eq_of_le hle with h | h
    · exact .inl h
    · exact .inr ⟨h, hid, hlt⟩

end

/-- An entry that is after one reference and before another tells their order. -/
theorem forward_of_between (hasc : Ascending entries) (ha : Stands entries a first)
    (hb : Stands entries b second) (hx : x ∈ entries.zipIdx)
    (hafter : afterReference x.1 x.2 first = true)
    (hbefore : beforeReference x.1 x.2 second = true) : first.Forward second := by
  rcases ha.time_after hasc hx hafter with h | ⟨h, hid, hi⟩ <;>
    rcases hb.time_before hasc hx hbefore with h' | ⟨h', hid', hi'⟩
  · exact .inl (by omega)
  · exact .inl (by omega)
  · exact .inl (by omega)
  · exact .inr ⟨by omega, hid, hid', by omega⟩

theorem MessageReference.Forward.not_backward
    (h : first.Forward second) : ¬ second.Forward first := by
  rintro (h' | ⟨h', -, -, hi'⟩) <;> rcases h with h | ⟨h, -, -, hi⟩ <;> omega

/-- No entry is on the way between the references if one is on the way back. -/
theorem entriesBetween_eq (hasc : Ascending entries) (hs : Stands entries a ref)
    (hs' : Stands entries b ref') (h : ¬ ref'.Forward ref) :
    entriesBetween entries a b = entriesFrom entries a b := by
  refine filterHistory_congr fun x hx => ?_
  have hno : (b.isAfter entries x.1 x.2 && a.isBefore entries x.1 x.2) = false := by
    rw [← hs'.after, ← hs.before]
    by_contra hc
    rw [Bool.not_eq_false, Bool.and_eq_true] at hc
    exact h (forward_of_between hasc hs' hs hx hc.1 hc.2)
  rw [hno, Bool.or_false]

theorem entriesBetween_comm (entries : List α) (a b : Reference) :
    entriesBetween entries a b = entriesBetween entries b a :=
  filterHistory_congr fun _ _ => Bool.or_comm _ _

theorem between_forward (hs : Stands entries a ref) (hs' : Stands entries b ref')
    (h : ref.Forward ref') (n : Nat) :
    between entries ref ref' n = earliest (entriesFrom entries a b) n := by
  refine (if_pos h).trans ?_
  rw [entriesFrom]
  congr 1
  exact filterHistory_congr fun x _ => by rw [hs.after, hs'.before]

theorem between_backward (hs : Stands entries a ref) (hs' : Stands entries b ref')
    (h : ¬ ref.Forward ref') (n : Nat) :
    between entries ref ref' n = latest (entriesFrom entries b a) n := by
  refine (if_neg h).trans ?_
  rw [entriesFrom]
  congr 1
  exact filterHistory_congr fun x _ => by rw [hs.before, hs'.after, Bool.and_comm]

/-! ## Requests -/

theorem Reference.Denoted.ne_star (h : r.Denoted selector) : selector ≠ lit "*" := by
  intro hstar
  have hhead := congrArg List.head? hstar
  cases h with
  | time _ | message _ => exact absurd (Option.some.inj hhead) (by decide)

theorem Reference.isBefore_unknown (h : position entries id = none) :
    (Reference.message id).isBefore entries = fun _ _ => false := by
  funext e i
  simp [Reference.isBefore, h]

theorem Reference.isAfter_unknown (h : position entries id = none) :
    (Reference.message id).isAfter entries = fun _ _ => false := by
  funext e i
  simp [Reference.isAfter, h]

variable (entries : List α)

/-- The last of what comes before and the first of what comes after, half of each if there is
enough. -/
def balance (before after : List α) (limit : Nat) : List α × Bool :=
  let left := min before.length (limit / 2)
  let right := min after.length (limit - left)
  let left := min before.length (limit - right)
  (before.drop (before.length - left) ++ after.take right, before.length + after.length ≤ limit)

/-- The part of `SelectChatHistory` after its first selector was read. -/
def selectFrom (subcommand : Bytes) (second : Option Bytes) (n : Nat) (first : MessageReference) :
    Except SelectFault (List α × Bool) :=
  let before := filterHistory entries fun e i => beforeReference e i first
  let after := filterHistory entries fun e i => afterReference e i first
  if subcommand = lit "LATEST" then .ok (latest after n)
  else if subcommand = lit "AFTER" then .ok (earliest after n)
  else if subcommand = lit "BEFORE" then .ok (latest before n)
  else if subcommand = lit "AROUND" then .ok (balance before after n)
  else if subcommand = lit "BETWEEN" then
    match second with
    | none => .error .panic
    | some selector =>
      match parseMessageReference entries selector with
      | .error text => .error (.error text)
      | .ok none => .ok ([], true)
      | .ok (some second) => .ok (between entries first second n)
  else .error (.error (lit "unknown subcommand"))

theorem selectFrom_between (selector : Bytes) (n : Nat) (first : MessageReference) :
    selectFrom entries (lit "BETWEEN") (some selector) n first =
      match parseMessageReference entries selector with
      | .error text => .error (.error text)
      | .ok none => .ok ([], true)
      | .ok (some second) => .ok (between entries first second n) := rfl

section
variable [UnicodeTables] {entries : List α} {limit : Int} {sub selector : Bytes} {r : Reference}

theorem selectChatHistory_eq (entries : List α) (sub : Bytes) (selectors : List Bytes)
    (limit : Int) :
    selectChatHistory entries sub selectors limit =
      if limit ≤ 0 then .error (.error (lit "invalid limit"))
      else if selectors.length ≠ 1 ∧ (toUpper sub ≠ lit "BETWEEN" ∨ selectors.length ≠ 2) then
        .error (.error (lit "invalid selectors"))
      else if toUpper sub = lit "LATEST" ∧ selectors.getD 0 [] = lit "*" then
        .ok (latest entries limit.toNat)
      else if selectors.getD 0 [] = lit "*" then .error (.error (lit "invalid selector"))
      else
        match parseMessageReference entries (selectors.getD 0 []) with
        | .error text => .error (.error text)
        | .ok none => .ok ([], true)
        | .ok (some first) => selectFrom entries (toUpper sub) selectors[1]? limit.toNat first := by
  refine if_congr Iff.rfl rfl (if_congr Iff.rfl rfl (if_congr Iff.rfl rfl
    (if_congr Iff.rfl rfl ?_)))
  cases hp : parseMessageReference entries (selectors.getD 0 []) with
  | error text => rfl
  | ok found =>
    cases found with
    | none => rfl
    | some first =>
      refine if_congr Iff.rfl rfl (if_congr Iff.rfl rfl (if_congr Iff.rfl rfl
        (if_congr Iff.rfl rfl (if_congr Iff.rfl ?_ rfl))))
      cases selectors[1]? with
      | none => rfl
      | some selector =>
        dsimp only
        cases parseMessageReference entries selector with
        | error text => rfl
        | ok found => cases found <;> rfl
omit [UnicodeTables] in
theorem sides_of_mem_between {n : Nat} (h : e ∈ (between entries first second n).1) :
    ∃ i, (beforeReference e i first = true ∨ afterReference e i first = true) ∧
      (beforeReference e i second = true ∨ afterReference e i second = true) := by
  unfold between at h
  dsimp only at h
  split at h
  · obtain ⟨i, hi⟩ := kept_of_mem_filterHistory (take_subset _ _ h)
    rw [Bool.and_eq_true] at hi
    exact ⟨i, .inr hi.1, .inl hi.2⟩
  · obtain ⟨i, hi⟩ := kept_of_mem_filterHistory (drop_subset _ _ h)
    rw [Bool.and_eq_true] at hi
    exact ⟨i, .inl hi.1, .inr hi.2⟩

theorem mem_select {selectors : List Bytes}
    (hsub : toUpper sub ∈ [lit "AFTER", lit "BEFORE", lit "BETWEEN"]) {page : List α × Bool}
    (hsel : selectChatHistory entries sub selectors limit = .ok page) (he : e ∈ page.1)
    (hs : selector ∈ selectors) :
    ∃ ref i, parseMessageReference entries selector = .ok (some ref) ∧
      (beforeReference e i ref = true ∨ afterReference e i ref = true) := by
  rw [selectChatHistory_eq] at hsel
  split at hsel
  · cases hsel
  split at hsel
  · cases hsel
  rename_i hlen
  split at hsel
  · rename_i h
    rw [h.1] at hsub
    exact absurd hsub (by decide)
  split at hsel
  · cases hsel
  split at hsel
  · cases hsel
  · cases hsel
    cases he
  rename_i first hfirst
  have hone (h : toUpper sub ≠ lit "BETWEEN") :
      parseMessageReference entries selector = .ok (some first) := by
    obtain ⟨a, rfl⟩ : ∃ a, selectors = [a] :=
      length_eq_one_iff.1 (by_contra fun hne => hlen ⟨hne, .inl h⟩)
    obtain rfl := mem_singleton.1 hs
    exact hfirst
  simp only [mem_cons, not_mem_nil, or_false] at hsub
  rcases hsub with hsub | hsub | hsub
  · rw [hsub] at hsel
    cases hsel
    obtain ⟨i, hi⟩ := kept_of_mem_filterHistory (take_subset _ _ he)
    exact ⟨first, i, hone (by rw [hsub]; decide), .inr hi⟩
  · rw [hsub] at hsel
    cases hsel
    obtain ⟨i, hi⟩ := kept_of_mem_filterHistory (drop_subset _ _ he)
    exact ⟨first, i, hone (by rw [hsub]; decide), .inl hi⟩
  · rw [hsub] at hsel
    cases selectors with
    | nil => cases hs
    | cons a rest =>
      cases rest with
      | nil => cases hsel
      | cons b rest =>
        have hnil : rest = [] := by
          by_contra hne
          refine hlen ⟨by simp, .inr ?_⟩
          simpa using hne
        subst hnil
        change selectFrom entries (lit "BETWEEN") (some b) limit.toNat first = _ at hsel
        rw [selectFrom_between] at hsel
        split at hsel
        · cases hsel
        · cases hsel
          cases he
        rename_i second hsecond
        cases hsel
        obtain ⟨i, h1, h2⟩ := sides_of_mem_between he
        simp only [mem_cons, not_mem_nil, or_false] at hs
        rcases hs with rfl | rfl
        · exact ⟨first, i, hfirst, h1⟩
        · exact ⟨second, i, hsecond, h2⟩

theorem select_latestOfAll (hl : 1 ≤ limit) (hsub : toUpper sub = lit "LATEST") :
    selectChatHistory entries sub [lit "*"] limit = .ok (latest entries limit.toNat) := by
  rw [selectChatHistory_eq, if_neg (by omega), if_neg (by simp), if_pos ⟨hsub, rfl⟩]

theorem select_cons (hl : 1 ≤ limit) (hr : r.Denoted selector) {rest : List Bytes}
    (hrest : rest = [] ∨ toUpper sub = lit "BETWEEN" ∧ rest.length = 1) :
    selectChatHistory entries sub (selector :: rest) limit =
      match parseMessageReference entries selector with
      | .error text => .error (.error text)
      | .ok none => .ok ([], true)
      | .ok (some first) => selectFrom entries (toUpper sub) rest[0]? limit.toNat first := by
  have hlen : ¬ ((selector :: rest).length ≠ 1 ∧
      (toUpper sub ≠ lit "BETWEEN" ∨ (selector :: rest).length ≠ 2)) := by
    rcases hrest with rfl | ⟨h, hlen⟩
    · simp
    · simp [h, hlen]
  have hstar : (selector :: rest).getD 0 [] ≠ lit "*" := hr.ne_star
  rw [selectChatHistory_eq, if_neg (by omega), if_neg hlen, if_neg fun h => hstar h.2,
    if_neg hstar]
  rfl

/-- A request with one reference, from what it makes of the entries on both sides of it. -/
theorem select_one (hl : 1 ≤ limit) (hr : r.Denoted selector)
    {f : (α → Nat → Bool) → (α → Nat → Bool) → List α × Bool}
    (hnone : f (fun _ _ => false) (fun _ _ => false) = ([], true))
    (hfound : ∀ ref, selectFrom entries (toUpper sub) none limit.toNat ref =
      .ok (f (fun e i => beforeReference e i ref) (fun e i => afterReference e i ref))) :
    selectChatHistory entries sub [selector] limit =
      .ok (f (r.isBefore entries) (r.isAfter entries)) := by
  rw [select_cons hl hr (.inl rfl)]
  rcases hr.parse entries with ⟨ref, hp, hs⟩ | ⟨hp, id, rfl, hid⟩
  · have hb : (fun e i => beforeReference e i ref) = r.isBefore entries := by
      funext e i
      exact hs.before e i
    have ha : (fun e i => afterReference e i ref) = r.isAfter entries := by
      funext e i
      exact hs.after e i
    rw [hp, ← hb, ← ha]
    exact hfound ref
  · rw [Reference.isBefore_unknown hid, Reference.isAfter_unknown hid, hnone, hp]

theorem select_before (hl : 1 ≤ limit) (hr : r.Denoted selector)
    (hsub : toUpper sub = lit "BEFORE") :
    selectChatHistory entries sub [selector] limit =
      .ok (latest (entriesBefore entries r) limit.toNat) :=
  select_one (f := fun before _ => latest (filterHistory entries before) limit.toNat) hl hr
    (by simp [latest]) fun _ => by rw [hsub]; rfl

theorem select_after (hl : 1 ≤ limit) (hr : r.Denoted selector)
    (hsub : toUpper sub = lit "AFTER") :
    selectChatHistory entries sub [selector] limit =
      .ok (earliest (entriesAfter entries r) limit.toNat) :=
  select_one (f := fun _ after => earliest (filterHistory entries after) limit.toNat) hl hr
    (by simp [earliest]) fun _ => by rw [hsub]; rfl

/-- The entries between two references lie one way round, and a reversed request is answered from
the end. -/
theorem select_between (hasc : Ascending entries) (hl : 1 ≤ limit)
    {first second : Bytes} (ha : a.Denoted first) (hb : b.Denoted second)
    (hsub : toUpper sub = lit "BETWEEN") :
    ∃ page, selectChatHistory entries sub [first, second] limit = .ok page ∧
      (entriesBetween entries a b = entriesFrom entries a b ∧
          page = earliest (entriesBetween entries a b) limit.toNat ∨
        entriesBetween entries a b = entriesFrom entries b a ∧
          page = latest (entriesBetween entries a b) limit.toNat) := by
  rw [select_cons hl ha (.inr ⟨hsub, rfl⟩), hsub]
  rcases ha.parse entries with ⟨ref, hp, hs⟩ | ⟨hp, id, rfl, hid⟩
  · rw [hp]
    rcases hb.parse entries with ⟨ref', hp', hs'⟩ | ⟨hp', id, rfl, hid⟩
    · refine ⟨between entries ref ref' limit.toNat, ?_, ?_⟩
      · show selectFrom entries (lit "BETWEEN") (some second) limit.toNat ref = _
        rw [selectFrom_between, hp']
      by_cases hf : ref.Forward ref'
      · have heq := entriesBetween_eq hasc hs hs' hf.not_backward
        exact .inl ⟨heq, by rw [between_forward hs hs' hf, heq]⟩
      · have heq := entriesBetween_eq hasc hs' hs hf
        rw [entriesBetween_comm]
        exact .inr ⟨heq, by rw [between_backward hs hs' hf, heq]⟩
    · refine ⟨([], true), ?_, .inl ?_⟩
      · show selectFrom entries (lit "BETWEEN") (some second) limit.toNat ref = _
        rw [selectFrom_between, hp']
      simp [entriesBetween, entriesFrom, Reference.isBefore_unknown hid,
        Reference.isAfter_unknown hid, earliest]
  · rw [hp]
    refine ⟨_, rfl, .inl ?_⟩
    simp [entriesBetween, entriesFrom, Reference.isBefore_unknown hid,
      Reference.isAfter_unknown hid, earliest]

end

/-! ## The specification is met -/

section
variable {entries l : List α} {n : Nat} {q : Request}

theorem selects_latest (hsub : l.Sublist entries) (hmeets : q.Meets entries n (l.rtake n))
    (hunknown : ∀ id, .message id ∈ q.references → position entries id = none → l = [])
    (hlen : l.length = q.matching entries) : Selects entries n q (latest l n) where
  sublist := (drop_sublist _ _).trans hsub
  bounded := by simp [latest]; omega
  meets := hmeets
  unknown id hmem hid := by simp [latest, hunknown id hmem hid]
  complete := by
    rw [← hlen]
    simp [latest]
    omega

theorem selects_earliest (hsub : l.Sublist entries) (hmeets : q.Meets entries n (l.take n))
    (hunknown : ∀ id, .message id ∈ q.references → position entries id = none → l = [])
    (hlen : l.length = q.matching entries) : Selects entries n q (earliest l n) where
  sublist := (take_sublist _ _).trans hsub
  bounded := length_take_le _ _
  meets := hmeets
  unknown id hmem hid := by simp [earliest, hunknown id hmem hid]
  complete := by
    rw [← hlen]
    simp [earliest]

theorem entriesBefore_unknown (h : position entries id = none) :
    entriesBefore entries (.message id) = [] := by
  rw [entriesBefore, Reference.isBefore_unknown h, filterHistory_false]

theorem entriesAfter_unknown (h : position entries id = none) :
    entriesAfter entries (.message id) = [] := by
  rw [entriesAfter, Reference.isAfter_unknown h, filterHistory_false]

theorem entriesBetween_unknown (hmem : .message id ∈ [a, b])
    (h : position entries id = none) : entriesBetween entries a b = [] := by
  simp only [mem_cons, not_mem_nil, or_false] at hmem
  rcases hmem with rfl | rfl <;>
    simp [entriesBetween, Reference.isBefore_unknown h, Reference.isAfter_unknown h]

theorem isBefore_of_isAfter (hle : (HistoryEntry.time x.1).nanos ≤ (HistoryEntry.time y.1).nanos)
    (hidx : x.2 ≤ y.2) (h : r.isAfter entries x.1 x.2 = true) :
    r.isBefore entries y.1 y.2 = false := by
  cases r with
  | time t =>
    simp only [Reference.isAfter, Reference.isBefore, decide_eq_true_eq, decide_eq_false_iff_not]
      at h ⊢
    omega
  | message id =>
    cases hpos : position entries id with
    | none => simp [Reference.isBefore, hpos]
    | some k =>
      simp only [Reference.isAfter, Reference.isBefore, hpos, Option.any_some, decide_eq_true_eq,
        decide_eq_false_iff_not] at h ⊢
      omega

theorem before_append_after_sublist (hasc : Ascending entries) (r : Reference) :
    (entriesBefore entries r ++ entriesAfter entries r).Sublist entries := by
  have h := (filter_append_sublist (l := entries.zipIdx)
    (p := fun x => r.isBefore entries x.1 x.2) (q := fun x => r.isAfter entries x.1 x.2)
    (fun x _ hx => isBefore_of_isAfter (Int.le_refl _) (Nat.le_refl _) hx)
    (hasc.zipIdx.imp fun {x y} hxy hx => isBefore_of_isAfter hxy.2 hxy.1.le hx)).map Prod.fst
  rwa [map_append, zipIdx_map_fst] at h

theorem selects_around (hasc : Ascending entries) (r : Reference) :
    Selects entries n (.around r)
    (balance (entriesBefore entries r) (entriesAfter entries r) n) where
  sublist :=
    ((drop_sublist _ _).append (take_sublist _ _)).trans
      (before_append_after_sublist hasc r)
  bounded := by
    simp only [balance, length_append, length_drop, length_take]
    omega
  meets := by
    refine ⟨_, _, rfl, ?_, ?_, ?_, ?_⟩ <;> omega
  unknown id hmem hid := by
    obtain rfl := mem_singleton.1 hmem
    simp [balance, entriesBefore_unknown hid, entriesAfter_unknown hid]
  complete := by
    simp only [balance, Request.matching, decide_eq_true_eq, length_append, length_drop,
      length_take]
    omega

end

/-- **A history request gets what it asks for.** -/
theorem select_spec [UnicodeTables] {entries : List α} (hasc : Ascending entries) {limit : Int}
    (hl : 1 ≤ limit) {q : Request} {sub : Bytes} {selectors : List Bytes}
    (hq : q.Asked sub selectors) :
    ∃ page, selectChatHistory entries sub selectors limit = .ok page ∧
      Selects entries limit.toNat q page := by
  cases hq with
  | latestOfAll h =>
    exact ⟨_, select_latestOfAll hl h, selects_latest (List.Sublist.refl _) rfl nofun rfl⟩
  | latest h hr =>
    refine ⟨_, select_one (f := fun _ after => latest (filterHistory entries after) limit.toNat) hl hr
      (by simp [latest]) fun _ => by rw [h]; rfl, selects_latest (filterHistory_sublist _ _) rfl ?_ rfl⟩
    rintro id hmem hid
    obtain rfl := mem_singleton.1 hmem
    exact entriesAfter_unknown hid
  | before h hr =>
    refine ⟨_, select_before hl hr h, selects_latest (filterHistory_sublist _ _) rfl ?_ rfl⟩
    rintro id hmem hid
    obtain rfl := mem_singleton.1 hmem
    exact entriesBefore_unknown hid
  | after h hr =>
    refine ⟨_, select_after hl hr h, selects_earliest (filterHistory_sublist _ _) rfl ?_ rfl⟩
    rintro id hmem hid
    obtain rfl := mem_singleton.1 hmem
    exact entriesAfter_unknown hid
  | around h hr =>
    exact ⟨_, select_one (f := fun before after => balance (filterHistory entries before)
      (filterHistory entries after) limit.toNat) hl hr (by simp [balance]) fun _ => by rw [h]; rfl,
      selects_around hasc _⟩
  | between h ha hb =>
    obtain ⟨page, hsel, ⟨heq, rfl⟩ | ⟨heq, rfl⟩⟩ := select_between hasc hl ha hb h
    · exact ⟨_, hsel, selects_earliest (filterHistory_sublist _ _) (.inl ⟨heq, rfl⟩)
        (fun _ => entriesBetween_unknown) rfl⟩
    · exact ⟨_, hsel, selects_latest (filterHistory_sublist _ _) (.inr ⟨heq, rfl⟩)
        (fun _ => entriesBetween_unknown) rfl⟩

attribute [local instance] asciiTables

/-- Messages one second apart. -/
def everySecond (ids : List Bytes) : List ChatHistoryEntry :=
  ids.zipIdx.map fun x =>
    ⟨⟨1000000000 * x.2, 0⟩, { tags := Map.ofList [(lit "msgid", x.1)], command := lit "PRIVMSG" },
      .PRIVMSG, rfl⟩

theorem select_spec_backwards :
    ∃ page, selectChatHistory (everySecond [[97], [98], [99], [100], [101]]) (lit "between")
        [lit "msgid=e", lit "msgid=a"] 2 = .ok page ∧
      Selects (everySecond [[97], [98], [99], [100], [101]]) 2
        (.between (.message [101]) (.message [97])) page :=
  select_spec (by unfold Ascending; decide) (by decide)
    (.between (by decide) (.message (by decide)) (.message (by decide)))

end

end Irc
