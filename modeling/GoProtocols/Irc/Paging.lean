import GoProtocols.Irc.Selection

/-!
# Paging through a history by message ids

A client asks for a page, then for the page next to the outermost message it has received, until a
page is empty (`pages`). What is left to fetch at a message is the list before or after it (`rest`).

* `page_step`: one page, with what is left after it, is what was left before it.
* `pages_from`: so the pages put together are what was left, whatever the limit.
-/

namespace Irc

open Go List

/-- Towards older or towards newer messages. -/
inductive Direction
  | back
  | on

namespace Direction

def subcommand : Direction → Bytes
  | back => lit "BEFORE"
  | on => lit "AFTER"

variable {α : Type}

def cursor : Direction → List α → Option α
  | back => List.head?
  | on => List.getLast?

def join : Direction → List α → List α → List α
  | back => fun page rest => rest ++ page
  | on => fun page rest => page ++ rest

def assemble : Direction → List (List α) → List α
  | back => fun pages => pages.reverse.flatten
  | on => List.flatten

def rest (d : Direction) (entries : List α) (k : Nat) : List α :=
  match d with
  | back => entries.take k
  | on => entries.drop (k + 1)

end Direction

section
variable {α : Type} (d : Direction) {entries : List α} {n k : Nat} {β : Type}
  (l : List β) {page : List α × Bool}

/-- The pages are a list put together, and a page says that it is the last one exactly if with it
the list is complete. -/
structure Exhausts (d : Direction) (l : List α) (ps : List (List α × Bool)) : Prop where
  all : d.assemble (ps.map Prod.fst) = l
  flag : ∀ k (hk : k < ps.length),
    ps[k].2 = true ↔ d.assemble ((ps.take (k + 1)).map Prod.fst) = l

/-! ## Putting pages together -/

theorem Direction.assemble_cons (page : List α) (ps : List (List α)) :
    d.assemble (page :: ps) = d.join page (d.assemble ps) := by
  cases d <;> simp [Direction.assemble, Direction.join]

theorem Direction.join_right_inj {page l l' : List α} :
    d.join page l = d.join page l' ↔ l = l' := by
  cases d <;> simp [Direction.join]

theorem exhausts_nil : Exhausts d ([] : List α) [([], true)] where
  all := by cases d <;> rfl
  flag k hk := by
    obtain rfl : k = 0 := by simpa using hk
    cases d <;> simp [Direction.assemble]

theorem Exhausts.cons {d : Direction} {l : List α} {ps : List (List α × Bool)} (h : Exhausts d l ps)
    (hflag : page.2 = true ↔ l = []) : Exhausts d (d.join page.1 l) (page :: ps) where
  all := by rw [map_cons, Direction.assemble_cons, h.all]
  flag k hk := by
    cases k with
    | zero =>
      rw [getElem_cons_zero, hflag, take_succ_cons, take_zero, map_singleton,
        Direction.assemble_cons, Direction.join_right_inj]
      cases d <;> exact eq_comm
    | succ k =>
      rw [getElem_cons_succ, take_succ_cons, map_cons, Direction.assemble_cons,
        Direction.join_right_inj]
      exact h.flag k (by simpa using hk)

/-- A page of what is left: all of it is fetched, or the client goes on from a message. -/
def Page (entries l : List α) (page : List α × Bool) : Prop :=
  l = [] ∧ page = ([], true) ∨ ∃ k, ∃ hk : k < entries.length,
    d.cursor page.1 = some entries[k] ∧ l = d.join page.1 (d.rest entries k) ∧
      (d.rest entries k).length < l.length ∧ (page.2 = true ↔ d.rest entries k = [])

theorem page_latest (hn : 0 < n) (hk : k ≤ entries.length) :
    Page .back entries (entries.take k) (latest (entries.take k) n) := by
  have hlen : (entries.take k).length = k := by simpa using hk
  rcases Nat.eq_zero_or_pos k with rfl | hpos
  · exact .inl ⟨rfl, by simp [latest]⟩
  right
  have hrest : entries.take (k - n) = (entries.take k).take (k - n) := by
    rw [take_take, Nat.min_eq_left (Nat.sub_le k n)]
  refine ⟨k - n, by omega, ?_, ?_, ?_, ?_⟩
  · show ((entries.take k).drop _).head? = _
    rw [List.head?_drop, hlen, List.getElem?_take_of_lt (by omega), List.getElem?_eq_getElem]
  · show entries.take k = entries.take (k - n) ++ (entries.take k).drop _
    rw [hrest, hlen, take_append_drop]
  · show (entries.take (k - n)).length < _
    rw [hlen, length_take]
    omega
  · show decide ((entries.take k).length ≤ n) = true ↔ entries.take (k - n) = []
    rw [hlen, decide_eq_true_eq, take_eq_nil_iff]
    have hne : entries ≠ [] := by
      rintro rfl
      simp at hk
      omega
    simp only [hne, or_false]
    omega

theorem page_earliest (hn : 0 < n) :
    Page .on entries (entries.drop (k + 1)) (earliest (entries.drop (k + 1)) n) := by
  rcases Nat.lt_or_ge (k + 1) entries.length with hpos | hnil
  · right
    have hrest : entries.drop (k + min n (entries.length - (k + 1)) + 1) =
        (entries.drop (k + 1)).drop n := by
      rw [drop_drop]
      rcases Nat.le_total n (entries.length - (k + 1)) with h | h
      · rw [Nat.min_eq_left h]
        congr 1
        omega
      · rw [Nat.min_eq_right h, drop_eq_nil_of_le (by omega), drop_eq_nil_of_le (by omega)]
    refine ⟨k + min n (entries.length - (k + 1)), by omega, ?_, ?_, ?_, ?_⟩
    · show ((entries.drop (k + 1)).take n).getLast? = _
      rw [List.getLast?_eq_getElem?, length_take, length_drop,
        List.getElem?_take_of_lt (by omega), List.getElem?_drop, List.getElem?_eq_getElem (by omega)]
      congr 2
      omega
    · show entries.drop (k + 1) = (entries.drop (k + 1)).take n ++ entries.drop _
      rw [hrest, take_append_drop]
    · show (entries.drop _).length < _
      rw [length_drop, length_drop]
      omega
    · show decide ((entries.drop (k + 1)).length ≤ n) = true ↔ entries.drop _ = []
      rw [hrest, decide_eq_true_eq, drop_eq_nil_iff]
  · have hdrop : entries.drop (k + 1) = [] := drop_eq_nil_of_le hnil
    exact .inl ⟨hdrop, by simp [earliest, hdrop]⟩

theorem filter_zipIdx_lt (n k : Nat) :
    ((l.zipIdx n).filter fun x => x.2 < n + k).map Prod.fst = l.take k := by
  induction l generalizing n k with
  | nil => simp
  | cons x l ih =>
    cases k with
    | zero =>
      -- no index is below the first one
      have hnone : ∀ y ∈ (x :: l).zipIdx n, ¬ (decide (y.2 < n + 0) = true) := by
        intro y hy
        have := le_snd_of_mem_zipIdx hy
        simp only [decide_eq_true_eq]
        omega
      rw [filter_eq_nil_iff.2 hnone]
      rfl
    | succ k =>
      rw [zipIdx_cons, filter_cons_of_pos (by simp), map_cons, take_succ_cons,
        ← ih (n + 1) k, show n + (k + 1) = n + 1 + k by omega]

theorem filter_zipIdx_ge (n k : Nat) :
    ((l.zipIdx n).filter fun x => n + k ≤ x.2).map Prod.fst = l.drop k := by
  induction l generalizing n k with
  | nil => simp
  | cons x l ih =>
    cases k with
    | zero =>
      have hall : ∀ y ∈ (x :: l).zipIdx n, decide (n + 0 ≤ y.2) = true := by
        intro y hy
        exact decide_eq_true (le_snd_of_mem_zipIdx hy)
      rw [filter_eq_self.2 hall, zipIdx_map_fst, drop_zero]
    | succ k =>
      rw [zipIdx_cons, filter_cons_of_neg (by simp), drop_succ_cons, ← ih (n + 1) k,
        show n + (k + 1) = n + 1 + k by omega]

/-! ## Requests by message id -/

variable [HistoryEntry α]

def msgidSelector (e : α) : Bytes := lit "msgid=" ++ entryId e

/-- The pages a client receives, the last of them empty; `none` if the number of requests does not
suffice, or one of them fails. -/
def pages [UnicodeTables] (entries : List α) (limit : Int) (d : Direction) :
    Nat → Bytes → Bytes → Option (List (List α × Bool))
  | 0, _, _ => none
  | fuel + 1, subcommand, selector =>
    match selectChatHistory entries subcommand [selector] limit with
    | .error _ => none
    | .ok page =>
      match d.cursor page.1 with
      | none => some [page]
      | some e =>
        (pages entries limit d fuel d.subcommand (msgidSelector e)).map fun ps => page :: ps

/-- Every message has an id of its own. -/
structure Identified (entries : List α) : Prop where
  distinct : (entries.map entryId).Nodup
  nonempty : ∀ e ∈ entries, entryId e ≠ []

theorem Identified.position {entries : List α} (h : Identified entries) {k : Nat}
    (hk : k < entries.length) : position entries (entryId entries[k]) = some k := by
  rw [Irc.position, List.findIdx?_eq_some_iff_getElem]
  refine ⟨hk, by simp, fun j hj => ?_⟩
  simp only [decide_eq_true_eq]
  intro heq
  have hj' : j < (entries.map entryId).length := by
    rw [length_map]
    omega
  have hk' : k < (entries.map entryId).length := by rwa [length_map]
  have hids : (entries.map entryId)[j] = (entries.map entryId)[k] := by simpa using heq
  rw [h.distinct.getElem_inj_iff] at hids
  omega

theorem entriesBefore_message (h : Identified entries) (hk : k < entries.length) :
    entriesBefore entries (.message (entryId entries[k])) = entries.take k := by
  have hlt : filterHistory entries (fun _ i => decide (i < k)) = entries.take k := by
    simpa [filterHistory] using filter_zipIdx_lt entries 0 k
  rw [← hlt]
  refine filterHistory_congr fun x _ => ?_
  rw [Reference.isBefore, h.position hk]
  rfl

theorem entriesAfter_message (h : Identified entries) (hk : k < entries.length) :
    entriesAfter entries (.message (entryId entries[k])) = entries.drop (k + 1) := by
  have hge : filterHistory entries (fun _ i => decide (k + 1 ≤ i)) = entries.drop (k + 1) := by
    simpa [filterHistory] using filter_zipIdx_ge entries 0 (k + 1)
  rw [← hge]
  refine filterHistory_congr fun x _ => ?_
  rw [Reference.isAfter, h.position hk]
  rfl

/-! ## One page after the other -/

section
variable [UnicodeTables] {entries : List α} {limit : Int}

theorem page_step (hl : 1 ≤ limit) (h : Identified entries) (d : Direction)
    (hk : k < entries.length) :
    ∃ page, selectChatHistory entries d.subcommand [msgidSelector entries[k]] limit = .ok page ∧
      Page d entries (d.rest entries k) page := by
  have hr : (Reference.message (entryId entries[k])).Denoted (msgidSelector entries[k]) :=
    .message (h.nonempty _ (getElem_mem hk))
  cases d with
  | back =>
    refine ⟨_, select_before hl hr rfl, ?_⟩
    rw [entriesBefore_message h hk]
    exact page_latest (by omega) hk.le
  | on =>
    refine ⟨_, select_after hl hr rfl, ?_⟩
    rw [entriesAfter_message h hk]
    exact page_earliest (by omega)

theorem pages_of_page {d : Direction} {fuel : Nat} {l : List α} {sub selector : Bytes}
    (hsel : selectChatHistory entries sub [selector] limit = .ok page)
    (hpage : Page d entries l page)
    (hrest : ∀ k, ∀ hk : k < entries.length, (d.rest entries k).length < l.length →
      ∃ ps, pages entries limit d fuel d.subcommand (msgidSelector entries[k]) = some ps ∧
        Exhausts d (d.rest entries k) ps) :
    ∃ ps, pages entries limit d (fuel + 1) sub selector = some ps ∧ Exhausts d l ps := by
  rcases hpage with ⟨rfl, rfl⟩ | ⟨k, hk, hcursor, hl, hlt, hflag⟩
  · refine ⟨_, ?_, exhausts_nil d⟩
    rw [pages, hsel]
    cases d <;> rfl
  · obtain ⟨ps, hps, hex⟩ := hrest k hk hlt
    refine ⟨page :: ps, ?_, ?_⟩
    · simp only [pages, hsel, hcursor, hps, Option.map_some]
    · rw [hl]
      exact hex.cons hflag

theorem pages_from (hl : 1 ≤ limit) (h : Identified entries) (d : Direction) {fuel : Nat}
    (hk : k < entries.length) (hfuel : (d.rest entries k).length < fuel) :
    ∃ ps, pages entries limit d fuel d.subcommand (msgidSelector entries[k]) = some ps ∧
      Exhausts d (d.rest entries k) ps := by
  induction fuel generalizing k with
  | zero => omega
  | succ fuel ih =>
    obtain ⟨page, hsel, hpage⟩ := page_step hl h d hk
    refine pages_of_page hsel hpage fun k' hk' hlt => ?_
    exact ih hk' (by omega)

/-- **Paging loses nothing and repeats nothing**: back from the latest messages through the whole
history, and on from a message through all that follows it. -/
theorem paging_exact (h : Identified entries) (hl : 1 ≤ limit) {fuel : Nat}
    (hfuel : entries.length + 2 ≤ fuel) :
    (∃ ps, pages entries limit .back fuel (lit "LATEST") (lit "*") = some ps ∧
      Exhausts .back entries ps) ∧
    ∀ k, ∀ hk : k < entries.length,
      ∃ ps, pages entries limit .on fuel (lit "AFTER") (msgidSelector entries[k]) = some ps ∧
        Exhausts .on (entries.drop (k + 1)) ps := by
  constructor
  · obtain ⟨fuel, rfl⟩ : ∃ n, fuel = n + 1 := ⟨fuel - 1, by omega⟩
    have hsel : selectChatHistory entries (lit "LATEST") [lit "*"] limit =
        .ok (latest (entries.take entries.length) limit.toNat) := by
      rw [take_length]
      exact select_latestOfAll hl rfl
    have hpage := page_latest (n := limit.toNat) (by omega) (Nat.le_refl entries.length)
    rw [take_length] at hsel hpage
    refine pages_of_page hsel hpage fun k hk hlt => ?_
    exact pages_from hl h .back hk (by omega)
  · intro k hk
    refine pages_from hl h .on hk ?_
    show (entries.drop (k + 1)).length < fuel
    rw [length_drop]
    omega

end

attribute [local instance] asciiTables

theorem paging_exact_five :
    ∃ ps, pages (everySecond [[97], [98], [99], [100], [101]]) 2 .back 7 (lit "LATEST") (lit "*") =
      some ps ∧ Exhausts .back (everySecond [[97], [98], [99], [100], [101]]) ps :=
  (paging_exact ⟨by decide, by decide⟩ (by decide) (by decide)).1

end

end Irc
