import GoProtocols.Go.Bytes
import GoProtocols.Lib.PathWalk

/-!
# Package `path/filepath` on Unix

`Clean` and what is built on it. The elements of a path are what stands between its slashes; an
empty element and `.` stay, `..` climbs, anything else is a name. `Clean` writes down where the
elements lead: from the top for a path that starts with a slash, and otherwise as the `..` it cannot
cancel and the names after them.
-/

namespace Go.Filepath

open PathWalk List

variable {n path : Bytes} (names : List Bytes)

def element (seg : Bytes) : Step Bytes :=
  if seg = [] ∨ seg = lit "." then .stay else if seg = lit ".." then .up else .down seg

def elements (path : Bytes) : List (Step Bytes) := (split path 47).map element

/-- `filepath.IsAbs`. -/
def isAbs (path : Bytes) : Bool := hasPrefix path (lit "/")

/-- The place an absolute path leads to, its innermost name first. -/
def place (path : Bytes) : List Bytes := walk [] (elements path)

/-- `filepath.Clean`. -/
def clean (path : Bytes) : Bytes :=
  if path = [] then lit "."
  else if isAbs path then 47 :: Go.join (place path).reverse (lit "/")
  else
    let p := rel (elements path)
    let names := List.replicate p.ups (lit "..") ++ p.names.reverse
    if names = [] then lit "." else Go.join names (lit "/")

/-- `filepath.Join`. -/
def join (elem : List Bytes) : Bytes :=
  match elem.dropWhile (· = []) with
  | [] => []
  | elem => clean (Go.join elem (lit "/"))

/-- `filepath.Abs`, with the answer of `os.Getwd`. -/
def abs (getwd : Except Bytes Bytes) (path : Bytes) : Except Bytes Bytes :=
  if isAbs path then .ok (clean path) else getwd.map fun wd => join [wd, path]

/-- `p` is `root` or lies lexically below it. -/
def Under (root p : Bytes) : Prop :=
  p = root ∨ (if root = lit "/" then root else root ++ lit "/") <+: p

/-! ## Names -/

/-- An element that names something. -/
structure IsName (n : Bytes) : Prop where
  ne_nil : n ≠ []
  ne_dot : n ≠ lit "."
  ne_dotdot : n ≠ lit ".."
  noSlash : 47 ∉ n

theorem element_name (h : IsName n) : element n = .down n := by
  simp [element, h.ne_nil, h.ne_dot, h.ne_dotdot]

theorem isName_of_mem_elements (h : .down n ∈ elements path) : IsName n := by
  obtain ⟨seg, hseg, he⟩ := mem_map.1 h
  unfold element at he
  split at he
  · cases he
  · rename_i h1
    split at he
    · cases he
    · rename_i h2
      cases he
      rw [not_or] at h1
      exact ⟨h1.1, h1.2, h2, sep_notMem_of_mem_split hseg⟩

theorem isName_of_mem_place (h : n ∈ place path) : IsName n :=
  isName_of_mem_elements ((mem_walk h).resolve_left (by simp))

theorem elements_append (a b : Bytes) : elements (a ++ 47 :: b) = elements a ++ elements b := by
  unfold elements split
  rw [splitOn_append_cons_of_beq _ _ (by simp), map_append]

theorem elements_nil : elements [] = [.stay] := by decide

theorem elements_name (h : IsName n) : elements n = [.down n] := by
  unfold elements split
  rw [splitOn_eq_singleton h.noSlash, map_singleton, element_name h]

/-! ## Texts of places -/

/-- The text of an absolute path with these names. -/
def absText : Bytes := if names = [] then lit "/" else text 47 names

theorem goJoin_cons (n : Bytes) (ns : List Bytes) :
    Go.join (n :: ns) (lit "/") = n ++ text 47 ns := by
  rw [show lit "/" = [47] by decide]
  induction ns generalizing n with
  | nil => simp [Go.join]
  | cons m ns ih =>
    have hm := ih m
    unfold Go.join at hm ⊢
    rw [intercalate_cons_cons, hm]
    simp

theorem cons_goJoin : 47 :: Go.join names (lit "/") = absText names := by
  cases names with
  | nil => rfl
  | cons n ns => rw [absText, if_neg (by simp), goJoin_cons, text_cons, cons_append]

/-- **The cleaned form of an absolute path is the text of its place.** -/
theorem clean_of_isAbs (h : isAbs path = true) :
    clean path = absText (place path).reverse := by
  have hne : path ≠ [] := by
    intro he
    subst he
    revert h
    decide
  rw [clean, if_neg hne, if_pos h, cons_goJoin]

theorem isAbs_iff : isAbs path = true ↔ ∃ t, path = 47 :: t := by
  have hlit : lit "/" = [47] := by decide
  rw [isAbs, hasPrefix_iff, hlit]
  refine ⟨fun h => ?_, fun h => ?_⟩
  · obtain ⟨t, rfl⟩ := h
    exact ⟨t, rfl⟩
  · obtain ⟨t, rfl⟩ := h
    exact ⟨t, rfl⟩

theorem absText_cons : ∃ t, absText names = 47 :: t := by
  cases names with
  | nil => exact ⟨[], by decide⟩
  | cons n ns => exact ⟨_, rfl⟩

variable {names}

theorem elements_text (h : ∀ n ∈ names, IsName n) (hne : names ≠ []) :
    elements (text 47 names) = .stay :: names.map .down := by
  induction names with
  | nil => exact absurd rfl hne
  | cons n ns ih =>
    cases ns with
    | nil =>
      have : text 47 [n] = [] ++ 47 :: n := by simp
      rw [this, elements_append, elements_nil, elements_name (h n (by simp))]
      rfl
    | cons m ns =>
      obtain ⟨t, ht⟩ : ∃ t, text 47 (m :: ns) = 47 :: t := ⟨_, rfl⟩
      have hrest := ih (forall_mem_cons.1 h).2 (by simp)
      have hsplit : text 47 (n :: m :: ns) = ([] ++ 47 :: n) ++ 47 :: t := by
        rw [text_cons, ht]
        simp
      rw [ht, show (47 : UInt8) :: t = [] ++ 47 :: t from rfl, elements_append, elements_nil]
        at hrest
      rw [hsplit, elements_append, elements_append, elements_nil, elements_name (h n (by simp))]
      simpa using hrest

theorem place_absText (h : ∀ n ∈ names, IsName n) : place (absText names) = names.reverse := by
  unfold absText
  split
  · rename_i hn
    rw [hn]
    decide
  · rename_i hn
    rw [place, elements_text h hn, walk_cons, walk_down]
    simp [Step.apply]

theorem elements_append_text (a : Bytes) (ns : List Bytes) :
    elements (a ++ text 47 ns) = elements a ++ ns.flatMap elements := by
  induction ns generalizing a with
  | nil => simp
  | cons n ns ih =>
    rw [text_cons, cons_append, elements_append, ih, flatMap_cons]

theorem join_of_isAbs {root : Bytes} (h : isAbs root = true) (elem : List Bytes) :
    join (root :: elem) = absText (walk (place root) (elem.flatMap elements)).reverse := by
  obtain ⟨t, rfl⟩ := isAbs_iff.1 h
  have habs : isAbs (47 :: t ++ text 47 elem) = true := isAbs_iff.2 ⟨_, rfl⟩
  have hjoin : join ((47 :: t) :: elem) = clean (47 :: t ++ text 47 elem) := by
    rw [← goJoin_cons]
    rfl
  rw [hjoin, clean_of_isAbs habs, place, elements_append_text, walk_append]
  rfl

theorem walk_trimPrefix (st : List Bytes) (path : Bytes) :
    walk st (elements (trimPrefix path (lit "/"))) = walk st (elements path) := by
  have hlit : lit "/" = [47] := by decide
  unfold trimPrefix
  split
  · rename_i h
    obtain ⟨t, rfl⟩ := hasPrefix_iff.1 h
    rw [hlit, drop_left, show [47] ++ t = [] ++ 47 :: t from rfl, elements_append,
      elements_nil]
    rfl
  · rfl

theorem isName_of_mem_walk {st : List Bytes} (h : ∀ n ∈ st, IsName n) {paths : List Bytes} :
    ∀ n ∈ walk st (paths.flatMap elements), IsName n := by
  intro n hn
  rcases mem_walk hn with hn | hn
  · exact h n hn
  · obtain ⟨p, -, hp⟩ := mem_flatMap.1 hn
    exact isName_of_mem_elements hp

/-- **Below in the text is below in the tree.** -/
theorem under_absText_iff {a b : List Bytes} (ha : ∀ n ∈ a, IsName n) (hb : ∀ n ∈ b, IsName n) :
    Under (absText a) (absText b) ↔ a <+: b := by
  have hlit : lit "/" = [47] := by decide
  by_cases hna : a = []
  · subst hna
    obtain ⟨t, ht⟩ := absText_cons b
    refine ⟨fun _ => nil_prefix, fun _ => .inr ?_⟩
    rw [absText, if_pos rfl, if_pos rfl, ht, hlit]
    exact ⟨t, rfl⟩
  · have htop : text 47 a ≠ lit "/" := by
      obtain ⟨n, ns, rfl⟩ := exists_cons_of_ne_nil hna
      rw [text_cons, hlit]
      simp [(ha n (by simp)).ne_nil]
    have hA : absText a = text 47 a := if_neg hna
    rw [Under, hA, if_neg htop]
    by_cases hnb : b = []
    · subst hnb
      rw [absText, if_pos rfl, prefix_nil]
      refine ⟨fun h => ?_, fun h => absurd h hna⟩
      rcases h with h | h
      · exact absurd h.symm htop
      · have := h.length_le
        obtain ⟨n, ns, rfl⟩ := exists_cons_of_ne_nil hna
        simp [hlit] at this
    · have hB : absText b = text 47 b := if_neg hnb
      rw [hB, ← text_prefix_iff (fun n hn => (ha n hn).noSlash) fun n hn => (hb n hn).noSlash]
      refine ⟨fun h => ?_, fun h => ?_⟩
      · rcases h with h | ⟨t, ht⟩
        · exact ⟨[], .inl rfl, by simp [h]⟩
        · exact ⟨47 :: t, .inr ⟨t, rfl⟩, by rw [← ht, hlit]; simp⟩
      · obtain ⟨t, rfl | ⟨t', rfl⟩, h⟩ := h
        · exact .inl (by simpa using h)
        · exact .inr ⟨t', by rw [h, hlit]; simp⟩

end Go.Filepath
