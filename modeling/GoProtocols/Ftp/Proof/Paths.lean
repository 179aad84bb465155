import GoProtocols.Ftp.Fs

/-!
# Virtual and host paths

`pathClean` builds its result as a string and pops a segment by cutting at the last slash. The
string is at every moment the text of the place reached so far, so the result is the text of a place
(`pathClean_eq`), with no empty, `.` or `..` segment. So it does not matter in how many steps one
changes the directory (`resolve_composes`). A virtual path of that form goes only down, so
the host path that `full` makes of it stays in the user's directory (`full_under`).
-/

namespace Ftp

open Go PathWalk Filepath List

variable (p : Bytes) {st segs : List Bytes}

/-- A canonical absolute path: `/`, or names each after a slash. -/
def IsCanonical : Prop := ∃ names, (∀ n ∈ names, IsName n) ∧ p = absText names

theorem isCanonical_root : IsCanonical (lit "/") := ⟨[], by simp, rfl⟩

theorem isCanonical_place : IsCanonical (absText (place p).reverse) :=
  ⟨_, fun _ hn => isName_of_mem_place (mem_reverse.1 hn), rfl⟩

/-! ## The cleaner -/

theorem pathCleanStep_eq (hst : ∀ n ∈ st, 47 ∉ n) (seg : Bytes) :
    pathCleanStep (text 47 st.reverse) seg = text 47 ((element seg).apply st).reverse := by
  unfold pathCleanStep element
  split
  · rfl
  split
  · cases st with
    | nil => rfl
    | cons n st =>
      have htext : text 47 (n :: st).reverse = text 47 st.reverse ++ 47 :: n := by
        rw [reverse_cons, text_append, text_cons, text_nil, append_nil]
      rw [htext, lastIndexByte_append (hst n (by simp))]
      simp [Step.apply]
  · rw [Step.apply, reverse_cons, text_append, show lit "/" = [47] by decide]
    simp

theorem foldl_pathCleanStep (hst : ∀ n ∈ st, 47 ∉ n) (hsegs : ∀ s ∈ segs, 47 ∉ s) :
    segs.foldl pathCleanStep (text 47 st.reverse) =
      text 47 (walk st (segs.map element)).reverse := by
  induction segs generalizing st with
  | nil => rfl
  | cons seg segs ih =>
    rw [foldl_cons, pathCleanStep_eq hst, map_cons, walk_cons]
    refine ih (fun n hn => ?_) (forall_mem_cons.1 hsegs).2
    have hn' : n ∈ walk st [element seg] := hn
    rcases mem_walk hn' with hn | hn
    · exact hst n hn
    · have helem : element seg = .down seg ∨ ∀ m, element seg ≠ .down m := by
        unfold element
        split
        · exact .inr (by simp)
        split
        · exact .inr (by simp)
        · exact .inl rfl
      rcases helem with he | he
      · rw [mem_singleton, he] at hn
        cases hn
        exact hsegs _ (by simp)
      · exact absurd (mem_singleton.1 hn).symm (he n)

/-- **`pathClean` writes down the place its argument leads to.** -/
theorem pathClean_eq : pathClean p = absText (place p).reverse := by
  have hout : (split p 47).foldl pathCleanStep [] = text 47 (place p).reverse :=
    foldl_pathCleanStep (show ∀ n ∈ ([] : List Bytes), 47 ∉ n by simp) fun _ =>
      sep_notMem_of_mem_split
  have hnil : text 47 (place p).reverse = [] ↔ (place p).reverse = [] := by
    cases (place p).reverse <;> simp
  unfold pathClean absText
  simp only [hout, hnil]

theorem resolve_canonical {cwd arg target : Bytes} (hcwd : IsCanonical cwd)
    (h : OS.resolve cwd arg = .ok target) : IsCanonical target := by
  unfold OS.resolve at h
  split at h
  · cases h
    exact hcwd
  · generalize (if hasPrefix arg (lit "/") then arg else cwd ++ lit "/" ++ arg) = path at h
    simp only [pathClean_eq] at h
    split at h
    · cases h
      exact isCanonical_place _
    · cases h

/-! ## Changing directory in two steps -/

theorem place_pathClean : place (pathClean p) = place p := by
  rw [pathClean_eq, place_absText fun _ hn => isName_of_mem_place (mem_reverse.1 hn),
    reverse_reverse]

theorem resolve_eq (cwd : Bytes) {arg : Bytes} (h : arg ≠ []) : OS.resolve cwd arg =
    .ok (pathClean (if hasPrefix arg (lit "/") then arg else cwd ++ lit "/" ++ arg)) := by
  rw [OS.resolve, if_neg h]
  have habs (path : Bytes) : hasPrefix (pathClean path) (lit "/") = true := by
    rw [pathClean_eq]
    exact isAbs_iff.2 (absText_cons _)
  simp only [habs, if_true]

/-- **Path resolution composes**, and a clean path is clean. -/
theorem resolve_composes (cwd : Bytes) {a b : Bytes} (ha : a ≠ []) (hb : b ≠ [])
    (hrel : hasPrefix b (lit "/") = false) :
    (∀ p, pathClean (pathClean p) = pathClean p) ∧
      (OS.resolve cwd a).bind (OS.resolve · b) = OS.resolve cwd (a ++ lit "/" ++ b) := by
  refine ⟨fun p => by rw [pathClean_eq, place_pathClean, ← pathClean_eq], ?_⟩
  have hplace (x y : Bytes) : place (x ++ lit "/" ++ y) = walk (place x) (elements y) := by
    rw [append_assoc, show lit "/" ++ y = 47 :: y from rfl, place, elements_append, walk_append]
    rfl
  obtain ⟨c, t, rfl⟩ := exists_cons_of_ne_nil ha
  rw [resolve_eq cwd ha, Except.bind, resolve_eq _ hb, resolve_eq cwd (by simp), hrel,
    if_neg (by decide), pathClean_eq, hplace, place_pathClean, ← hplace, ← pathClean_eq]
  -- the longer path is absolute exactly if its first part is
  have hhead : hasPrefix (c :: t ++ lit "/" ++ b) (lit "/") = hasPrefix (c :: t) (lit "/") := by
    simp [hasPrefix, show lit "/" = [47] from rfl, isPrefixOf]
  rw [hhead]
  split <;> simp only [append_assoc]

theorem resolve_composes_climbing :
    (OS.resolve (lit "/a/b") (lit "../../..")).bind (OS.resolve · (lit "c/./d")) =
      OS.resolve (lit "/a/b") (lit "../../../c/./d") :=
  (resolve_composes (lit "/a/b") (by decide) (by decide) (by decide)).2

/-! ## Host paths -/

/-- The directory of a user: the root joined with the user's `Home`. -/
def OS.homeDir (o : OS) (u : User) : Bytes :=
  if u.home ≠ [] then Filepath.join [o.root, u.home] else Filepath.join [o.root]

theorem newOS_root {root : Bytes} (getwd : Except Bytes Bytes) (h : isAbs root = true) :
    isAbs (newOS getwd root).root = true := by
  rw [newOS, Filepath.abs, if_pos h, clean_of_isAbs h]
  exact isAbs_iff.2 (absText_cons _)

theorem walk_canonical {p : Bytes} (h : IsCanonical p) (st : List Bytes) :
    st <:+ walk st (elements (trimPrefix p (lit "/"))) := by
  obtain ⟨names, hn, rfl⟩ := h
  rw [walk_trimPrefix]
  unfold absText
  split
  · exact ⟨[], by rfl⟩
  · rename_i hne
    rw [elements_text hn hne, walk_cons, walk_down]
    exact ⟨names.reverse, rfl⟩

/-- **The host path of a canonical path is the user's directory or lies below it.** -/
theorem full_under {o : OS} (ho : isAbs o.root = true) (u : User) {p : Bytes}
    (h : IsCanonical p) : Under (o.homeDir u) (o.full u p) := by
  have key : ∀ elem : List Bytes, Under (Filepath.join (o.root :: elem))
      (Filepath.join (o.root :: (elem ++ [trimPrefix p (lit "/")]))) := by
    intro elem
    have hnames : ∀ paths : List Bytes,
        ∀ n ∈ (walk (place o.root) (paths.flatMap elements)).reverse, IsName n := fun paths n hn =>
      isName_of_mem_walk (fun _ => isName_of_mem_place) n (mem_reverse.1 hn)
    rw [join_of_isAbs ho, join_of_isAbs ho, under_absText_iff (hnames _) (hnames _),
      reverse_prefix, flatMap_append, walk_append, flatMap_singleton]
    exact walk_canonical h _
  unfold OS.homeDir OS.full
  split
  · exact key [u.home]
  · exact key []

end Ftp
