import GoProtocols.Sftp.Osfs

/-!
# The sandbox of the SFTP backend

`FS.join` trims one slash and leaves the rest to `filepath.Join`, which resolves `..` against the
root's own elements. A path can therefore climb out of the root; it ends up below the root again
only if it names the directories it has left.
-/

namespace Osfs

open Go PathWalk Filepath List

variable {root : Bytes} (getwd : Except Bytes Bytes)

/-- The path climbs `u` levels out of the root and then names the innermost `u` directories of the
root again; with `u = 0` it never leaves. -/
def ComesBack (root path : Bytes) : Prop :=
  (place root).take (rel (elements path)).ups <:+ (rel (elements path)).names

instance (root path : Bytes) : Decidable (ComesBack root path) :=
  inferInstanceAs (Decidable (_ <:+ _))

theorem new_root (h : isAbs root = true) :
    (new getwd root).root = absText (place root).reverse := by
  rw [new, Filepath.abs, if_pos h, clean_of_isAbs h]

theorem isName_of_mem_reverse_place {path : Bytes} : ∀ n ∈ (place path).reverse, IsName n :=
  fun _ h => isName_of_mem_place (mem_reverse.1 h)

/-- **A client's path is walked from the root.** -/
theorem join_eq (h : isAbs root = true) (path : Bytes) :
    (new getwd root).join path = absText (walk (place root) (elements path)).reverse := by
  have habs : isAbs (absText (place root).reverse) = true := isAbs_iff.2 (absText_cons _)
  rw [FS.join, new_root getwd h, join_of_isAbs habs, place_absText isName_of_mem_reverse_place,
    reverse_reverse, flatMap_singleton, walk_trimPrefix]

theorem join_under_iff (h : isAbs root = true) (path : Bytes) :
    Under (new getwd root).root ((new getwd root).join path) ↔ ComesBack root path := by
  have hnames : ∀ n ∈ (walk (place root) (elements path)).reverse, IsName n := by
    intro n hn
    rw [← flatMap_singleton elements] at hn
    exact isName_of_mem_walk (fun _ => isName_of_mem_place) n (mem_reverse.1 hn)
  rw [new_root getwd h, join_eq getwd h,
    under_absText_iff isName_of_mem_reverse_place hnames, reverse_prefix, suffix_walk_iff]
  rfl

theorem hostCall_paths (f : FS) (req : Request) :
    (f.hostCall req).paths = req.paths.map f.join := by
  cases req <;> rfl

/-- **The host paths of a request are in or below the root if and only if every path in it comes
back to the root.** -/
theorem hostCall_under_iff (h : isAbs root = true) (req : Request) :
    (∀ p ∈ ((new getwd root).hostCall req).paths, Under (new getwd root).root p) ↔
      ∀ path ∈ req.paths, ComesBack root path := by
  rw [hostCall_paths, forall_mem_map]
  exact forall₂_congr fun path _ => join_under_iff getwd h path

theorem hostCall_under_iff_docs :
    isAbs (lit "/srv/sftp") = true ∧
      ((∀ p ∈ ((new (.error []) (lit "/srv/sftp")).hostCall (.stat (lit "a/../b"))).paths,
          Under (new (.error []) (lit "/srv/sftp")).root p) ↔
        ∀ path ∈ (Request.stat (lit "a/../b")).paths, ComesBack (lit "/srv/sftp") path) :=
  ⟨by decide, hostCall_under_iff _ (by decide) _⟩

/-- Two `..` reach the top of the host's file system from a root two levels deep. -/
theorem removeAll_escapes :
    (new (.error []) (lit "/srv/sftp")).hostCall (.rmdir (lit "../../etc")) =
        .removeAll (lit "/etc") ∧
      ¬ Under (new (.error []) (lit "/srv/sftp")).root (lit "/etc") := by
  have hroot : (new (.error []) (lit "/srv/sftp")).root = lit "/srv/sftp" := by decide
  refine ⟨by rfl, fun h => ?_⟩
  rw [hroot] at h
  revert h
  unfold Under
  decide

end Osfs
