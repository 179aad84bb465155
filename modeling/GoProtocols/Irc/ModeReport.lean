import GoProtocols.Irc.Proof.Modes

/-!
# What a mode broadcast says

`FormatModeChanges` leaves out empty arguments, so that a list of changes can be read back only if
its arguments are where `ParseModeString` looks for them (`Aligned`): none for a mode that takes
none, and no argument after one that is missing.

* `aligned_parseModes`: the changes of a request are aligned, if no argument but its last is empty;
  so are those of them that were applied.
* `parseModes_formatModes`: aligned changes are read back as they were.
-/

namespace Irc

open Go List

variable {changes : List ModeChange} (add add' : Bool) (args : List Bytes) (modes : List Rune)
  {mc : ModeChange}

def ModeChange.needsArg (mc : ModeChange) : Bool := modeNeedsArg mc.mode mc.add

/-- The arguments are where they are looked for. -/
structure Aligned (changes : List ModeChange) : Prop where
  none : ∀ mc ∈ changes, mc.needsArg = false → mc.arg = []
  missing : changes.Pairwise fun mc mc' => mc.needsArg = true → mc.arg = [] → mc'.arg = []

theorem Aligned.sublist {applied : List ModeChange} (h : Aligned changes)
    (hsub : applied.Sublist changes) : Aligned applied :=
  ⟨fun mc hmc => h.none mc (hsub.subset hmc), h.missing.sublist hsub⟩

/-! ## Requests -/

theorem arg_parseModes_nil : ∀ mc ∈ parseModes add [] modes, mc.arg = [] := by
  induction modes generalizing add with
  | nil => simp [parseModes]
  | cons ch modes ih =>
    unfold parseModes
    split
    · exact ih true
    split
    · exact ih false
    exact forall_mem_cons.2 ⟨rfl, ih add⟩

theorem Aligned.cons (h : Aligned changes) (hnone : mc.needsArg = false → mc.arg = [])
    (hmissing : mc.needsArg = true → mc.arg = [] → ∀ mc' ∈ changes, mc'.arg = []) :
    Aligned (mc :: changes) :=
  ⟨forall_mem_cons.2 ⟨hnone, h.none⟩, pairwise_cons.2
    ⟨fun mc' hmc' hneeds hnil => hmissing hneeds hnil mc' hmc', h.missing⟩⟩

theorem aligned_parseModes {args : List Bytes} (hargs : ∀ a ∈ args.dropLast, a ≠ [])
    (modes : List Rune) : Aligned (parseModes add args modes) := by
  induction modes generalizing add args with
  | nil => exact ⟨by simp [parseModes], by simp [parseModes]⟩
  | cons ch modes ih =>
    unfold parseModes
    split
    · exact ih true hargs
    split
    · exact ih false hargs
    cases args with
    | nil =>
      refine (ih add hargs).cons (fun _ => rfl) fun _ _ => ?_
      exact arg_parseModes_nil add modes
    | cons arg rest =>
      dsimp only
      split
      · rename_i hneeds
        have hrest : ∀ a ∈ rest.dropLast, a ≠ [] := by
          cases rest with
          | nil => simp
          | cons b rest =>
            intro a ha
            exact hargs a (by rw [dropLast_cons_of_ne_nil (by simp)]; exact .tail _ ha)
        have htakes : (⟨add, ch, arg⟩ : ModeChange).needsArg = true := hneeds
        refine (ih add hrest).cons (fun h => absurd htakes (by simp [h])) fun _ hnil => ?_
        -- an empty argument is the last one
        have hlast : rest = [] := by
          by_contra hne
          refine hargs arg ?_ hnil
          rw [dropLast_cons_of_ne_nil hne]
          exact mem_cons_self
        rw [hlast]
        exact arg_parseModes_nil add modes
      · rename_i hneeds
        exact (ih add hargs).cons (fun _ => rfl) fun h => absurd h hneeds

/-! ## Reports -/

theorem runes_letter {r : Rune} (h : isLetter r = true) (s : Bytes) :
    runes (encodeRune r ++ s) = r :: runes s := by
  rw [runes, tokens_encodeRune, scalar_of_lt (Nat.lt_trans (isLetter_lt h) (by decide))]
  rfl

theorem runes_signOf (s : Bytes) :
    runes (signOf add ++ s) = (if add then rune '+' else rune '-') :: runes s := by
  cases add
  · exact runes_append_ascii [] (b := 45) (by decide) s
  · exact runes_append_ascii [] (b := 43) (by decide) s

theorem parseModes_sign :
    parseModes add args ((if add' then rune '+' else rune '-') :: modes) =
      parseModes add' args modes := by
  cases add' <;> rfl

def reportedArgs (changes : List ModeChange) : List Bytes :=
  (changes.map ModeChange.arg).filter (· ≠ [])

theorem parseModes_cons {m : Rune} (hl : isLetter m = true) (add : Bool) (args : List Bytes)
    (modes : List Rune) :
    parseModes add args (m :: modes) =
      if modeNeedsArg m add then ⟨add, m, args.headD []⟩ :: parseModes add args.tail modes
      else ⟨add, m, []⟩ :: parseModes add args modes := by
  have hplus : m ≠ rune '+' := fun he => absurd hl (by rw [he]; decide)
  have hminus : m ≠ rune '-' := fun he => absurd hl (by rw [he]; decide)
  rw [parseModes.eq_def]
  dsimp only
  rw [if_neg hplus, if_neg hminus]
  cases args <;> simp

theorem parseModes_letter (hl : isLetter mc.mode = true) (h : Aligned (mc :: changes))
    (modes : List Rune) :
    parseModes mc.add (reportedArgs (mc :: changes)) (mc.mode :: modes) =
      mc :: parseModes mc.add (reportedArgs changes) modes := by
  rw [parseModes_cons hl]
  by_cases hnil : mc.arg = []
  · have hall : reportedArgs (mc :: changes) = reportedArgs changes := by
      rw [reportedArgs, map_cons, filter_cons_of_neg (by simp [hnil])]
      rfl
    rw [hall]
    split
    · rename_i hneeds
      -- the argument is missing, and there is none after it
      have hargs : reportedArgs changes = [] := by
        refine filter_eq_nil_iff.2 fun a ha => ?_
        obtain ⟨mc', hmc', rfl⟩ := mem_map.1 ha
        simp [(pairwise_cons.1 h.missing).1 mc' hmc' hneeds hnil]
      simp [hargs, ← hnil]
    · rw [← hnil]
  · have hneeds : modeNeedsArg mc.mode mc.add = true := by
      by_contra hneeds
      exact hnil (h.none mc (by simp) (by simpa [ModeChange.needsArg] using hneeds))
    have hall : reportedArgs (mc :: changes) = mc.arg :: reportedArgs changes := by
      rw [reportedArgs, map_cons, filter_cons_of_pos (by simpa using hnil)]
      rfl
    rw [if_pos hneeds, hall, headD_cons, tail_cons]

theorem parseModes_formatModes (h : Aligned changes)
    (hletters : ∀ mc ∈ changes, isLetter mc.mode = true) (add : Bool) :
    parseModes add (reportedArgs changes) (runes (formatModes add changes)) = changes := by
  induction changes generalizing add with
  | nil => rfl
  | cons mc changes ih =>
    have hl := hletters mc (by simp)
    have hrest := ih (h.sublist (sublist_cons_self _ _))
      (forall_mem_cons.1 hletters).2 mc.add
    have hmode : parseModes mc.add (reportedArgs (mc :: changes))
        (runes (encodeRune mc.mode ++ formatModes mc.add changes)) = mc :: changes := by
      rw [runes_letter hl, parseModes_letter hl h, hrest]
    unfold formatModes
    split
    · rw [append_assoc, runes_signOf, parseModes_sign]
      exact hmode
    · rename_i hadd
      have hadd : mc.add = add := by simpa using hadd
      subst hadd
      exact hmode

theorem parseModeString_formatModeChanges (h : Aligned changes)
    (hletters : ∀ mc ∈ changes, isLetter mc.mode = true) :
    parseModeString (formatModeChanges changes).1 (formatModeChanges changes).2 = changes := by
  cases changes with
  | nil => rfl
  | cons mc changes =>
    show parseModes true (reportedArgs (mc :: changes))
      (runes (signOf mc.add ++ formatModes mc.add (mc :: changes))) = _
    rw [runes_signOf, parseModes_sign]
    exact parseModes_formatModes h hletters mc.add

/-- **A broadcast says what was applied**: reading it back gives the same changes. -/
theorem broadcast_faithful [UnicodeTables] (ch : Channel) (modes : Bytes) {args : List Bytes}
    (hargs : ∀ a ∈ args.dropLast, a ≠ []) :
    let applied := ((parseModeString modes args).foldl applyChannelMode (ch, [])).2
    parseModeString (formatModeChanges applied).1 (formatModeChanges applied).2 = applied := by
  intro applied
  obtain ⟨applied', happ, hreported⟩ :=
    applyChannelModes_reported (parseModeString modes args) ch []
  have heq : applied = applied' := happ.trans (nil_append _)
  rw [heq]
  have haligned := (aligned_parseModes true hargs (runes modes)).sublist hreported.sublist
  exact parseModeString_formatModeChanges haligned hreported.letters

attribute [local instance] asciiTables

/-- A ban, a key and a limit of which the last is left out. -/
theorem broadcast_faithful_ban :
    let applied := ((parseModeString (lit "+bk-n+l") [lit "*!*@*", lit "key", []]).foldl
      applyChannelMode ({ name := lit "#a" }, [])).2
    applied ≠ [] ∧
      parseModeString (formatModeChanges applied).1 (formatModeChanges applied).2 = applied :=
  ⟨by decide +kernel, broadcast_faithful _ _ (by decide)⟩

end Irc
