import GoProtocols.Irc.Proof.Legible
import GoProtocols.Irc.Server.Channels

/-!
# Mode changes as parameters

The changes that were applied are a part of those asked for, in their order and with letters for
modes (`Reported`). So the arguments that are reported are parameters of the request, and
only one that was its last can have blanks in it (`readable_modeParams`).
-/

namespace Irc

open Go List

variable {r : Rune} {mc : ModeChange} {changes : List ModeChange} {ch : Channel}

/-! ## Letters -/

theorem isLetter_lt (h : isLetter r = true) : r < 0x80 := by
  have hr : (97 ≤ r ∧ r ≤ 122) ∨ (65 ≤ r ∧ r ≤ 90) := by simpa [isLetter] using h
  unfold Rune at *
  omega

theorem encodeRune_letter (h : isLetter r = true) :
    ∃ b : UInt8, encodeRune r = [b] ∧ b ≠ 13 ∧ b ≠ 10 ∧ b ≠ 32 := by
  have hr : (97 ≤ r ∧ r ≤ 122) ∨ (65 ≤ r ∧ r ≤ 90) := by simpa [isLetter] using h
  have hlt := isLetter_lt h
  have hnat : r.toUInt8.toNat = r := toNat_toUInt8 (Nat.lt_trans hlt (by decide))
  refine ⟨r.toUInt8, by simp [encodeRune, hlt], ?_, ?_, ?_⟩ <;>
  · intro he
    rw [he] at hnat
    unfold Rune at *
    revert hr
    rw [← hnat]
    decide

theorem clear_letter (h : isLetter r = true) : Clear (encodeRune r) := by
  obtain ⟨b, hb, h13, h10, -⟩ := encodeRune_letter h
  rw [hb]
  exact clear_of_forall fun c hc => by
    obtain rfl := mem_singleton.1 hc
    exact ⟨h13, h10⟩

theorem blank_notMem_letter (h : isLetter r = true) : 32 ∉ encodeRune r := by
  obtain ⟨b, hb, -, -, h32⟩ := encodeRune_letter h
  rw [hb]
  simpa using h32.symm

theorem isLetter_of_containsRune {s : Bytes} (hs : ∀ r ∈ runes s, isLetter r = true)
    (h : containsRune s r = true) : isLetter r = true :=
  hs r (by simpa [containsRune] using h)

/-! ## Parsing -/

theorem args_parseModes (add : Bool) (args : List Bytes) (modes : List Rune) :
    (((parseModes add args modes).map ModeChange.arg).filter (· ≠ [])).Sublist args := by
  induction modes generalizing add args with
  | nil => exact nil_sublist _
  | cons ch modes ih =>
    unfold parseModes
    split
    · exact ih true args
    split
    · exact ih false args
    cases args with
    | nil => simpa using ih add []
    | cons arg rest =>
      dsimp only
      split
      · rw [map_cons, filter_cons]
        split
        · exact (ih add rest).cons_cons arg
        · exact (ih add rest).cons arg
      · simpa using ih add (arg :: rest)

theorem args_parseModeString (modes : Bytes) (args : List Bytes) :
    (((parseModeString modes args).map ModeChange.arg).filter (· ≠ [])).Sublist args :=
  args_parseModes true args (runes modes)

/-! ## Applying -/

/-- The modes of the validator are letters, and it takes arguments as they are. -/
structure ModeValidator.Plain (v : ModeValidator) : Prop where
  letter : ∀ r, v.type r ≠ .unknown → isLetter r = true
  arg : ∀ r add arg, v.validateArg r add arg = some arg

theorem channelValidator_plain : channelValidator.Plain where
  letter r h := by
    simp only [channelValidator] at h
    split_ifs at h with h1 h2 h3 h4 h5
    · exact isLetter_of_containsRune (by decide) h1
    · rw [h2]; decide
    · rw [h3]; decide
    · exact isLetter_of_containsRune (by decide) h4
    · exact isLetter_of_containsRune (by decide) h5
    · exact absurd rfl h
  arg _ _ _ := rfl

theorem userValidator_plain : userValidator.Plain where
  letter r h := by
    simp only [userValidator] at h
    split_ifs at h with h1
    · exact isLetter_of_containsRune (by decide) h1
    · exact absurd rfl h
  arg _ _ _ := rfl

/-- The changes that were applied are some of those asked for, each of a letter. -/
structure Reported (asked applied : List ModeChange) : Prop where
  sublist : applied.Sublist asked
  letters : ∀ mc ∈ applied, isLetter mc.mode = true

theorem reported_nil (asked : List ModeChange) : Reported asked [] :=
  ⟨nil_sublist _, by simp⟩

theorem reported_singleton (h : isLetter mc.mode = true) : Reported [mc] [mc] :=
  ⟨List.Sublist.refl _, by simpa using h⟩

theorem Reported.append {asked asked' applied applied' : List ModeChange}
    (h : Reported asked applied) (h' : Reported asked' applied') :
    Reported (asked ++ asked') (applied ++ applied') :=
  ⟨h.sublist.append h'.sublist, forall_mem_append.2 ⟨h.letters, h'.letters⟩⟩

section
variable {v : ModeValidator} (hv : v.Plain) (s : ModeSet)
include hv

theorem applyOne_cases (mc : ModeChange) :
    s.applyOne v mc = (s, none) ∨
      isLetter mc.mode = true ∧ ∃ s', s.applyOne v mc = (s', some mc) := by
  have hcanonical (hadd : mc.add = true) : (⟨true, mc.mode, mc.arg⟩ : ModeChange) = mc := by
    cases mc
    simp_all
  have hletter (ht : v.type mc.mode ≠ .unknown) : isLetter mc.mode = true := hv.letter _ ht
  unfold ModeSet.applyOne
  simp only [hv.arg]
  split
  · rename_i ht
    have hl := hletter (by simp [ht])
    split_ifs
    · exact .inl rfl
    · exact .inr ⟨hl, _, rfl⟩
    · exact .inr ⟨hl, _, rfl⟩
    · exact .inl rfl
  · rename_i ht
    have hl := hletter (by simp [ht])
    split_ifs with hadd
    · rw [hcanonical hadd]
      exact .inr ⟨hl, _, rfl⟩
    · exact .inr ⟨hl, _, rfl⟩
    · exact .inl rfl
  · rename_i ht
    have hl := hletter (by simp [ht])
    split_ifs with hadd
    · rw [hcanonical hadd]
      exact .inr ⟨hl, _, rfl⟩
    · exact .inr ⟨hl, _, rfl⟩
    · exact .inl rfl
  · rename_i ht
    have hl := hletter (by simp [ht])
    split_ifs with hadd
    · exact .inl rfl
    · rw [hcanonical hadd]
      exact .inr ⟨hl, _, rfl⟩
    · exact .inr ⟨hl, _, rfl⟩
    · exact .inl rfl
  · exact .inl rfl
  · exact .inl rfl

theorem apply_reported (changes : List ModeChange) : Reported changes (s.apply v changes).2 := by
  induction changes generalizing s with
  | nil => exact reported_nil []
  | cons mc changes ih =>
    have hone : Reported [mc] (s.applyOne v mc).2.toList := by
      rcases applyOne_cases hv s mc with h | ⟨hl, s', h⟩
      · rw [h]
        exact reported_nil [mc]
      · rw [h]
        exact reported_singleton hl
    exact hone.append (ih _)

end

/-! ## Channel modes -/

section
variable [UnicodeTables]

theorem applyMembershipMode_cases {ch' : Channel}
    (h : ch.applyMembershipMode mc = some ch') :
    isLetter mc.mode = true ∧ ∃ m c, ch.getMembership mc.arg = some m ∧
      ch' = { ch with members :=
        ch.members.insert (toLower mc.arg) { m with status := changeStatus m.status mc.add c } } := by
  unfold Channel.applyMembershipMode at h
  split at h
  · cases h
  rename_i p hp
  split_ifs at h
  split at h
  · cases h
  rename_i m hm
  dsimp only at h
  split_ifs at h
  refine ⟨?_, m, p.1, hm, (Option.some.inj h).symm⟩
  have hletters : ∀ p ∈ statusModes, isLetter p.2.toNat = true := all_eq_true.1 (by decide)
  have hmode : p.2.toNat = mc.mode := by simpa using List.find?_some hp
  rw [← hmode]
  exact hletters p (mem_of_find?_eq_some hp)

theorem applyChannelModes_reported (changes : List ModeChange) (ch : Channel)
    (before : List ModeChange) :
    ∃ applied, (changes.foldl applyChannelMode (ch, before)).2 = before ++ applied ∧
      Reported changes applied := by
  induction changes generalizing ch before with
  | nil => exact ⟨[], by simp, reported_nil []⟩
  | cons mc changes ih =>
    -- one round appends the change, or nothing
    obtain ⟨new, hnew, hone⟩ : ∃ new, (applyChannelMode (ch, before) mc).2 = before ++ new ∧
        Reported [mc] new := by
      unfold applyChannelMode
      dsimp only
      split
      · split
        · exact ⟨[], by simp, reported_nil [mc]⟩
        · rename_i ch' hch'
          exact ⟨[mc], rfl, reported_singleton (applyMembershipMode_cases hch').1⟩
      · exact ⟨_, rfl, apply_reported channelValidator_plain ch.modes [mc]⟩
    obtain ⟨applied, happ, hrest⟩ := ih (applyChannelMode (ch, before) mc).1 (before ++ new)
    rw [foldl_cons, show applyChannelMode (ch, before) mc =
      ((applyChannelMode (ch, before) mc).1, before ++ new) from Prod.ext rfl hnew]
    exact ⟨new ++ applied, by rw [happ, append_assoc], hone.append hrest⟩

end

/-! ## Reporting -/

theorem formatModes_plain
    (h : ∀ mc ∈ changes, isLetter mc.mode = true) (add : Bool) :
    32 ∉ formatModes add changes ∧ Clear (formatModes add changes) := by
  induction changes generalizing add with
  | nil => exact ⟨by simp [formatModes], by simp [formatModes]⟩
  | cons mc changes ih =>
    have hl := h mc (by simp)
    have hsign (add : Bool) : 32 ∉ signOf add ∧ Clear (signOf add) := by
      cases add <;> decide
    obtain ⟨hblank, hclear⟩ := ih (forall_mem_cons.1 h).2 mc.add
    unfold formatModes
    split <;> simp [hsign, blank_notMem_letter hl, clear_letter hl, hblank, hclear]

theorem word_formatModeChanges (hne : changes ≠ [])
    (h : ∀ mc ∈ changes, isLetter mc.mode = true) : Word (formatModeChanges changes).1 := by
  obtain ⟨mc, rest, rfl⟩ := exists_cons_of_ne_nil hne
  obtain ⟨hblank, hclear⟩ := formatModes_plain h mc.add
  have hsign : Word (signOf mc.add) := by
    cases mc.add <;> decide
  exact { hsign.toMiddle.append hblank with ended := hsign.ended.append hclear.ended }

theorem args_formatModeChanges (changes : List ModeChange) :
    (formatModeChanges changes).2 = (changes.map ModeChange.arg).filter (· ≠ []) := by
  cases changes <;> rfl

/-- **The report of applied changes can be read**, if the request could. -/
theorem readable_modeParams {target modes : Bytes} {params : List Bytes} (htarget : Middle target)
    (hmid : ∀ p ∈ params.dropLast, Middle p) (hended : ∀ p ∈ params.drop 2, Ended p)
    {applied : List ModeChange} (hne : applied ≠ [])
    (h : Reported (parseModeString modes (params.drop 2)) applied) :
    Readable (target :: (formatModeChanges applied).1 :: (formatModeChanges applied).2) := by
  have hargs : (formatModeChanges applied).2.Sublist (params.drop 2) := by
    rw [args_formatModeChanges]
    exact ((h.sublist.map _).filter _).trans (args_parseModeString modes _)
  have hinit : (formatModeChanges applied).2.dropLast.Sublist params.dropLast := by
    have htail := (hargs.trans (drop_sublist 2 params)).reverse.tail
    rwa [tail_reverse, tail_reverse, reverse_sublist] at htail
  refine .cons htarget (.word_cons (word_formatModeChanges hne h.letters) ?_)
  exact readable_of_last (fun p hp => hmid p (hinit.subset hp))
    fun p hp => hended p (hargs.subset (mem_of_mem_getLast? hp))

end Irc
