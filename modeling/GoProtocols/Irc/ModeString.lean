import GoProtocols.Irc.ModeArgs
import GoProtocols.Irc.ModeReport

/-!
# Reading a mode string back

`Set.String` writes the flags, then the modes with an argument, then the arguments.
`ParseModeString` takes an argument for `O`, which is a flag of a channel: in `+Ok key` it takes the
key for `O`.

* `parseModes_append`: a letter gets what the letters before it leave.
-/

namespace Irc

open Go System List

variable {flags : List (Sigma fun _ : Rune => Bool)} {args : List (Sigma fun _ : Rune => Bytes)}
  {modes : List Rune} {m : Rune}

/-- The set that is read back from a mode string and its arguments. -/
def ModeSet.ofString (s : Bytes) : ModeSet :=
  (({} : ModeSet).apply channelValidator
    (parseModeString ((split s 32).headD []) (split s 32).tail)).1

def ModeSet.Agrees (s s' : ModeSet) : Prop :=
  (∀ m, s.flags.lookup m = s'.flags.lookup m) ∧ ∀ m, s.args.lookup m = s'.args.lookup m

def Written (args : List (Sigma fun _ : Rune => Bytes)) : Prop :=
  ∀ a ∈ args, a.2 ≠ [] ∧ 32 ∉ a.2

instance (args : List (Sigma fun _ : Rune => Bytes)) : Decidable (Written args) :=
  inferInstanceAs (Decidable (∀ a ∈ args, _))

/-! ## Parsing -/

theorem parseModes_append (h : ∀ m ∈ modes, isLetter m = true) (args : List Bytes)
    (modes' : List Rune) :
    parseModes true args (modes ++ modes') = parseModes true args modes ++
      parseModes true (args.drop (modes.countP (modeNeedsArg · true))) modes' := by
  induction modes generalizing args with
  | nil => rfl
  | cons m modes ih =>
    have hm := h m (by simp)
    rw [cons_append, parseModes_cons hm, parseModes_cons hm, countP_cons]
    split <;> simp_all [Nat.add_comm]

theorem parseModes_own (h : ∀ a ∈ args, isLetter a.1 = true ∧ modeNeedsArg a.1 true = true) :
    parseModes true (args.map Sigma.snd) (args.map Sigma.fst) =
      args.map fun a => ⟨true, a.1, a.2⟩ := by
  induction args with
  | nil => rfl
  | cons a args ih =>
    obtain ⟨hl, hneeds⟩ := h a (by simp)
    have hrest := ih (forall_mem_cons.1 h).2
    simp [parseModes_cons hl, hneeds, hrest]

theorem runes_flatMap (h : ∀ m ∈ modes, isLetter m = true) :
    runes (modes.flatMap encodeRune) = modes := by
  induction modes with
  | nil => rfl
  | cons m modes ih =>
    rw [flatMap_cons, runes_letter (h m (by simp)), ih (forall_mem_cons.1 h).2]

theorem parse_string (h : ∀ m ∈ flags.map Sigma.fst ++ args.map Sigma.fst, isLetter m = true)
    (hw : Written args) :
    ModeSet.ofString (ModeSet.string flags args) = (({} : ModeSet).apply channelValidator
      (parseModes true (args.map Sigma.snd) (flags.map Sigma.fst ++ args.map Sigma.fst))).1 := by
  have hstring : ModeSet.string flags args = join ((signOf true ++
      (flags.map Sigma.fst ++ args.map Sigma.fst).flatMap encodeRune) :: args.map Sigma.snd) [32] := by
    unfold ModeSet.string
    cases args <;>
      simp [join, signOf, flatMap_map, intercalate_cons_cons,
        (by decide : lit " " = [32])]
  have hsplit : split (ModeSet.string flags args) 32 = (signOf true ++
      (flags.map Sigma.fst ++ args.map Sigma.fst).flatMap encodeRune) :: args.map Sigma.snd := by
    rw [hstring]
    refine splitOn_intercalate 32 (fun l hl => ?_) (by simp)
    rcases mem_cons.1 hl with rfl | hl
    · rw [mem_append, mem_flatMap, not_or]
      exact ⟨by decide, fun ⟨m, hm, hblank⟩ => blank_notMem_letter (h m hm) hblank⟩
    · obtain ⟨a, ha, rfl⟩ := mem_map.1 hl
      exact (hw a ha).2
  rw [ModeSet.ofString, hsplit, headD_cons, tail_cons, parseModeString, runes_signOf,
    parseModes_sign, runes_flatMap h]

/-! ## Setting -/

namespace ModeSet

theorem fst_apply_append {v : ModeValidator} (s : ModeSet) (changes changes' : List ModeChange) :
    (s.apply v (changes ++ changes')).1 = ((s.apply v changes).1.apply v changes').1 := by
  induction changes generalizing s with
  | nil => rfl
  | cons mc changes ih => exact ih _

theorem apply_flags (h : ∀ m ∈ modes, isLetter m = true ∧ channelValidator.type m = .flag)
    (args : List Bytes) (s : ModeSet) :
    let s' := (s.apply channelValidator (parseModes true args modes)).1
    s'.args = s.args ∧
      ∀ m, s'.flags.lookup m = if m ∈ modes then some true else s.flags.lookup m := by
  induction modes generalizing s args with
  | nil => exact ⟨rfl, fun m => (if_neg not_mem_nil).symm⟩
  | cons m modes ih =>
    obtain ⟨hl, hflag⟩ := h m (by simp)
    have ih := ih (forall_mem_cons.1 h).2
    obtain ⟨arg, args', hparse⟩ : ∃ arg args', parseModes true args (m :: modes) =
        ⟨true, m, arg⟩ :: parseModes true args' modes := by
      rw [parseModes_cons hl]
      split <;> exact ⟨_, _, rfl⟩
    have hone : (s.applyOne channelValidator ⟨true, m, arg⟩).1.args = s.args ∧
        ∀ m', (s.applyOne channelValidator ⟨true, m, arg⟩).1.flags.lookup m' =
          if m' = m then some true else s.flags.lookup m' := by
      simp only [applyOne, hflag, if_true]
      split
      · rename_i hhas
        have hset : s.flags.lookup m = some true := by
          simpa [has, Option.getD_eq_iff] using hhas
        refine ⟨rfl, fun m' => ?_⟩
        split
        · rename_i hm
          rw [hm, hset]
        · rfl
      · exact ⟨rfl, fun m' => Map.lookup_insert_eq _ _ m' _⟩
    obtain ⟨hargs, hflags⟩ := ih args' (s.applyOne channelValidator ⟨true, m, arg⟩).1
    rw [hparse]
    refine ⟨hargs.trans hone.1, fun m' => (hflags m').trans ?_⟩
    rw [hone.2]
    simp only [mem_cons]
    split_ifs <;> simp_all

theorem applyOne_arg (h : channelValidator.type m = .argAlways ∨ channelValidator.type m = .argSet)
    (s : ModeSet) (arg : Bytes) : (s.applyOne channelValidator ⟨true, m, arg⟩).1 =
      { s with args := s.args.insert m arg } := by
  rcases h with ht | ht <;> simp [applyOne, ht, channelValidator_plain.arg]

theorem apply_args (h : ∀ a ∈ args, channelValidator.type a.1 = .argAlways ∨
      channelValidator.type a.1 = .argSet) (hn : args.NodupKeys) (s : ModeSet) :
    let s' := (s.apply channelValidator (args.map fun a => ⟨true, a.1, a.2⟩)).1
    s'.flags = s.flags ∧ ∀ m, s'.args.lookup m = (args.dlookup m).or (s.args.lookup m) := by
  induction args generalizing s with
  | nil => exact ⟨rfl, fun m => rfl⟩
  | cons a args ih =>
    obtain ⟨a, arg⟩ := a
    obtain ⟨hnot, hn⟩ := nodupKeys_cons.1 hn
    have hone := applyOne_arg (h ⟨a, arg⟩ (by simp)) s arg
    obtain ⟨hflags, hargs⟩ := ih (forall_mem_cons.1 h).2 hn
      (s.applyOne channelValidator ⟨true, a, arg⟩).1
    refine ⟨hflags.trans (by rw [hone]), fun m => (hargs m).trans ?_⟩
    rw [hone, Map.lookup_insert_eq]
    split
    · rename_i hm
      rw [hm, dlookup_cons_eq, dlookup_eq_none.2 hnot]
      rfl
    · rename_i hm
      rw [dlookup_cons_ne _ _ hm]

end ModeSet

/-! ## Sets -/

theorem needsArg_of_type : ∀ m < 128,
    (channelValidator.type m = .flag → modeNeedsArg m true = true → m = rune 'O') ∧
      (channelValidator.type m = .argAlways ∨ channelValidator.type m = .argSet →
        modeNeedsArg m true = true) := by
  decide +kernel

section
variable {s : ModeSet} (h : s.Typed channelValidator) (hflags : flags.Perm s.flags.entries)
  (hargs : args.Perm s.args.entries)
include h

omit h in
theorem has_iff (hflags : flags.Perm s.flags.entries) : s.has m = true ↔ ⟨m, true⟩ ∈ flags := by
  rw [hflags.mem_iff, ← Map.lookup_eq_some_iff, ModeSet.has, Option.getD_eq_iff]
  simp

include hflags in
theorem flag_of_mem (hm : m ∈ flags.map Sigma.fst) :
    isLetter m = true ∧ channelValidator.type m = .flag := by
  obtain ⟨f, hf, rfl⟩ := mem_map.1 hm
  have hflag := (h.flags f (hflags.subset hf)).1
  exact ⟨channelValidator_plain.letter _ (by simp [hflag]), hflag⟩

include hargs in
theorem needsArg_of_mem {a : Sigma fun _ : Rune => Bytes} (ha : a ∈ args) :
    isLetter a.1 = true ∧ modeNeedsArg a.1 true = true := by
  have htype := h.args a (hargs.subset ha)
  have hl : isLetter a.1 = true := by
    rcases htype with ht | ht <;> exact channelValidator_plain.letter _ (by simp [ht])
  exact ⟨hl, (needsArg_of_type _ (isLetter_lt hl)).2 htype⟩

include hflags hargs

theorem agrees_own (args' : List Bytes) :
    ((({} : ModeSet).apply channelValidator (parseModes true args' (flags.map Sigma.fst))).1.apply
      channelValidator (args.map fun a => ⟨true, a.1, a.2⟩)).1.Agrees s := by
  have hn : args.NodupKeys := (perm_nodupKeys hargs).2 s.args.nodupKeys
  obtain ⟨hargs₁, hflags₁⟩ := ModeSet.apply_flags (fun m hm => flag_of_mem h hflags hm) args' {}
  obtain ⟨hflags₂, hargs₂⟩ := ModeSet.apply_args (fun a ha => h.args a (hargs.subset ha)) hn
    (({} : ModeSet).apply channelValidator (parseModes true args' (flags.map Sigma.fst))).1
  refine ⟨fun m => ?_, fun m => ?_⟩
  · rw [hflags₂, hflags₁]
    have hkeys : m ∈ flags.map Sigma.fst ↔ m ∈ s.flags := (hflags.map Sigma.fst).mem_iff
    split
    · rename_i hm
      obtain ⟨set, hset⟩ := Option.isSome_iff_exists.1 (AList.lookup_isSome.2 (hkeys.1 hm))
      rw [hset, (h.flags.of_lookup hset).2]
    · rename_i hm
      exact (AList.lookup_eq_none.2 (mt hkeys.2 hm)).symm
  · rw [hargs₂, hargs₁, perm_dlookup m hn hargs]
    exact Option.or_none

/-- **A set is read back as it was exactly if no argument follows an `O`.** -/
theorem agrees_ofString_iff (hw : Written args) :
    (ModeSet.ofString (ModeSet.string flags args)).Agrees s ↔
      ¬ (s.has (rune 'O') = true ∧ args ≠ []) := by
  have hF {m : Rune} (hm : m ∈ flags.map Sigma.fst) := flag_of_mem h hflags hm
  have hA {a} (ha : a ∈ args) := needsArg_of_mem h hargs ha
  have hletters : ∀ m ∈ flags.map Sigma.fst ++ args.map Sigma.fst, isLetter m = true := by
    exact forall_mem_append.2 ⟨fun m hm => (hF hm).1, forall_mem_map.2 fun a ha => (hA ha).1⟩
  rw [parse_string hletters hw]
  constructor
  · rintro hagrees ⟨ho, hne⟩
    obtain ⟨args', a, rfl⟩ := (eq_nil_or_concat' args).resolve_left hne
    -- the last mode gets no argument
    have hcount : (args' ++ [a]).length ≤
        (flags.map Sigma.fst ++ args'.map Sigma.fst).countP (modeNeedsArg · true) := by
      have hflag : 0 < (flags.map Sigma.fst).countP (modeNeedsArg · true) :=
        countP_pos_iff.2 ⟨_, mem_map_of_mem ((has_iff hflags).1 ho), by decide⟩
      have hall : (args'.map Sigma.fst).countP (modeNeedsArg · true) =
          (args'.map Sigma.fst).length := by
        rw [countP_eq_length]
        exact forall_mem_map.2 fun a' ha' => (hA (mem_append_left [a] ha')).2
      rw [countP_append, hall, length_map, length_append, length_singleton]
      omega
    have hlast := hagrees.2 a.1
    have ha : a ∈ args' ++ [a] := mem_append_right args' (mem_singleton_self a)
    rw [map_append (f := Sigma.fst), ← append_assoc] at hletters hlast
    rw [parseModes_append fun m hm => hletters m (mem_append_left _ hm),
      drop_eq_nil_of_le (by simpa using hcount), ModeSet.fst_apply_append, map_singleton,
      parseModes_cons (hA ha).1, if_pos (hA ha).2] at hlast
    have hset : (some [] : Option Bytes) = some a.2 := by
      rw [← Map.lookup_eq_some_iff.2 (hargs.subset ha), ← hlast]
      refine Eq.symm (congrArg (·.args.lookup a.1) (ModeSet.applyOne_arg ?_ _ []) |>.trans ?_)
      · exact h.args a (hargs.subset ha)
      · exact AList.lookup_insert _
    exact (hw a ha).1 (Option.some.inj hset).symm
  · intro hnot
    have hown : parseModes true ((args.map Sigma.snd).drop
        ((flags.map Sigma.fst).countP (modeNeedsArg · true))) (args.map Sigma.fst) =
        args.map fun a => ⟨true, a.1, a.2⟩ := by
      by_cases hne : args = []
      · rw [hne]
        rfl
      have hnone : (flags.map Sigma.fst).countP (modeNeedsArg · true) = 0 := by
        refine countP_eq_zero.2 fun m hm hneeds => hnot ⟨?_, hne⟩
        obtain ⟨f, hf, rfl⟩ := mem_map.1 hm
        obtain ⟨hl, hflag⟩ := hF hm
        have hO := (needsArg_of_type _ (isLetter_lt hl)).1 hflag hneeds
        rw [has_iff hflags, ← hO, ← (h.flags f (hflags.subset hf)).2]
        exact hf
      rw [hnone, drop_zero]
      exact parseModes_own fun a ha => hA ha
    rw [parseModes_append fun m hm => (hF hm).1, hown, ModeSet.fst_apply_append]
    exact agrees_own h hflags hargs _

end

/-! ## Runs -/

section
variable [UnicodeTables] {env : Env} {es : List Event}

theorem typed_channels (hv : (ircd env).Valid es) :
    ((ircd env).after es).srv.channels.All fun _ ch => ch.modes.Typed channelValidator := by
  refine (ircd env).invariant (I := fun _ st => st.srv.channels.All fun _ ch =>
    ch.modes.Typed channelValidator) (G := fun _ _ _ => True) Map.all_empty ?_ hv ?_
  · exact fun _ e h _ _ => modes_step ModeSet.typed_empty (fun mc _ _ hs _ => hs.applyOne mc) h
  · exact fun _ _ _ => trivial

/-- **The mode string of a channel is faithful exactly if no argument follows an `O`**, whatever the
order in which the maps are visited. -/
theorem string_faithful_iff (hv : (ircd env).Valid es) {key : Bytes} {ch : Channel}
    (hch : ((ircd env).after es).srv.channels.lookup key = some ch)
    (hflags : flags.Perm ch.modes.flags.entries) (hargs : args.Perm ch.modes.args.entries)
    (hw : Written args) :
    (ModeSet.ofString (ModeSet.string flags args)).Agrees ch.modes ↔
      ¬ (ch.modes.has (rune 'O') = true ∧ args ≠ []) :=
  agrees_ofString_iff ((typed_channels hv).of_lookup hch) hflags hargs hw

end

section
attribute [local instance] asciiTables

def channelAfter (es : List Event) : Option Channel :=
  ((ircd (Config.still {})).after es).srv.channels.lookup (lit "#a")

theorem string_faithful_iff_key :
    ∃ ch ∈ channelAfter (moderates (lit "+Ak key")), ch.modes.args.entries ≠ [] ∧
      (ModeSet.ofString (ModeSet.string ch.modes.flags.entries ch.modes.args.entries)).Agrees
        ch.modes := by
  have hsome : (channelAfter (moderates (lit "+Ak key"))).isSome = true := by decide +kernel
  refine ⟨_, Option.get_mem hsome, by decide +kernel +revert, ?_⟩
  exact (string_faithful_iff (by decide +kernel) (Option.get_mem hsome) (.refl _) (.refl _)
    (by decide +kernel +revert)).2 (by decide +kernel +revert)

/-- The key is read as the argument of `O`. -/
theorem not_faithful_flag_and_key :
    (ircd (Config.still {})).Valid (moderates (lit "+Ok x key")) ∧
      ∃ ch ∈ channelAfter (moderates (lit "+Ok x key")), Written ch.modes.args.entries ∧
        ¬ (ModeSet.ofString (ModeSet.string ch.modes.flags.entries ch.modes.args.entries)).Agrees
          ch.modes := by
  have hsome : (channelAfter (moderates (lit "+Ok x key"))).isSome = true := by decide +kernel
  refine ⟨by decide +kernel, _, Option.get_mem hsome, by decide +kernel +revert, ?_⟩
  exact mt (fun h => h.2 (rune 'k')) (by decide +kernel +revert)

end

end Irc
