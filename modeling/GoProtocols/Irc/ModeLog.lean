import GoProtocols.Irc.Proof.Modes

/-!
# The changes that were applied

`Set.Apply` returns the changes that had an effect. They are all that is needed to come from the
set before the call to the set after it (`apply_again`): a change that was left out did nothing, and
one that was applied is applied again as it is.

`ModeSet.Typed v s`: what the set holds of a mode is what the validator `v` has for the mode, so that
no mode is held in two ways. Every call of `Apply` keeps it.
-/

namespace Irc

open Go

variable {s : ModeSet} {mc : ModeChange} {v : ModeValidator} {s' : ModeSet}

namespace ModeSet

/-! ## Applying again -/

theorem apply_cons_some (h : s.applyOne v mc = (s', some mc)) (changes : List ModeChange) :
    s.apply v (mc :: changes) = ((s'.apply v changes).1, mc :: (s'.apply v changes).2) := by
  simp [apply, h]

/-- **The applied changes do what all of them did.** -/
theorem apply_again (hv : v.Plain) (s : ModeSet) (changes : List ModeChange) :
    s.apply v (s.apply v changes).2 = s.apply v changes := by
  induction changes generalizing s with
  | nil => rfl
  | cons mc changes ih =>
    rcases applyOne_cases hv s mc with h | ⟨-, s', h⟩
    · simpa [apply, h] using ih s
    · rw [apply_cons_some h, apply_cons_some h, ih s']

/-! ## What a set holds -/

theorem applyOne_keeps {P : ModeSet → Prop} (h : P s)
    (hset : v.type mc.mode = .flag → P { s with flags := s.flags.insert mc.mode true })
    (hunset : P { s with flags := s.flags.erase mc.mode })
    (harg : v.type mc.mode = .argAlways ∨ v.type mc.mode = .argSet → mc.add = true →
      ∀ arg, v.validateArg mc.mode true mc.arg = some arg →
        P { s with args := s.args.insert mc.mode arg })
    (herase : P { s with args := s.args.erase mc.mode })
    (hentry : v.type mc.mode = .list → mc.add = true →
      ∀ entry, v.validateArg mc.mode true mc.arg = some entry → entry ∉ s.list mc.mode →
        P { s with lists := s.lists.insert mc.mode (s.list mc.mode ++ [entry]) })
    (hremove : v.type mc.mode = .list →
      P { s with lists := s.lists.insert mc.mode ((s.list mc.mode).erase mc.arg) }) :
    P (s.applyOne v mc).1 := by
  unfold ModeSet.applyOne
  split
  case h_1 hm =>
    split_ifs
    · exact h
    · exact hset hm
    · exact hunset
    · exact h
  case h_4 hm =>
    split_ifs with hadd
    · split
      · exact h
      · rename_i hentry'
        split_ifs with hmem
        · exact h
        · exact hentry hm hadd _ hentry' hmem
    · exact hremove hm
    · exact h
  case h_5 => exact h
  case h_6 => exact h
  -- the modes with one argument, whichever of the two types they have
  all_goals
    rename_i hm
    split_ifs with hadd
    · split
      · exact h
      · rename_i harg'
        exact harg (by simp [hm]) hadd _ harg'
    · exact herase
    · exact h

structure Typed (v : ModeValidator) (s : ModeSet) : Prop where
  flags : s.flags.All fun m set => v.type m = .flag ∧ set = true
  args : s.args.All fun m _ => v.type m = .argAlways ∨ v.type m = .argSet
  lists : s.lists.All fun m entries => v.type m = .list ∧ entries.Nodup

section
variable {v : ModeValidator}

theorem typed_empty : Typed v {} := ⟨Map.all_empty, Map.all_empty, Map.all_empty⟩

theorem Typed.nodup_list (h : s.Typed v) (m : Rune) : (s.list m).Nodup :=
  h.lists.getD List.nodup_nil fun _ h => h.2

theorem Typed.applyOne (h : s.Typed v) (mc : ModeChange) :
    (s.applyOne v mc).1.Typed v := by
  apply applyOne_keeps h
  · exact fun hm => { h with flags := h.flags.insert ⟨hm, rfl⟩ }
  · exact { h with flags := h.flags.erase mc.mode }
  · exact fun hm _ arg _ => { h with args := h.args.insert hm }
  · exact { h with args := h.args.erase mc.mode }
  · intro hm _ entry _ hmem
    refine { h with lists := h.lists.insert ⟨hm, ?_⟩ }
    exact (h.nodup_list mc.mode).append (List.nodup_singleton _) (List.disjoint_singleton.2 hmem)
  · exact fun hm => { h with lists := h.lists.insert ⟨hm, (h.nodup_list mc.mode).erase mc.arg⟩ }

theorem Typed.apply (h : s.Typed v) (changes : List ModeChange) :
    (s.apply v changes).1.Typed v := by
  induction changes generalizing s with
  | nil => exact h
  | cons mc changes ih => exact ih (h.applyOne mc)

end

/-! ## Calls -/

/-- The set that calls of `Apply` lead to, from a new one. -/
def afterCalls (v : ModeValidator) (calls : List (List ModeChange)) : ModeSet :=
  calls.foldl (fun s changes => (s.apply v changes).1) {}

theorem typed_afterCalls (v : ModeValidator) (calls : List (List ModeChange)) :
    (afterCalls v calls).Typed v := by
  have hcalls : ∀ (calls : List (List ModeChange)) (s : ModeSet), s.Typed v →
      (calls.foldl (fun s changes => (s.apply v changes).1) s).Typed v := by
    intro calls
    induction calls with
    | nil => exact fun _ h => h
    | cons changes calls ih => exact fun s h => ih _ (h.apply changes)
  exact hcalls calls {} typed_empty

/-- No list has an entry twice, flags are only there if they are set, and a mode is a flag, has an
argument or has a list. -/
structure Distinct (s : ModeSet) : Prop where
  nodup : s.lists.All fun _ entries => entries.Nodup
  flags : s.flags.All fun _ set => set = true
  flag_arg : ∀ m ∈ s.flags, m ∉ s.args
  flag_list : ∀ m ∈ s.flags, m ∉ s.lists
  arg_list : ∀ m ∈ s.args, m ∉ s.lists

theorem Typed.distinct (h : s.Typed v) : s.Distinct := by
  have hflag {m : Rune} (hm : m ∈ s.flags) : v.type m = .flag := by
    obtain ⟨set, hset⟩ := Option.isSome_iff_exists.1 (AList.lookup_isSome.2 hm)
    exact (h.flags.of_lookup hset).1
  have harg {m : Rune} (hm : m ∈ s.args) : v.type m = .argAlways ∨ v.type m = .argSet := by
    obtain ⟨arg, harg⟩ := Option.isSome_iff_exists.1 (AList.lookup_isSome.2 hm)
    exact h.args.of_lookup harg
  have hlist {m : Rune} (hm : m ∈ s.lists) : v.type m = .list := by
    obtain ⟨entries, hentries⟩ := Option.isSome_iff_exists.1 (AList.lookup_isSome.2 hm)
    exact (h.lists.of_lookup hentries).1
  refine ⟨h.lists.imp fun _ _ => And.right, h.flags.imp fun _ _ => And.right, ?_, ?_, ?_⟩
  · intro m hm hm'
    simpa [hflag hm] using harg hm'
  · intro m hm hm'
    simpa [hflag hm] using hlist hm'
  · intro m hm hm'
    simpa [hlist hm'] using harg hm

end ModeSet

/-- **The applied changes are a log of the call**: from the same set they lead to the same set, and
are all applied. -/
theorem applied_log (hv : v = channelValidator ∨ v = userValidator) (calls : List (List ModeChange))
    (changes : List ModeChange) : let s := ModeSet.afterCalls v calls
    s.Distinct ∧ s.apply v (s.apply v changes).2 = s.apply v changes := by
  intro s
  refine ⟨(ModeSet.typed_afterCalls v calls).distinct, ?_⟩
  rcases hv with rfl | rfl
  · exact ModeSet.apply_again channelValidator_plain s changes
  · exact ModeSet.apply_again userValidator_plain s changes

/-- Of six changes of a channel with a ban and a key, one does nothing. -/
theorem applied_log_bans :
    let s := ModeSet.afterCalls channelValidator [[⟨true, rune 'b', lit "a"⟩, ⟨true, rune 'k', []⟩]]
    let changes : List ModeChange := [⟨true, rune 'b', lit "a"⟩, ⟨false, rune 'b', lit "a"⟩,
      ⟨true, rune 'b', lit "b"⟩, ⟨true, rune 'b', lit "a"⟩, ⟨false, rune 'k', []⟩, ⟨true, rune 'i', []⟩]
    (s.apply channelValidator changes).2 = changes.tail ∧
      s.apply channelValidator (s.apply channelValidator changes).2 =
        s.apply channelValidator changes :=
  ⟨by decide +kernel, (applied_log (.inl rfl) _ _).2⟩

end Irc
