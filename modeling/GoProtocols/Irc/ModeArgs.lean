import GoProtocols.Irc.ModeLog
import GoProtocols.Irc.Proof.Reach
import GoProtocols.Irc.Proof.Settings

/-!
# Modes without their arguments

`ParseModeString` yields an empty argument when the arguments run out, and `ValidateArg` takes any.
So a key, a limit or a list entry can be empty: `MODE #a +k` sets an empty key. `ModeSet.Armed` says
that none is, `ModeChange.Bare` that a change sets one.

* `armed_moderate`: changes that are not bare keep the modes armed.
-/

namespace Irc

open Go System List Option

variable {mc : ModeChange} {ch : Channel}

def ModeChange.Bare (mc : ModeChange) : Prop :=
  mc.add = true ∧ containsRune (lit "klbeI") mc.mode = true ∧ mc.arg = []

instance (mc : ModeChange) : Decidable mc.Bare := inferInstanceAs (Decidable (_ ∧ _ ∧ _))

def ModeSet.Armed (s : ModeSet) : Prop :=
  (s.args.All fun _ arg => arg ≠ []) ∧ s.lists.All fun _ entries => [] ∉ entries

instance (s : ModeSet) : Decidable s.Armed := inferInstanceAs (Decidable (_ ∧ _))

theorem ModeSet.Armed.nil_notMem {s : ModeSet} (h : s.Armed) (m : Rune) : [] ∉ s.list m :=
  h.2.getD not_mem_nil fun _ h => h

theorem takesArg_of_type {m : Rune} (hmember : ¬ containsRune (lit "qaohv") m = true)
    (h : channelValidator.type m = .argAlways ∨ channelValidator.type m = .argSet ∨
      channelValidator.type m = .list) : containsRune (lit "klbeI") m = true := by
  simp only [channelValidator] at h
  split_ifs at h with hflag hk hl hstatus hlist
  · simp at h
  · rw [hk]; decide
  · rw [hl]; decide
  · simp only [containsRune, contains_eq_mem, decide_eq_true_eq] at hstatus hmember
    exact absurd ((by decide : runes (lit "ohvaq") ⊆ runes (lit "qaohv")) hstatus) hmember
  · simp only [containsRune, contains_eq_mem, decide_eq_true_eq] at hlist ⊢
    exact (by decide : runes (lit "beI") ⊆ runes (lit "klbeI")) hlist
  · simp at h

theorem ModeSet.Armed.applyOne {s : ModeSet} (h : s.Armed) (hbare : ¬ mc.Bare)
    (hmember : ¬ containsRune (lit "qaohv") mc.mode = true) :
    (s.applyOne channelValidator mc).1.Armed := by
  have harg (ht : containsRune (lit "klbeI") mc.mode = true) (hadd : mc.add = true) : mc.arg ≠ [] :=
    fun hnil => hbare ⟨hadd, ht, hnil⟩
  apply ModeSet.applyOne_keeps h
  · exact fun _ => h
  · exact h
  · intro ht hadd arg hvalid
    cases hvalid
    exact ⟨h.1.insert (harg (takesArg_of_type hmember (by tauto)) hadd), h.2⟩
  · exact ⟨h.1.erase _, h.2⟩
  · intro ht hadd entry hvalid _
    cases hvalid
    refine ⟨h.1, h.2.insert ?_⟩
    have hne := harg (takesArg_of_type hmember (by tauto)) hadd
    simpa [h.nil_notMem] using hne.symm
  · exact fun _ => ⟨h.1, h.2.insert fun hmem => h.nil_notMem _ (mem_of_mem_erase hmem)⟩

/-! ## The changes of a message -/

section
variable [UnicodeTables]

theorem moderate_keeps {P : ModeSet → Prop} {changes : List ModeChange}
    (hone : ∀ mc ∈ changes, ∀ s, P s → ¬ containsRune (lit "qaohv") mc.mode = true →
      P (s.applyOne channelValidator mc).1) (h : P ch.modes) (before : List ModeChange) :
    P (changes.foldl applyChannelMode (ch, before)).1.modes := by
  refine foldlRecOn (motive := fun acc : Channel × _ => P acc.1.modes) changes _ h ?_
  intro acc h mc hmc
  unfold applyChannelMode
  dsimp only
  split
  · split
    · exact h
    · rename_i ch' hch'
      obtain ⟨-, m, c, -, rfl⟩ := applyMembershipMode_cases hch'
      exact h
  · rename_i hmember
    exact hone mc hmc _ h hmember

theorem armed_moderate {changes : List ModeChange} (hbare : ∀ mc ∈ changes, ¬ mc.Bare)
    (h : ch.modes.Armed) (before : List ModeChange) :
    (changes.foldl applyChannelMode (ch, before)).1.modes.Armed :=
  moderate_keeps (fun mc hmc _ hs hmember => hs.applyOne (hbare mc hmc) hmember) h before

theorem bare_applyChannelMode (h : ch.modes.Armed)
    (hbare : mc.Bare) (before : List ModeChange) :
    (applyChannelMode (ch, before) mc).2 = before ++ [mc] := by
  obtain ⟨add, m, arg⟩ := mc
  obtain ⟨rfl, hm, rfl⟩ : add = true ∧ containsRune (lit "klbeI") m = true ∧ arg = [] := hbare
  have hm : m = 107 ∨ m = 108 ∨ m = 98 ∨ m = 101 ∨ m = 73 := by
    simpa [containsRune, (by decide : runes (lit "klbeI") = [107, 108, 98, 101, 73])] using hm
  have happly (m : Rune) (ht : channelValidator.type m = .argSet ∨ channelValidator.type m = .list) :
      (ch.modes.apply channelValidator [⟨true, m, []⟩]).2 = [⟨true, m, []⟩] := by
    rcases ht with ht | ht <;>
      simp [ModeSet.apply, ModeSet.applyOne, ht, channelValidator_plain.arg, h.nil_notMem]
  unfold applyChannelMode
  dsimp only
  rcases hm with rfl | rfl | rfl | rfl | rfl <;>
    rw [if_neg (by decide), happly _ (by decide)]

theorem bare_applied {changes : List ModeChange} (hbare : ∃ mc ∈ changes, mc.Bare)
    (h : ch.modes.Armed) (before : List ModeChange) :
    ∃ mc ∈ (changes.foldl applyChannelMode (ch, before)).2, mc.Bare := by
  induction changes generalizing ch before with
  | nil => simp at hbare
  | cons mc changes ih =>
    rw [foldl_cons]
    by_cases hmc : mc.Bare
    · obtain ⟨applied, happlied, -⟩ := applyChannelModes_reported changes
        (applyChannelMode (ch, before) mc).1 (applyChannelMode (ch, before) mc).2
      rw [happlied, bare_applyChannelMode h hmc]
      exact ⟨mc, by simp, hmc⟩
    · have hrest : ∃ mc ∈ changes, mc.Bare := by simpa [hmc] using hbare
      exact ih hrest (@armed_moderate _ _ [mc] (by simpa using hmc) h before) _

/-! ## Runs -/

/-- The channel whose modes an event changes, with the changes that it asks for. -/
def Event.moderated (st : State) : Event → Option (Channel × List ModeChange)
  | .line s raw => (lineMessage raw).bind fun msg =>
    (st.srv.moderated s msg).map fun ch => (ch, msg.changes)
  | _ => none

def Event.asked (st : State) (e : Event) : List ModeChange :=
  (e.moderated st).elim [] Prod.snd

def Event.applied (st : State) (e : Event) : List ModeChange :=
  (e.moderated st).elim [] fun p => (p.2.foldl applyChannelMode (p.1, [])).2

def Server.Armed (srv : Server) : Prop := srv.channels.All fun _ ch => ch.modes.Armed

instance (srv : Server) : Decidable srv.Armed :=
  inferInstanceAs (Decidable (srv.channels.All _))

variable {env : Env} {st : State} {e : Event}

theorem modes_step {P : ModeSet → Prop} (hnew : P {})
    (hone : ∀ mc ∈ e.asked st, ∀ s, P s → ¬ containsRune (lit "qaohv") mc.mode = true →
      P (s.applyOne channelValidator mc).1) (h : st.srv.channels.All fun _ ch => P ch.modes) :
    ((ircd env).step st e).srv.channels.All fun _ ch => P ch.modes := by
  intro entry hentry
  have hstep : RoomStep st e entry.1 entry.2.modes := room_step (Map.lookup_eq_some_iff.2 hentry)
  generalize entry.2.modes = modes at hstep ⊢
  cases hstep with
  | new => exact hnew
  | same hch => exact h.of_lookup hch
  | @moderated s raw msg ch he hline _ hch =>
    have hch' : P ch.modes := h.of_lookup (getChannel_of_moderated hch)
    refine moderate_keeps (fun mc hmc => hone mc ?_) hch' []
    simpa [he, Event.asked, Event.moderated, hline, hch] using hmc

theorem armed_step (h : st.srv.Armed) (hbare : ∀ mc ∈ e.asked st, ¬ mc.Bare) :
    ((ircd env).step st e).srv.Armed :=
  modes_step ⟨Map.all_empty, Map.all_empty⟩
    (fun mc hmc _ hs hmember => hs.applyOne (hbare mc hmc) hmember) h

theorem Server.Armed.moderated (h : st.srv.Armed) {p : Channel × List ModeChange}
    (hp : e.moderated st = some p) : p.1.modes.Armed := by
  cases e with
  | connect | disconnect => cases hp
  | line s raw =>
    obtain ⟨msg, -, hmsg⟩ := bind_eq_some_iff.1 hp
    obtain ⟨ch, hch, rfl⟩ := map_eq_some_iff.1 hmsg
    exact h.of_lookup (getChannel_of_moderated hch)

theorem applied_subset : e.applied st ⊆ e.asked st := by
  unfold Event.applied Event.asked
  cases e.moderated st with
  | none => exact List.Subset.refl _
  | some p =>
    obtain ⟨applied, happlied, hreported⟩ := applyChannelModes_reported p.2 p.1 []
    rw [elim_some, elim_some, happlied]
    exact hreported.sublist.subset

theorem not_bare_of_applied (h : st.srv.Armed) (hbare : ∀ mc ∈ e.applied st, ¬ mc.Bare) :
    ∀ mc ∈ e.asked st, ¬ mc.Bare := by
  intro mc hmc hmcbare
  unfold Event.applied at hbare
  unfold Event.asked at hmc
  cases hp : e.moderated st with
  | none => simp [hp] at hmc
  | some p =>
    rw [hp, elim_some] at hmc hbare
    obtain ⟨mc', hmc', hbare'⟩ := bare_applied ⟨mc, hmc, hmcbare⟩ (h.moderated hp) []
    exact hbare mc' hmc' hbare'

/-- **Modes have their arguments throughout exactly the runs in which nobody leaves one out.** -/
theorem armed_throughout_iff (env : Env) {es : List Event} (hv : (ircd env).Valid es) :
    (ircd env).Throughout (fun _ st => st.srv.Armed) es ∧
        (ircd env).Each (fun _ st e => ∀ mc ∈ e.applied st, ¬ mc.Bare) es ↔
      (ircd env).Each (fun _ st e => ∀ mc ∈ e.asked st, ¬ mc.Bare) es := by
  constructor
  · rintro ⟨harmed, happlied⟩ es' e hes'
    have hbefore : es' <+: es := (prefix_append es' [e]).trans hes'
    exact not_bare_of_applied (harmed es' hbefore) (happlied es' e hes')
  · refine fun hasked => ⟨fun es' hes' => ?_, fun es' e hes' mc hmc => ?_⟩
    · refine (ircd env).invariant (I := fun _ st => st.srv.Armed)
        (G := fun _ st e => ∀ mc ∈ e.asked st, ¬ mc.Bare) Map.all_empty
        (fun _ e harmed _ hbare => armed_step harmed hbare) ?_ ?_
      · exact fun es'' e h => hv es'' e (h.trans hes')
      · exact fun es'' e h => hasked es'' e (h.trans hes')
    · exact hasked es' e hes' mc (applied_subset hmc)

end

section
attribute [local instance] asciiTables

def moderates (modes : Bytes) : List Event :=
  registration 0 (lit "alice") ++ [.line 0 (lit "JOIN #a"), .line 0 (lit "MODE #a " ++ modes)]

theorem armed_throughout_iff_key :
    (ircd (Config.still {})).Throughout (fun _ st => st.srv.Armed)
    (moderates (lit "+kb key *!*@a")) :=
  ((armed_throughout_iff _ (by decide +kernel)).2 (by decide +kernel)).1

/-- The key of the channel is the empty text. -/
theorem not_armed_without_key :
    let es := moderates (lit "+k")
    (ircd (Config.still {})).Valid es ∧ ¬ ((ircd (Config.still {})).after es).srv.Armed ∧
      ((ircd (Config.still {})).after es).srv.channels.lookup (lit "#a") ≠ none := by
  refine ⟨?_, ?_, ?_⟩ <;> decide +kernel

end

end Irc
