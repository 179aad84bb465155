import GoProtocols.Irc.Proof.Users

/-!
# Nicks and the registry

`Agree us`: the registry of nicks and the nicks of the sessions agree. A message keeps it unless a
registered session takes another nick with it (`Renames`), and a disconnect keeps it unless the
session waits with a nick that is registered (`Contested`); these two break it.
-/

namespace Irc.Users

open Go

section
variable [UnicodeTables] (us : Users) (s : SessionId)

/-- Session `s` is there, and the registry has it under its nick. -/
def Enrolled : Prop :=
  us.sessions.lookup (toLower (us.ident s).nick) = some s

structure Agree (us : Users) : Prop where
  registered_iff : ∀ s, (us.ident s).connected = true →
    ((us.ident s).state = .registered ↔ us.Enrolled s)
  entry : ∀ key s, us.sessions.lookup key = some s → key = toLower (us.ident s).nick

/-- Agreement, with a registry of connected sessions only. -/
structure Settled (us : Users) : Prop extends Sound us, Agree us where
  connected : ∀ key s, us.sessions.lookup key = some s → (us.ident s).connected = true

def Contested : Prop :=
  (us.ident s).state ≠ .registered ∧ (us.ident s).nick ≠ [] ∧
    toLower (us.ident s).nick ∈ us.sessions

instance : Decidable (us.Contested s) :=
  inferInstanceAs (Decidable (_ ∧ _ ∧ _))

variable {us : Users} {s : SessionId} {msg : Message} {t : SessionId}

theorem Agree.unique (h : us.Agree) (hs : (us.ident s).connected = true)
    (ht : (us.ident t).connected = true) (hsr : (us.ident s).state = .registered)
    (htr : (us.ident t).state = .registered)
    (heq : toLower (us.ident s).nick = toLower (us.ident t).nick) : s = t := by
  have hs' := (h.registered_iff s hs).1 hsr
  have ht' := (h.registered_iff t ht).1 htr
  rw [Enrolled, heq] at hs'
  exact Option.some.inj (hs'.symm.trans ht')

/-! ## What a disconnect leaves -/

theorem sessions_quit_nil (h : (us.ident s).nick = []) : (us.quit s).sessions = us.sessions := by
  simp [Users.quit, unregister, h]

theorem lookup_quit_of_nick (h : (us.ident s).nick ≠ []) (key : Bytes) :
    (us.quit s).sessions.lookup key =
      if key = toLower (us.ident s).nick then none else us.sessions.lookup key := by
  simp [Users.quit, unregister, h, Map.lookup_erase_eq]

namespace Settled

theorem registered (h : us.Settled) {key : Bytes} (hk : us.sessions.lookup key = some s) :
    (us.ident s).state = .registered := by
  refine (h.registered_iff s (h.connected key s hk)).2 ?_
  rw [Enrolled, ← h.entry key s hk]
  exact hk

theorem lookup_iff (h : us.Settled) (key : Bytes) (t : SessionId) :
    us.sessions.lookup key = some t ↔ (us.ident t).connected = true ∧
      (us.ident t).state = .registered ∧ key = toLower (us.ident t).nick := by
  refine ⟨fun hk => ⟨h.connected key t hk, h.registered hk, h.entry key t hk⟩, ?_⟩
  rintro ⟨hc, hr, rfl⟩
  exact (h.registered_iff t hc).1 hr

theorem of_lookup_iff (hsound : us.Sound)
    (h : ∀ key t, us.sessions.lookup key = some t ↔ (us.ident t).connected = true ∧
      (us.ident t).state = .registered ∧ key = toLower (us.ident t).nick) : us.Settled :=
  { hsound with
    registered_iff := fun t ht => by simp [Enrolled, h, ht]
    entry := fun key t hk => ((h key t).1 hk).2.2
    connected := fun key t hk => ((h key t).1 hk).1 }

/-! ## Messages -/

theorem prepare (h : us.Settled) {i : Ident} (hs : (us.ident s).state ≠ .registered)
    (hi : i.state ≠ .registered) (hsound : (us.setIdent s i).Sound) :
    (us.setIdent s i).Settled := by
  refine .of_lookup_iff hsound fun key t => ?_
  by_cases hts : t = s
  · subst hts
    simp [h.lookup_iff, hs, hi]
  · rw [ident_setIdent_ne us i hts]
    exact h.lookup_iff key t

theorem enroll (h : us.Settled) {i : Ident} (hs : (us.ident s).state ≠ .registered)
    (hi : i.state = .registered) (hc : i.connected = true) (hfree : toLower i.nick ∉ us.sessions)
    (hsound : (us.enroll s i).Sound) : (us.enroll s i).Settled := by
  refine .of_lookup_iff hsound fun key t => ?_
  have hnone : us.sessions.lookup (toLower i.nick) = none := AList.lookup_eq_none.2 hfree
  have hlookup : (us.enroll s i).sessions.lookup key =
      if key = toLower i.nick then some s else us.sessions.lookup key :=
    Map.lookup_insert_eq _ _ _ _
  rw [hlookup]
  by_cases hts : t = s
  · subst hts
    have hself : (us.enroll t i).ident t = i := ident_setIdent_self us t i
    split <;> simp_all [h.lookup_iff]
  · have hident : (us.enroll s i).ident t = us.ident t := ident_setIdent_ne us i hts
    rw [hident, ← h.lookup_iff]
    split
    · rename_i heq
      rw [heq, hnone]
      simp [Ne.symm hts]
    · rfl

theorem respell (h : us.Settled) {nick : Bytes}
    (heq : toLower nick = toLower (us.ident s).nick)
    (hsound : (us.setIdent s { us.ident s with nick := nick }).Sound) :
    (us.setIdent s { us.ident s with nick := nick }).Settled := by
  refine .of_lookup_iff hsound fun key t => (h.lookup_iff key t).trans ?_
  by_cases hts : t = s
  · subst hts
    simp [heq]
  · rw [ident_setIdent_ne us _ hts]

/-- **A message keeps the agreement, unless it renames a registered session.** -/
theorem moves (h : us.Settled) {us' : Users} (hm : Moves us s msg us')
    (hs : (us.ident s).connected = true) (hgood : ¬ us.Renames s msg) : us'.Settled := by
  have hsound := h.toSound.moves hm hs
  cases hm with
  | stay => exact h
  | prepare hns hi _ => exact h.prepare hns hi hsound
  | register hns hi hc _ hfree _ => exact h.enroll hns hi (hc.trans hs) hfree hsound
  | respell _ _ heq => exact h.respell heq hsound
  | rename _ _ _ hr => exact absurd hr hgood

/-- A message that renames a registered session breaks it: the registry has the old nick. -/
theorem not_agree_of_renames (h : us.Settled) (hs : (us.ident s).connected = true)
    (hr : us.Renames s msg) : ¬ (us.command s msg).Agree := by
  obtain ⟨nick, hne, hcmd⟩ := command_of_renames hr
  intro hagree
  have hold := (h.registered_iff s hs).1 hr.2.1
  rw [hcmd] at hagree
  have hnew := hagree.entry _ s hold
  rw [ident_setIdent_self] at hnew
  exact hne hnew.symm

/-! ## Connects and disconnects -/

theorem connect (h : us.Settled) : us.connect.Settled := by
  refine .of_lookup_iff h.toSound.connect fun key t => (h.lookup_iff key t).trans ?_
  by_cases hta : t = us.allocated
  · subst hta
    simp [h.fresh _ le_rfl, Users.connect]
  · rw [show us.connect.ident t = us.ident t from ident_setIdent_ne us _ hta]

theorem lookup_quit (h : us.Settled) (hs : (us.ident s).connected = true) (hgood : ¬ us.Contested s)
    {key : Bytes} :
    (us.quit s).sessions.lookup key = some t ↔ us.sessions.lookup key = some t ∧ t ≠ s := by
  by_cases hnick : (us.ident s).nick = []
  · have hreg : (us.ident s).state ≠ .registered := fun hr => h.named s hr hnick
    rw [sessions_quit_nil hnick]
    exact ⟨fun hk => ⟨hk, fun he => hreg (he ▸ h.registered hk)⟩, fun hk => hk.1⟩
  · rw [lookup_quit_of_nick hnick]
    split
    · rename_i heq
      refine ⟨by simp, fun ⟨hk, hne⟩ => absurd ?_ hne⟩
      rw [heq] at hk
      by_cases hreg : (us.ident s).state = .registered
      · exact Option.some.inj (hk.symm.trans ((h.registered_iff s hs).1 hreg))
      · exact absurd ⟨hreg, hnick, AList.lookup_isSome.1 (hk ▸ rfl)⟩ hgood
    · rename_i hne
      exact ⟨fun hk => ⟨hk, fun he => hne (he ▸ h.entry key t hk)⟩, fun hk => hk.1⟩

/-- **A disconnect keeps the agreement, unless the session waits with a registered nick.** -/
theorem quit (h : us.Settled) (hs : (us.ident s).connected = true) (hgood : ¬ us.Contested s) :
    (us.quit s).Settled := by
  refine .of_lookup_iff (h.toSound.quit hs) fun key t => ?_
  rw [h.lookup_quit hs hgood, h.lookup_iff]
  by_cases hts : t = s
  · subst hts
    simp [Users.quit]
  · rw [ident_quit_ne hts]
    simp [hts]

/-- The disconnect of a session that waits with a registered nick breaks it: the session with the
nick has lost its entry. -/
theorem not_agree_of_contested (h : us.Settled) (hc : us.Contested s) : ¬ (us.quit s).Agree := by
  obtain ⟨hreg, hnick, hm⟩ := hc
  obtain ⟨t, ht⟩ := Option.isSome_iff_exists.1 (AList.lookup_isSome.2 hm)
  obtain ⟨hconn, htreg, heq⟩ := (h.lookup_iff _ t).1 ht
  have hts : t ≠ s := fun he => hreg (he ▸ htreg)
  intro hagree
  have hlost :=
    (hagree.registered_iff t (by rwa [ident_quit_ne hts])).1 (by rwa [ident_quit_ne hts])
  rw [Enrolled, ident_quit_ne hts, ← heq, lookup_quit_of_nick hnick, if_pos rfl] at hlost
  cases hlost

end Settled

end

end Irc.Users
