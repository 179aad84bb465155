import GoProtocols.Irc.Proof.Reach

/-!
# What a disconnect does to others

`removeSession` goes by the nick. It leaves the entries and memberships of the other sessions alone
exactly if the nick of the session is its own (`OwnsNick`): neither the registry nor a channel has
another session under it. A session that has sent `NICK` and waits may have a nick that another
session has registered since.
-/

namespace Irc

open Go System

section
variable [UnicodeTables] (srv : Server) (s : SessionId)

/-- The registry entries and the memberships of all sessions but `s` are still there. -/
structure Untouched (s : SessionId) (srv srv' : Server) : Prop where
  entry : ∀ key t, srv.sessions.lookup key = some t → t ≠ s → srv'.sessions.lookup key = some t
  membership : ∀ key ch k m, srv.channels.lookup key = some ch → ch.members.lookup k = some m →
    m.session ≠ s → ∃ ch', srv'.channels.lookup key = some ch' ∧ ch'.members.lookup k = some m

/-- Session `s` has no nick, or nobody else is known under it. -/
def OwnsNick : Prop :=
  (srv.session s).nick = [] ∨
    (∀ t ∈ srv.getSession (srv.session s).nick, t = s) ∧
      ∀ e ∈ srv.channels.entries, ∀ m ∈ e.2.getMembership (srv.session s).nick, m.session = s

instance : Decidable (OwnsNick srv s) :=
  inferInstanceAs (Decidable (_ ∨ _ ∧ _))

variable {ch ch' : Channel} {nick : Bytes} {s : SessionId} {st : State}

theorem Channel.lookup_leave_of_ne {k : Bytes} {m : Membership} (hm : ch.members.lookup k = some m)
    (hk : k ≠ toLower nick) : ∃ ch', ch.leave nick = some ch' ∧ ch'.members.lookup k = some m := by
  unfold Channel.leave
  split
  · have hm' : (ch.removeMember nick).members.lookup k = some m := by
      rw [Channel.removeMember, Map.lookup_erase_eq, if_neg hk, hm]
    have hne : (ch.removeMember nick).members.entries ≠ [] := fun he => by
      rw [Map.lookup_eq_some_iff, he] at hm'
      cases hm'
    exact ⟨_, if_neg hne, hm'⟩
  · exact ⟨ch, rfl, hm⟩

theorem Channel.lookup_leave_self (h : ch.leave nick = some ch') :
    ch'.members.lookup (toLower nick) = none := by
  unfold Channel.leave at h
  split at h
  · obtain ⟨rfl, -⟩ := Channel.left_eq_some h
    rw [Channel.removeMember, Map.lookup_erase_eq, if_pos rfl]
  · rename_i hmember
    cases h
    simpa [Channel.hasMember, Channel.getMembership] using hmember

theorem lookup_sessions_removeSession (h : (st.srv.session s).nick ≠ []) (env : Env) (key : Bytes) :
    (removeSession s env st).2.srv.sessions.lookup key =
      if key = toLower (st.srv.session s).nick then none else st.srv.sessions.lookup key := by
  have husers := congrArg Users.sessions (removeSession_users s env st).1
  rw [show (removeSession s env st).2.srv.sessions =
    st.srv.sessions.erase (toLower (st.srv.session s).nick) from
      husers.trans (congrArg Users.sessions (if_neg h))]
  exact Map.lookup_erase_eq _ _ _

theorem untouched_of_owns (hk : Rosters.Keyed st.srv.roster) (h : (st.srv.session s).nick ≠ [])
    (hown : OwnsNick st.srv s) (env : Env) : Untouched s st.srv (removeSession s env st).2.srv := by
  obtain ⟨hentry, hmember⟩ := hown.resolve_left h
  refine ⟨fun key t ht hts => ?_, fun key ch k m hch hm hms => ?_⟩
  · have hkey : key ≠ toLower (st.srv.session s).nick := by
      rintro rfl
      exact hts (hentry t ht)
    rw [lookup_sessions_removeSession h, if_neg hkey, ht]
  · have hkk : k ≠ toLower (st.srv.session s).nick := by
      rintro rfl
      exact hms (hmember ⟨key, ch⟩ (Map.lookup_eq_some_iff.1 hch) m hm)
    rw [removeSession_channels hk h, hch]
    exact Channel.lookup_leave_of_ne hm hkk

theorem owns_of_untouched (hk : Rosters.Keyed st.srv.roster) (h : (st.srv.session s).nick ≠ [])
    {env : Env} (hun : Untouched s st.srv (removeSession s env st).2.srv) : OwnsNick st.srv s := by
  refine .inr ⟨fun t ht => ?_, fun e he m hm => ?_⟩
  · by_contra hts
    have hlost := hun.entry _ t ht hts
    rw [lookup_sessions_removeSession h, if_pos rfl] at hlost
    cases hlost
  · by_contra hms
    have hch := Map.lookup_eq_some_iff.2 he
    obtain ⟨ch', hch', hm'⟩ := hun.membership e.1 e.2 _ m hch hm hms
    rw [removeSession_channels hk h, hch] at hch'
    rw [Channel.lookup_leave_self hch'] at hm'
    cases hm'

/-- **In every reachable state, the disconnect of a session leaves the others alone exactly if it
owns its nick.** -/
theorem removeSession_untouched_iff (env : Env) {es : List Event} (hv : (ircd env).Valid es)
    (s : SessionId) :
    Untouched s ((ircd env).after es).srv (removeSession s env ((ircd env).after es)).2.srv ↔
      OwnsNick ((ircd env).after es).srv s := by
  have hk := (base_after env hv).keyed
  by_cases h : (((ircd env).after es).srv.session s).nick = []
  · rw [removeSession_nil h]
    exact ⟨fun _ => .inl h, fun _ => ⟨fun _ _ ht _ => ht, fun _ ch _ _ hch hm _ => ⟨ch, hch, hm⟩⟩⟩
  · exact ⟨owns_of_untouched hk h, fun hown => untouched_of_owns hk h hown env⟩

end

section
attribute [local instance] asciiTables

/-- Two clients register and join a channel. -/
def sharedChannel : List Event :=
  registration 0 (lit "alice") ++ [.line 0 (lit "JOIN #a")] ++ registration 1 (lit "bob") ++
    [.line 1 (lit "JOIN #a")]

theorem removeSession_untouched_iff_shared :
    let st := (ircd (Config.still {})).after sharedChannel
    Untouched 0 st.srv (removeSession 0 (Config.still {}) st).2.srv :=
  (removeSession_untouched_iff (Config.still {}) (by decide +kernel) 0).2 (by decide +kernel)

/-- A client sends a nick and waits. Another registers the nick and joins a channel. -/
def contestedNick : List Event :=
  introduction 0 (lit "alice") ++ registration 1 (lit "alice") ++ [.line 1 (lit "JOIN #a")]

/-- When the first client leaves, the second is in neither the registry nor the channel. -/
theorem not_untouched_contested :
    let st := (ircd (Config.still {})).after contestedNick
    (ircd (Config.still {})).Valid contestedNick ∧ (st.srv.session 0).connected = true ∧
      ¬ Untouched 0 st.srv (removeSession 0 (Config.still {}) st).2.srv := by
  refine ⟨by decide +kernel, by decide +kernel, fun h => ?_⟩
  have hlost := h.entry (lit "alice") 1 (by decide +kernel) (by decide)
  revert hlost
  decide +kernel

end

end Irc
