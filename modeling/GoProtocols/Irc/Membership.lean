import GoProtocols.Irc.Proof.Reach

/-!
# Channels and their members, over whole runs

`ChannelsOk`: every channel is stored under its name and is not empty, and its members are connected
and registered sessions under their own nicks, each once. It holds in every state of a run, and a
session that is gone is a member nowhere, exactly if no member of a channel takes another nick in
the run (`KeepsMembers`): the memberships stay under the old one.
-/

namespace Irc

open Go System

variable (srv : Server) (s : SessionId)

/-- Some channel has a membership of session `s`. -/
def Server.IsMember : Prop :=
  ∃ e ∈ srv.channels.entries, ∃ m ∈ e.2.members.entries, m.2.session = s

instance : Decidable (srv.IsMember s) :=
  inferInstanceAs (Decidable (∃ _ ∈ _, ∃ _ ∈ _, _))

variable {srv} {s}

theorem Server.isMember_iff : srv.IsMember s ↔ Rosters.Holds srv.roster s := by
  refine ⟨fun ⟨e, he, m, hm, hs⟩ => ?_, fun ⟨key, r, k, hr, hk⟩ => ?_⟩
  · have hch := Server.roster_eq_some.2 ⟨e.2, Map.lookup_eq_some_iff.2 he, rfl⟩
    exact ⟨e.1, e.2.roster, m.1, hch,
      Option.map_eq_some_iff.2 ⟨m.2, Map.lookup_eq_some_iff.2 hm, hs⟩⟩
  · obtain ⟨ch, hch, rfl⟩ := Server.roster_eq_some.1 hr
    obtain ⟨m, hm, hs⟩ := Option.map_eq_some_iff.1 hk
    exact ⟨⟨key, ch⟩, Map.lookup_eq_some_iff.1 hch, ⟨k, m⟩, Map.lookup_eq_some_iff.1 hm, hs⟩

section
variable [UnicodeTables] {st : State} {e : Event}

structure ChannelsOk (srv : Server) : Prop where
  keyed : ∀ key ch, srv.channels.lookup key = some ch → key = toLower ch.name
  occupied : ∀ key ch, srv.channels.lookup key = some ch → ch.members.entries ≠ []
  member : ∀ key ch k m, srv.channels.lookup key = some ch → ch.members.lookup k = some m →
    (srv.session m.session).connected = true ∧ (srv.session m.session).state = .registered ∧
      toLower (srv.session m.session).nick = k
  /-- No session is in a channel twice. -/
  once : ∀ key ch k k' m m', srv.channels.lookup key = some ch → ch.members.lookup k = some m →
    ch.members.lookup k' = some m' → m.session = m'.session → k = k'

/-- The event does not give a member of a channel another nick. -/
def KeepsMembers (st : State) : Event → Prop
  | .line s raw => ∀ msg ∈ lineMessage raw, ¬ (st.srv.users.Renames s msg ∧ st.srv.IsMember s)
  | .connect _ _ _ | .disconnect _ => True

instance (st : State) : (e : Event) → Decidable (KeepsMembers st e)
  | .line _ _ => inferInstanceAs (Decidable (∀ _ ∈ _, _))
  | .connect _ _ _ | .disconnect _ => inferInstanceAs (Decidable True)

theorem channelsOk_iff :
    ChannelsOk srv ↔ Rosters.Keyed srv.roster ∧ Seated srv.users srv.roster := by
  refine ⟨fun h => ⟨fun key r hr => ?_, fun key r hr => ?_, fun key r k t hr hk => ?_⟩,
    fun ⟨hkeyed, h⟩ => ?_⟩
  · obtain ⟨ch, hch, rfl⟩ := Server.roster_eq_some.1 hr
    exact h.keyed key ch hch
  · obtain ⟨ch, hch, rfl⟩ := Server.roster_eq_some.1 hr
    exact Channel.occupied_iff.2 (h.occupied key ch hch)
  · obtain ⟨ch, hch, rfl⟩ := Server.roster_eq_some.1 hr
    obtain ⟨m, hm, rfl⟩ := Option.map_eq_some_iff.1 hk
    exact h.member key ch k m hch hm
  · have hroster {key : Bytes} {ch : Channel} (hch : srv.channels.lookup key = some ch) :
        srv.roster key = some ch.roster := Server.roster_eq_some.2 ⟨ch, hch, rfl⟩
    have hseat {key : Bytes} {ch : Channel} {k : Bytes} {m : Membership}
        (hch : srv.channels.lookup key = some ch) (hm : ch.members.lookup k = some m) :
        srv.users.Present m.session k :=
      h.seat key ch.roster k m.session (hroster hch) (Option.map_eq_some_iff.2 ⟨m, hm, rfl⟩)
    refine ⟨fun key ch hch => hkeyed key ch.roster (hroster hch),
      fun key ch hch => Channel.occupied_iff.1 (h.occupied key ch.roster (hroster hch)),
      fun key ch k m hch hm => hseat hch hm, fun key ch k k' m m' hch hm hm' heq => ?_⟩
    have hk := (hseat hch hm).2.2
    have hk' := (hseat hch hm').2.2
    rw [heq] at hk
    exact hk.symm.trans hk'

/-! ## Steps -/

theorem seated_step (hb : Base st) (h : Seated st.srv.users st.srv.roster) (hen : e.enabled st)
    (hgood : KeepsMembers st e) (env : Env) :
    Seated ((ircd env).step st e).srv.users ((ircd env).step st e).srv.roster := by
  cases e with
  | connect addr secure serverName =>
    obtain ⟨hu, hr, -⟩ := connect_users addr secure serverName env st
    have hr' :
        ((ircd env).step st (.connect addr secure serverName)).srv.roster = st.srv.roster := hr
    rw [hr']
    rcases hu with hu | hu
    · exact hu ▸ h
    · exact hu ▸ h.connect hb.sound
  | line s raw =>
    cases hmsg : lineMessage raw with
    | none =>
      have hs := handleLine_same hmsg s env st
      exact hs.users ▸ hs.roster ▸ h
    | some msg =>
      refine (handleLine_effect hmsg s env st).seated hen ?_ h
      rw [← Server.isMember_iff]
      exact hgood msg hmsg
  | disconnect s => exact (disconnect_departure s env st).seated hb.sound hb.keyed h

theorem keepsMembers_of_seated (h : Seated st.srv.users st.srv.roster) (env : Env)
    (h' : Seated ((ircd env).step st e).srv.users ((ircd env).step st e).srv.roster) :
    KeepsMembers st e := by
  cases e with
  | connect | disconnect => trivial
  | line s raw =>
    rintro msg hmsg ⟨hren, hmember⟩
    have heff := handleLine_effect hmsg s env st
    refine h.not_seated_of_renames hren (Server.isMember_iff.1 hmember) ?_
    rw [← heff.users, ← heff.renamed hren]
    exact h'

/-- **The channels are well kept throughout exactly the runs in which no member takes another
nick.** -/
theorem channelsOk_throughout_iff (env : Env) {es : List Event} (hv : (ircd env).Valid es) :
    (ircd env).Throughout (fun _ st => ChannelsOk st.srv ∧
        ∀ s, (st.srv.session s).connected = true → ¬ (removeSession s env st).2.srv.IsMember s) es ↔
      (ircd env).Each (fun _ st e => KeepsMembers st e) es := by
  refine (ircd env).throughout_iff
    (I := fun _ st => Base st ∧ Seated st.srv.users st.srv.roster) ?_ ?_ ?_ ?_ hv
  · refine ⟨Base.init, ?_, ?_⟩
    · intro _ _ h
      cases h
    · intro _ _ _ _ h
      cases h
  · rintro _ st ⟨hb, h⟩
    refine ⟨channelsOk_iff.2 ⟨hb.keyed, h⟩, fun s _ => ?_⟩
    rw [Server.isMember_iff]
    exact not_holds_removeSession s st hb.sound hb.keyed h env
  · exact fun _ e ⟨hb, h⟩ hen hgood => ⟨hb.step hen env, seated_step hb h hen hgood env⟩
  · exact fun _ e ⟨_, h⟩ _ hP => keepsMembers_of_seated h env (channelsOk_iff.1 hP.1).2

end

section
attribute [local instance] asciiTables

def joined : List Event :=
  registration 0 (lit "alice") ++ [.line 0 (lit "JOIN #a,#b"), .line 0 (lit "PART #a")]

theorem channelsOk_throughout_iff_joined :
    (ircd (Config.still {})).Throughout (fun _ st => ChannelsOk st.srv ∧
      ∀ s, (st.srv.session s).connected = true →
        ¬ (removeSession s (Config.still {}) st).2.srv.IsMember s) joined :=
  (channelsOk_throughout_iff _ (by decide +kernel)).2 (by decide +kernel)

def renamedMember : List Event := joined ++ [.line 0 (lit "NICK bob")]

/-- The membership is still under the old nick, and stays when the client leaves. -/
theorem not_channelsOk_renamed :
    let st := (ircd (Config.still {})).after renamedMember
    (ircd (Config.still {})).Valid renamedMember ∧ ¬ ChannelsOk st.srv ∧
      (removeSession 0 (Config.still {}) st).2.srv.IsMember 0 := by
  refine ⟨by decide +kernel, fun h => ?_, by decide +kernel⟩
  have hnicks : ∀ e ∈ ((ircd (Config.still {})).after renamedMember).srv.channels.entries,
      ∀ m ∈ e.2.members.entries, toLower (((ircd (Config.still {})).after
        renamedMember).srv.session m.2.session).nick = m.1 := fun e he m hm =>
    (h.member e.1 e.2 m.1 m.2 (Map.lookup_eq_some_iff.2 he) (Map.lookup_eq_some_iff.2 hm)).2.2
  revert hnicks
  decide +kernel

end

end Irc
