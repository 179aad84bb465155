import GoProtocols.Irc.Proof.Step

/-!
# Connects and disconnects

`removeSession_channels`: a disconnect takes the seats under the session's nick from every channel,
whoever has them, and `removeSession_users`: it takes the registry's entry of the nick, whoever has
it.
-/

namespace Irc

open Go Prog

variable {st : State} {s : SessionId}

set_option synthInstance.maxSize 4096

/-! ## Connects -/

theorem connect_users (addr : Bytes) (secure : Bool) (serverName : Bytes) (env : Env) (st : State) :
    ((connect addr secure serverName env st).2.srv.users = st.srv.users ∨
        (connect addr secure serverName env st).2.srv.users = st.srv.users.connect) ∧
      (connect addr secure serverName env st).2.srv.roster = st.srv.roster ∧
      (connect addr secure serverName env st).2.output = st.output := by
  simp only [connect, bind_run, ite_run]
  split
  · exact ⟨.inl rfl, rfl, rfl⟩
  · refine ⟨.inr ?_, rfl, rfl⟩
    exact congrArg (fun us : Users => { us with allocated := us.allocated + 1 })
      (st.srv.users_setSession st.srv.allocated fun _ => newSession addr secure serverName _ _)

section
variable [UnicodeTables]

/-! ## The loop over the channels -/

/-- What `removeSession` leaves of a channel. -/
def Channel.leave (ch : Channel) (nick : Bytes) : Option Channel :=
  if ch.hasMember nick then ch.left nick else some ch

theorem leaveChannel_lookup {e : Sigma fun _ : Bytes => Channel}
    (hkey : e.1 = toLower e.2.name) (hcur : st.srv.channels.lookup e.1 = some e.2) (s : SessionId)
    (u : Session) (env : Env) (key : Bytes) :
    (leaveChannel s u e env st).2.srv.channels.lookup key =
      if key = e.1 then e.2.leave u.nick else st.srv.channels.lookup key := by
  simp only [leaveChannel, when_run, bind_run, Channel.leave]
  split
  · simp only [updateServer, broadcast_srv]
    exact Server.lookup_removeMember hkey hcur u.nick key
  · split
    · rename_i heq
      rw [heq, hcur]
    · rfl

theorem leaveChannels_lookup (s : SessionId) (u : Session) (env : Env)
    (l : List (Sigma fun _ : Bytes => Channel)) (st : State) (hnodup : (l.map Sigma.fst).Nodup)
    (hkey : ∀ e ∈ l, e.1 = toLower e.2.name)
    (hcur : ∀ e ∈ l, st.srv.channels.lookup e.1 = some e.2) :
    (∀ e ∈ l, (l.forM (leaveChannel s u) env st).2.srv.channels.lookup e.1 = e.2.leave u.nick) ∧
      ∀ key, (∀ e ∈ l, key ≠ e.1) →
        (l.forM (leaveChannel s u) env st).2.srv.channels.lookup key =
          st.srv.channels.lookup key := by
  induction l generalizing st with
  | nil => exact ⟨by simp, fun _ _ => rfl⟩
  | cons e l ih =>
    rw [List.map_cons, List.nodup_cons] at hnodup
    have hround := leaveChannel_lookup (hkey e (by simp)) (hcur e (by simp)) s u env
    have hne (e' : Sigma fun _ : Bytes => Channel) (he' : e' ∈ l) : e'.1 ≠ e.1 := fun heq =>
      hnodup.1 (List.mem_map.2 ⟨e', he', heq⟩)
    obtain ⟨hin, hout⟩ := ih (leaveChannel s u e env st).2 hnodup.2
      (List.forall_mem_cons.1 hkey).2
      (fun e' he' => by rw [hround, if_neg (hne e' he')]; exact hcur e' (by simp [he']))
    rw [forM_cons_run]
    refine ⟨fun e' he' => ?_, fun key hk => ?_⟩
    · rcases List.mem_cons.1 he' with rfl | he'
      · rw [hout e'.1 fun e'' he'' => (hne e'' he'').symm, hround, if_pos rfl]
      · exact hin e' he'
    · rw [hout key (List.forall_mem_cons.1 hk).2, hround, if_neg (hk e (by simp))]

/-! ## removeSession -/

theorem removeSession_nil (h : (st.srv.session s).nick = [])
    (env : Env) : (removeSession s env st).2 = st := by
  simp only [removeSession, bind_run, ite_run]
  rw [if_pos (show ((server env st).1.session s).nick = [] from h)]
  rfl

theorem removeSession_run (h : (st.srv.session s).nick ≠ [])
    (env : Env) : ∃ (l : List (Sigma fun _ : Bytes => Channel)) (st₁ st₂ : State),
      l.Perm st.srv.channels.entries ∧ st₁.srv.users = st.srv.users ∧
      st₁.srv.session = st.srv.session ∧ st₁.srv.channels = st.srv.channels ∧
      st₁.output = st.output ∧
      st₂ = (updateServer (fun srv =>
        { srv with sessions := srv.sessions.erase (toLower (st.srv.session s).nick) }) env
        (l.forM (leaveChannel s (st.srv.session s)) env st₁).2).2 ∧
      (removeSession s env st).2 = (notifyMonitorOffline (st.srv.session s).nick env st₂).2 := by
  let u := st.srv.session s
  let entry : WhowasEntry := ⟨u.nick, u.user, u.host, u.realname, env.world.now st.reads⟩
  let srv₀ : Server := { st.srv with whowas := appendWhowas st.srv.whowas entry }
  let st₀ : State := ⟨srv₀, st.output, st.reads + 1⟩
  refine ⟨(allChannels env st₀).1, (allChannels env st₀).2, _, visit_perm _ _, rfl, rfl, rfl, rfl, rfl, ?_⟩
  simp only [removeSession, bind_run, ite_run]
  rw [if_neg (show ((server env st).1.session s).nick ≠ [] from h)]
  rfl

theorem removeSession_users (s : SessionId) (env : Env) (st : State) :
    (removeSession s env st).2.srv.users = st.srv.users.unregister s ∧
      ∀ t, (removeSession s env st).2.Welcomed t → st.Welcomed t := by
  by_cases h : (st.srv.session s).nick = []
  · rw [removeSession_nil h]
    exact ⟨(if_pos h).symm, fun _ ht => ht⟩
  · obtain ⟨l, st₁, st₂, -, husers, -, -, hout, hst₂, hrun⟩ := removeSession_run h env
    have hloop := within_run SameUsers (l.forM (leaveChannel s (st.srv.session s))) env st₁
    have hoff := within_run Same (notifyMonitorOffline (st.srv.session s).nick) env st₂
    rw [hrun]
    subst hst₂
    refine ⟨hoff.users.trans ?_, fun t ht => ?_⟩
    · have hl := hloop.users.trans husers
      exact (congrArg (fun us : Users =>
        { us with sessions := us.sessions.erase (toLower (st.srv.session s).nick) }) hl).trans
          (if_neg h).symm
    · have ht' := hloop.welcomed t (hoff.welcomed t ht)
      rwa [State.Welcomed, hout] at ht'

theorem removeSession_channels (hk : Rosters.Keyed st.srv.roster)
    (h : (st.srv.session s).nick ≠ []) (env : Env) (key : Bytes) :
    (removeSession s env st).2.srv.channels.lookup key =
      (st.srv.channels.lookup key).bind fun ch => ch.leave (st.srv.session s).nick := by
  obtain ⟨l, st₁, st₂, hperm, -, -, hchannels, -, rfl, hrun⟩ := removeSession_run h env
  have hmem (e : Sigma fun _ : Bytes => Channel) :
      e ∈ l ↔ st.srv.channels.lookup e.1 = some e.2 := by
    rw [hperm.mem_iff, Map.lookup_eq_some_iff]
  have hnodup : (l.map Sigma.fst).Nodup :=
    (hperm.map Sigma.fst).nodup_iff.2 st.srv.channels.nodupKeys
  obtain ⟨hin, hout⟩ := leaveChannels_lookup s (st.srv.session s) env l st₁ hnodup
    (fun e he => hk e.1 e.2.roster (Server.roster_eq_some.2 ⟨e.2, (hmem e).1 he, rfl⟩))
    (fun e he => by rw [hchannels]; exact (hmem e).1 he)
  rw [hrun, (within_run Onward (notifyMonitorOffline _) env _).srv]
  cases hch : st.srv.channels.lookup key with
  | some ch => exact hin ⟨key, ch⟩ ((hmem ⟨key, ch⟩).2 hch)
  | none =>
    refine (hout key fun e he heq => ?_).trans (by rw [hchannels, hch]; rfl)
    rw [heq, (hmem e).1 he] at hch
    cases hch

theorem Channel.leave_eq_some {ch ch' : Channel} {nick : Bytes} (h : ch.leave nick = some ch') :
    ch'.name = ch.name ∧ (ch.roster.Occupied → ch'.roster.Occupied) ∧
      ∀ k t, ch'.roster.seat k = some t → ch.roster.seat k = some t ∧ k ≠ toLower nick := by
  unfold Channel.leave at h
  split at h
  · obtain ⟨rfl, hocc⟩ := Channel.left_eq_some h
    refine ⟨rfl, fun _ => hocc, fun k t hkt => ?_⟩
    rw [ch.roster_removeMember nick] at hkt
    exact (Roster.seat_of_drop hkt).symm
  · rename_i hmember
    cases h
    refine ⟨rfl, id, fun k t hkt => ⟨hkt, fun heq => hmember ?_⟩⟩
    obtain ⟨m, hm, -⟩ := Option.map_eq_some_iff.1 hkt
    rw [heq] at hm
    simp [Channel.hasMember, Channel.getMembership, hm]

theorem removeSession_roster (hk : Rosters.Keyed st.srv.roster)
    {env : Env} {key : Bytes} {r' : Roster}
    (hr' : (removeSession s env st).2.srv.roster key = some r') :
    ∃ r, st.srv.roster key = some r ∧ r'.name = r.name ∧ (r.Occupied → r'.Occupied) ∧
      ∀ k t, r'.seat k = some t → r.seat k = some t ∧
        ((st.srv.session s).nick ≠ [] → k ≠ toLower (st.srv.session s).nick) := by
  by_cases h : (st.srv.session s).nick = []
  · rw [removeSession_nil h] at hr'
    exact ⟨r', hr', rfl, id, fun k t hkt => ⟨hkt, fun hne => absurd h hne⟩⟩
  · obtain ⟨ch', hch', rfl⟩ := Server.roster_eq_some.1 hr'
    rw [removeSession_channels hk h] at hch'
    obtain ⟨ch, hch, hleave⟩ := Option.bind_eq_some_iff.1 hch'
    obtain ⟨hname, hocc, hseat⟩ := Channel.leave_eq_some hleave
    exact ⟨ch.roster, Server.roster_eq_some.2 ⟨ch, hch, rfl⟩, hname, hocc,
      fun k t hkt => ⟨(hseat k t hkt).1, fun _ => (hseat k t hkt).2⟩⟩

variable (s)

theorem not_holds_removeSession (st : State) (hsound : st.srv.users.Sound)
    (hk : Rosters.Keyed st.srv.roster) (hs : Seated st.srv.users st.srv.roster) (env : Env) :
    ¬ Rosters.Holds (removeSession s env st).2.srv.roster s := by
  rintro ⟨key, r', k, hr', hkt⟩
  obtain ⟨r, hr, -, -, hseat⟩ := removeSession_roster hk hr'
  obtain ⟨hkt, hne⟩ := hseat k s hkt
  obtain ⟨-, hreg, hnick⟩ := hs.seat key r k s hr hkt
  exact hne (hsound.named s hreg) hnick.symm

/-! ## Disconnects -/

/-- All that is needed of a disconnect. -/
structure Departure (s : SessionId) (st st' : State) : Prop where
  users : st'.srv.users = st.srv.users.quit s
  welcomed : ∀ t, st'.Welcomed t → st.Welcomed t
  keyed : Rosters.Keyed st.srv.roster → Rosters.Keyed st'.srv.roster
  seated : st.srv.users.Sound → Rosters.Keyed st.srv.roster →
    Seated st.srv.users st.srv.roster → Seated st'.srv.users st'.srv.roster

theorem disconnect_departure (env : Env) (st : State) : Departure s st (disconnect s env st).2 := by
  let st₀ := (updateServer (fun srv => { srv with clientsCurrent := srv.clientsCurrent - 1 }) env
    st).2
  obtain ⟨husers, hwelcomed⟩ := removeSession_users s env st₀
  have hset := updateSession_changes s (fun u => { u with connected := false })
    (i := fun i => { i with connected := false }) (fun _ => rfl) env (removeSession s env st₀).2
  have hquit : (disconnect s env st).2.srv.users = st.srv.users.quit s := by
    refine hset.users.trans ?_
    rw [husers, Users.unregister_ident]
    rfl
  have hroster : (disconnect s env st).2.srv.roster = (removeSession s env st₀).2.srv.roster :=
    hset.roster
  refine ⟨hquit, fun t ht => hwelcomed t (hset.welcomed t ht), fun hk => ?_, fun hsound hk hs => ?_⟩
  · have hk₀ : Rosters.Keyed st₀.srv.roster := hk
    rw [hroster]
    intro key r' hr'
    obtain ⟨r, hr, hname, -, -⟩ := removeSession_roster hk₀ hr'
    rw [hname]
    exact hk key r hr
  · have hk₀ : Rosters.Keyed st₀.srv.roster := hk
    have hgone := not_holds_removeSession s st₀ hsound hk hs env
    rw [hquit, hroster]
    refine ⟨fun key r' hr' => ?_, fun key r' k t hr' hkt => ?_⟩
    · obtain ⟨r, hr, -, hocc, -⟩ := removeSession_roster hk₀ hr'
      exact hocc (hs.occupied key r hr)
    · obtain ⟨r, hr, -, -, hseat⟩ := removeSession_roster hk₀ hr'
      have hts : t ≠ s := fun he => hgone ⟨key, r', k, hr', he ▸ hkt⟩
      unfold Users.Present
      rw [Users.ident_quit_ne hts]
      exact hs.seat key r k t hr (hseat k t hkt).1

end

end Irc
