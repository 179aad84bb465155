import GoProtocols.Irc.Proof.Refine

/-!
# Who sits where

`Seated us rs`: no channel is empty, and in every seat is a registered session under its own nick.
`Rosters.Keyed rs`: every channel is stored under its own name.

`JOIN`, `PART` and `KICK` keep both (`Within (Seats s)`), as every command does that leaves the
rosters alone and renames nobody who has a seat.
-/

namespace Irc

open Go Prog Option

set_option synthInstance.maxSize 4096

/-! ## Rosters -/

abbrev Rosters := Bytes → Option Roster

variable {r : Roster} {srv : Server} {key name : Bytes} {ch : Channel} {rs : Rosters} {us : Users}
  {s : SessionId} {st : State} {o : Option Roster} {us' : Users} {msg : Message}

/-- The roster with session `s` in the seat. -/
def Roster.add (r : Roster) (k : Bytes) (s : SessionId) : Roster :=
  { r with seat := Function.update r.seat k (some s) }

def Roster.drop (r : Roster) (k : Bytes) : Roster :=
  { r with seat := Function.update r.seat k none }

def Roster.Occupied (r : Roster) : Prop := ∃ k t, r.seat k = some t

theorem Roster.occupied_add (r : Roster) (k : Bytes) (s : SessionId) : (r.add k s).Occupied :=
  ⟨k, s, by simp [Roster.add]⟩

theorem Roster.seat_of_drop {k k' : Bytes} {t : SessionId}
    (h : (r.drop k).seat k' = some t) : k' ≠ k ∧ r.seat k' = some t := by
  by_cases hk : k' = k
  · subst hk
    simp [Roster.drop] at h
  · exact ⟨hk, by simpa [Roster.drop, hk] using h⟩

/-- Session `s` has a seat in some channel. -/
def Rosters.Holds (rs : Rosters) (s : SessionId) : Prop :=
  ∃ key r k, rs key = some r ∧ r.seat k = some s

theorem Server.roster_eq_some :
    srv.roster key = some r ↔ ∃ ch, srv.channels.lookup key = some ch ∧ ch.roster = r := by
  simp [Server.roster]

theorem Server.roster_insert (srv : Server) (key : Bytes) (ch : Channel) :
    ({ srv with channels := srv.channels.insert key ch } : Server).roster =
      Function.update srv.roster key (some ch.roster) := by
  funext k
  by_cases hk : k = key
  · subst hk
    simp [Server.roster]
  · simp [Server.roster, hk]

theorem Server.roster_setChannel_some
    (h : srv.channels.lookup key = some ch) (f : Channel → Channel) :
    (srv.setChannel key f).roster = Function.update srv.roster key (some (f ch).roster) := by
  simp only [Server.setChannel, h]
  exact srv.roster_insert key (f ch)

theorem Channel.occupied_iff : ch.roster.Occupied ↔ ch.members.entries ≠ [] := by
  refine ⟨fun ⟨k, t, h⟩ he => ?_, fun h => ?_⟩
  · obtain ⟨m, hm, -⟩ := map_eq_some_iff.1 h
    rw [Map.lookup_eq_some_iff, he] at hm
    cases hm
  · obtain ⟨e, he⟩ := List.exists_mem_of_ne_nil _ h
    exact ⟨e.1, e.2.session, map_eq_some_iff.2 ⟨e.2, Map.lookup_eq_some_iff.2 he, rfl⟩⟩

section
variable [UnicodeTables]

theorem Channel.roster_addMember (ch : Channel) (s : SessionId) (nick status : Bytes) :
    (ch.addMember s nick status).roster = ch.roster.add (toLower nick) s := by
  refine congrArg (Roster.mk ch.name) (funext fun k => ?_)
  simp only [Channel.addMember, Map.lookup_insert_eq, Function.update_apply]
  split <;> rfl

theorem Channel.roster_removeMember (ch : Channel) (nick : Bytes) :
    (ch.removeMember nick).roster = ch.roster.drop (toLower nick) := by
  refine congrArg (Roster.mk ch.name) (funext fun k => ?_)
  simp only [Channel.removeMember, Map.lookup_erase_eq, Function.update_apply]
  split <;> rfl

/-! ## Well-seated rosters -/

def Rosters.Keyed (rs : Rosters) : Prop := ∀ key r, rs key = some r → key = toLower r.name

/-- Session `t` is connected and registered, with the folded nick `k`. -/
def Users.Present (us : Users) (t : SessionId) (k : Bytes) : Prop :=
  (us.ident t).connected = true ∧ (us.ident t).state = .registered ∧
    toLower (us.ident t).nick = k

structure Seated (us : Users) (rs : Rosters) : Prop where
  occupied : ∀ key r, rs key = some r → r.Occupied
  seat : ∀ key r k t, rs key = some r → r.seat k = some t → us.Present t k

theorem Rosters.Keyed.update (h : rs.Keyed) (ho : ∀ r, o = some r → key = toLower r.name) :
    Keyed (Function.update rs key o) := by
  intro key' r hr
  by_cases hk : key' = key
  · subst hk
    exact ho r (by simpa using hr)
  · exact h key' r (by simpa [hk] using hr)

theorem Seated.update (h : Seated us rs)
    (ho : ∀ r, o = some r → r.Occupied ∧ ∀ k t, r.seat k = some t → us.Present t k) :
    Seated us (Function.update rs key o) where
  occupied key' r hr := by
    by_cases hk : key' = key
    · subst hk
      exact (ho r (by simpa using hr)).1
    · exact h.occupied key' r (by simpa [hk] using hr)
  seat key' r k t hr := by
    by_cases hk : key' = key
    · subst hk
      exact (ho r (by simpa using hr)).2 k t
    · exact h.seat key' r k t (by simpa [hk] using hr)

/-- **A message that renames nobody with a seat keeps the rosters well seated.** -/
theorem Seated.moves (h : Seated us rs) (hm : us.Moves s msg us')
    (hgood : ¬ (us.Renames s msg ∧ rs.Holds s)) : Seated us' rs where
  occupied := h.occupied
  seat key r k t hr hk := by
    have hpresent := h.seat key r k t hr hk
    by_cases hts : t = s
    · subst hts
      obtain ⟨hconn, hreg, hnick⟩ := hpresent
      cases hm with
      | stay => exact ⟨hconn, hreg, hnick⟩
      | prepare hns _ _ | register hns _ _ _ _ _ => exact absurd hreg hns
      | respell _ _ heq => simpa [Users.Present] using ⟨hconn, hreg, heq.trans hnick⟩
      | rename _ _ _ hren => exact absurd ⟨hren, key, r, k, hr, hk⟩ hgood
    · unfold Users.Present
      rw [hm.ident_ne hts]
      exact hpresent

/-- A message that renames a session with a seat does not: the seat is under the old nick. -/
theorem Seated.not_seated_of_renames (h : Seated us rs) (hren : us.Renames s msg)
    (hh : rs.Holds s) : ¬ Seated (us.command s msg) rs := by
  obtain ⟨nick, hne, hcmd⟩ := Users.command_of_renames hren
  obtain ⟨key, r, k, hr, hk⟩ := hh
  intro h'
  have hold := (h.seat key r k s hr hk).2.2
  have hnew := (h'.seat key r k s hr hk).2.2
  rw [hcmd, Users.ident_setIdent_self] at hnew
  exact hne (hnew.trans hold.symm)

theorem Seated.connect (h : Seated us rs) (hs : us.Sound) :
    Seated us.connect rs where
  occupied := h.occupied
  seat key r k t hr hk := by
    have hpresent := h.seat key r k t hr hk
    have hta : t ≠ us.allocated := fun he => by
      have hconn := hpresent.1
      rw [hs.fresh t he.ge] at hconn
      cases hconn
    unfold Users.Present
    rw [show us.connect.ident t = us.ident t from Users.ident_setIdent_ne us _ hta]
    exact hpresent

/-! ## JOIN -/

/-- The users are the same, the channels are still stored under their names, and the rosters are
still well seated, if session `s` is registered. -/
structure Seats (s : SessionId) (st st' : State) : Prop extends SameUsers st st' where
  keyed : Rosters.Keyed st.srv.roster → Rosters.Keyed st'.srv.roster
  seated : (st.srv.users.ident s).connected = true → (st.srv.users.ident s).state = .registered →
    Seated st.srv.users st.srv.roster → Seated st.srv.users st'.srv.roster

instance (s : SessionId) : IsPreorder State (Seats s) where
  refl st := ⟨refl_of SameUsers st, id, fun _ _ => id⟩
  trans _ _ _ h h' :=
    { trans_of SameUsers h.toSameUsers h'.toSameUsers with
      keyed := fun hk => h'.keyed (h.keyed hk)
      seated := fun hc hr hs => by
        have h2 := h'.seated
        rw [h.users] at h2
        exact h2 hc hr (h.seated hc hr hs) }

instance (priority := low) within_seats_of_same {α : Type} (s : SessionId) (m : M α)
    [h : Within Same m] : Within (Seats s) m :=
  h.mono fun st st' hs =>
    { hs.toSameUsers with
      keyed := fun hk => by rwa [hs.roster]
      seated := fun _ _ h => by rwa [hs.roster] }

theorem Seats.join {st' : State} (hu : SameUsers st st')
    (hold : st.srv.roster key = some r ∨ key = toLower r.name ∧ ∀ k, r.seat k = none)
    (hr : st'.srv.roster = Function.update st.srv.roster key
      (some (r.add (toLower (st.srv.users.ident s).nick) s))) : Seats s st st' := by
  refine { hu with keyed := fun hk => ?_, seated := fun hc hreg hs => ?_ }
  · rw [hr]
    refine hk.update fun r' hr' => ?_
    cases hr'
    exact hold.elim (hk key r) And.left
  · rw [hr]
    refine hs.update fun r' hr' => ?_
    cases hr'
    refine ⟨r.occupied_add _ s, fun k t hk => ?_⟩
    by_cases hkn : k = toLower (st.srv.users.ident s).nick
    · subst hkn
      obtain rfl : s = t := by simpa [Roster.add] using hk
      exact ⟨hc, hreg, rfl⟩
    · have hk' : r.seat k = some t := by simpa [Roster.add, hkn] using hk
      rcases hold with hold | ⟨-, hnone⟩
      · exact hs.seat key r k t hold hk'
      · rw [hnone k] at hk'
        cases hk'

def Server.create (srv : Server) (ch : Channel) : Server :=
  { srv with channels := srv.channels.insert (toLower ch.name) ch }

theorem getOrCreate_cases (name : Bytes) (env : Env) (st : State) :
    (∃ ch, st.srv.channels.lookup (toLower name) = some ch ∧ getOrCreate name env st = (ch, st)) ∨
      ∃ createdAt reads, getOrCreate name env st =
        ({ name, createdAt }, ⟨st.srv.create { name, createdAt }, st.output, reads⟩) := by
  unfold getOrCreate
  simp only [bind_run, server_run, Server.getChannel]
  cases h : st.srv.channels.lookup (toLower name) with
  | some ch => exact .inl ⟨ch, rfl, rfl⟩
  | none => exact .inr ⟨_, _, rfl⟩

theorem enter_roster (st : State)
    (h : st.srv.channels.lookup key = some ch) (s : SessionId) (nick status chanName : Bytes)
    (ch' : Channel) (env : Env) :
    let st' := (announceJoin s chanName ch' env
      (updateChannel key (fun ch => ch.addMember s nick status) env st).2).2
    SameUsers st st' ∧
      st'.srv.roster =
        Function.update st.srv.roster key (some (ch.roster.add (toLower nick) s)) := by
  have hset := within_run SameUsers (updateChannel key fun ch => ch.addMember s nick status) env st
  have hsay := within_run Same (announceJoin s chanName ch') env
    (updateChannel key (fun ch => ch.addMember s nick status) env st).2
  refine ⟨trans_of SameUsers hset hsay.toSameUsers, hsay.roster.trans ?_⟩
  rw [← Channel.roster_addMember ch s nick status]
  exact Server.roster_setChannel_some h _

theorem joinChannel_seats (s : SessionId) (chanName key : Bytes) (env : Env) (st : State) :
    Seats s st (joinChannel s chanName key env st).2 := by
  simp only [joinChannel, bind_run, ite_run]
  split
  · exact refl_of (Seats s) st
  · split
    · exact within_run (Seats s) _ env st
    · rcases getOrCreate_cases chanName env st with ⟨ch, hch, hrun⟩ |
        ⟨createdAt, reads, hrun⟩
      · simp only [server_run, hrun]
        split
        · exact within_run (Seats s) _ env st
        · split
          · exact within_run (Seats s) _ env st
          · split
            · exact within_run (Seats s) _ env st
            · split
              · exact refl_of (Seats s) st
              · obtain ⟨hu, hr⟩ := enter_roster st hch s _ _ chanName _ env
                exact Seats.join hu (.inl (Server.roster_eq_some.2 ⟨ch, hch, rfl⟩)) hr
      · -- nothing keeps the session out of a channel without modes and members
        have hkey : ¬ (Option.any (· ≠ key) (({} : ModeSet).arg (rune 'k')) = true) := by
          simp [ModeSet.arg]
        have hinvite (c : Prop) : ¬ (({} : ModeSet).has (rune 'i') = true ∧ c) := by
          simp [ModeSet.has]
        have hfull : ¬ (isFull { name := chanName, createdAt } = true) := by
          simp [isFull, ModeSet.arg]
        have hmember (nick : Bytes) :
            ¬ (Channel.hasMember { name := chanName, createdAt } nick = true) := by
          simp [Channel.hasMember, Channel.getMembership]
        simp only [server_run, hrun]
        rw [if_neg hkey, if_neg (hinvite _), if_neg hfull, if_neg (hmember _)]
        let stNew : State := ⟨st.srv.create { name := chanName, createdAt }, st.output, reads⟩
        obtain ⟨hu, hr⟩ := enter_roster stNew (AList.lookup_insert _) s _ _ chanName _ env
        have hu' : SameUsers st stNew := ⟨rfl, fun _ h => h⟩
        refine Seats.join (r := Channel.roster { name := chanName, createdAt })
          (trans_of SameUsers hu' hu) (.inr ⟨rfl, fun _ => rfl⟩) (hr.trans ?_)
        simp only [stNew]
        rw [Server.create, Server.roster_insert, Function.update_idem]
        rfl

instance (s : SessionId) (chanName key : Bytes) : Within (Seats s) (joinChannel s chanName key) :=
  ⟨joinChannel_seats s chanName key⟩

variable (s : SessionId) (msg : Message) (reason chanName : Bytes)

instance : Within (Seats s) (handleJoin s msg) := by
  unfold handleJoin
  infer_instance

/-! ## PART and KICK -/

/-- What is left of a channel when a member has gone. -/
def Channel.left (ch : Channel) (nick : Bytes) : Option Channel :=
  if (ch.removeMember nick).members.entries = [] then none else some (ch.removeMember nick)

theorem Channel.left_eq_some {ch' : Channel} {nick : Bytes} (h : ch.left nick = some ch') :
    ch' = ch.removeMember nick ∧ ch'.roster.Occupied := by
  unfold Channel.left at h
  split at h
  · cases h
  · rename_i hne
    cases h
    exact ⟨rfl, Channel.occupied_iff.2 hne⟩

theorem Server.users_removeMember (srv : Server) (key name nick : Bytes) :
    (srv.removeMember key name nick).users = srv.users := by
  unfold Server.removeMember
  split
  · rfl
  · dsimp only
    split <;> rfl

theorem Server.lookup_removeMember
    (hkey : key = toLower name) (hch : srv.channels.lookup key = some ch) (nick key' : Bytes) :
    (srv.removeMember key name nick).channels.lookup key' =
      if key' = key then ch.left nick else srv.channels.lookup key' := by
  simp only [Server.removeMember, hch, Channel.left]
  split
  · simp only [Server.removeChannel, ← hkey, Map.lookup_erase_eq, Map.lookup_insert_eq]
    split <;> rfl
  · exact Map.lookup_insert_eq _ _ _ _

theorem Server.roster_removeMember
    (hkey : key = toLower name) (hch : srv.channels.lookup key = some ch) (nick : Bytes) :
    (srv.removeMember key name nick).roster =
      Function.update srv.roster key ((ch.left nick).map Channel.roster) := by
  funext key'
  simp only [Server.roster, Server.lookup_removeMember hkey hch, Function.update_apply]
  split <;> rfl

theorem removeMember_seats
    (hch : st.srv.channels.lookup (toLower name) = some ch) (s : SessionId) (nick : Bytes)
    (env : Env) :
    Seats s st (updateServer (fun srv => srv.removeMember (toLower name) name nick) env st).2 := by
  have hr : st.srv.roster (toLower name) = some ch.roster := Server.roster_eq_some.2 ⟨ch, hch, rfl⟩
  -- the new roster is the old one without a seat, and not empty
  have hleft (r : Roster) (h : (ch.left nick).map Channel.roster = some r) :
      r.Occupied ∧ r = ch.roster.drop (toLower nick) := by
    obtain ⟨ch', hch', rfl⟩ := map_eq_some_iff.1 h
    obtain ⟨rfl, hocc⟩ := Channel.left_eq_some hch'
    exact ⟨hocc, ch.roster_removeMember nick⟩
  refine ⟨⟨st.srv.users_removeMember _ _ _, fun _ h => h⟩, fun hk => ?_, fun _ _ hs => ?_⟩
  · refine (Server.roster_removeMember rfl hch nick).symm ▸ hk.update fun r h => ?_
    rw [(hleft r h).2]
    exact hk _ ch.roster hr
  · refine (Server.roster_removeMember rfl hch nick).symm ▸ hs.update fun r h => ?_
    refine ⟨(hleft r h).1, fun k t hkt => ?_⟩
    rw [(hleft r h).2] at hkt
    exact hs.seat _ _ k t hr (Roster.seat_of_drop hkt).2

theorem expel_seats
    (hch : st.srv.getChannel name = some ch) (s : SessionId) (nick : Bytes) (msg : Message)
    (exclude : Option SessionId) (env : Env) [Within Same (broadcast ch msg exclude)] :
    Seats s st (updateServer (fun srv => srv.removeMember (toLower name) name nick) env
      (broadcast ch msg exclude env st).2).2 := by
  have hch' : (broadcast ch msg exclude env st).2.srv.channels.lookup (toLower name) = some ch := by
    rw [broadcast_srv]
    exact hch
  exact trans_of (Seats s) (within_run (Seats s) _ env st) (removeMember_seats hch' s nick env)

theorem partChannel_seats (env : Env) (st : State) :
    Seats s st (partChannel s reason chanName env st).2 := by
  simp only [partChannel, bind_run]
  cases hch : (server env st).1.getChannel chanName with
  | none => exact within_run (Seats s) (sendNumeric s _ _) env st
  | some ch =>
    simp only [elim_some, bind_run, ite_run]
    split
    · exact within_run (Seats s) _ env st
    · exact expel_seats hch s _ _ none env

instance : Within (Seats s) (partChannel s reason chanName) :=
  ⟨partChannel_seats s reason chanName⟩

instance : Within (Seats s) (handlePart s msg) := by
  unfold handlePart
  infer_instance

instance : Within (Seats s) (handleKick s msg) where
  run env st := by
    simp only [handleKick, bind_run, ite_run]
    split
    · exact within_run (Seats s) _ env st
    · cases hch : (server env st).1.getChannel (msg.param 0) with
      | none => exact within_run (Seats s) (sendNumeric s _ _) env st
      | some ch =>
        simp only [elim_some]
        cases hm : ch.getMembership ((server env st).1.session s).nick with
        | none => exact within_run (Seats s) (sendNumeric s _ _) env st
        | some m =>
          simp only [elim_some, bind_run, ite_run]
          split
          · exact within_run (Seats s) _ env st
          · split
            · exact within_run (Seats s) _ env st
            · exact expel_seats hch s _ _ none env

end

end Irc
