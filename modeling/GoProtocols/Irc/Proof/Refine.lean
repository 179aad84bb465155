import GoProtocols.Irc.Proof.Commands

/-!
# The server refines its users

The commands of the handshake (`NICK`, `USER`, `CAP`) change the users of the server
(`Server.users`) as the abstract machine does. They keep the rosters besides, and a session is
welcomed by them only when it is registered (`Handshake`).
-/

namespace Irc

open Go Prog

variable {st st' st'' : State} {f g : Users → Users} {s : SessionId} {srv : Server}

set_option synthInstance.maxSize 4096

/-! ## Effects -/

/-- Nothing has changed but that session `s` may have been welcomed. -/
structure Greets (s : SessionId) (st st' : State) : Prop where
  users : st'.srv.users = st.srv.users
  roster : st'.srv.roster = st.srv.roster
  welcomed : ∀ t, st'.Welcomed t → st.Welcomed t ∨ t = s

instance (s : SessionId) : IsPreorder State (Greets s) where
  refl _ := ⟨rfl, rfl, fun _ h => .inl h⟩
  trans _ _ _ h h' := ⟨h'.users.trans h.users, h'.roster.trans h.roster, fun t ht => by
    rcases h'.welcomed t ht with ht | ht
    · exact h.welcomed t ht
    · exact .inr ht⟩

instance (priority := low) within_greets_of_same {α : Type} (s : SessionId) (m : M α)
    [h : Within Same m] : Within (Greets s) m :=
  h.mono fun _ _ hs => ⟨hs.users, hs.roster, fun t ht => .inl (hs.welcomed t ht)⟩

/-- The users have changed by `f`, the rosters not, and nobody was welcomed. -/
structure Changes (f : Users → Users) (st st' : State) : Prop where
  users : st'.srv.users = f st.srv.users
  roster : st'.srv.roster = st.srv.roster
  welcomed : ∀ t, st'.Welcomed t → st.Welcomed t

/-- The users have changed by `f`, the rosters not, and `s` may have been welcomed, if it is
registered now. -/
structure Handshake (f : Users → Users) (s : SessionId) (st st' : State) : Prop where
  users : st'.srv.users = f st.srv.users
  roster : st'.srv.roster = st.srv.roster
  welcomed : ∀ t, st'.Welcomed t →
    st.Welcomed t ∨ t = s ∧ (st'.srv.users.ident s).state = .registered

theorem Same.changes (h : Same st st') : Changes id st st' :=
  ⟨h.users, h.roster, h.welcomed⟩

theorem Changes.handshake (h : Changes f st st')
    (s : SessionId) : Handshake f s st st' :=
  ⟨h.users, h.roster, fun t ht => .inl (h.welcomed t ht)⟩

theorem Handshake.congr
    (h : Handshake f s st st') (hfg : f st.srv.users = g st.srv.users) : Handshake g s st st' :=
  ⟨h.users.trans hfg, h.roster, h.welcomed⟩

theorem Changes.trans
    (h : Changes f st st') (h' : Handshake g s st' st'') :
    Handshake (fun us => g (f us)) s st st'' where
  users := by rw [h'.users, h.users]
  roster := h'.roster.trans h.roster
  welcomed t ht := (h'.welcomed t ht).imp_left (h.welcomed t)

theorem Changes.then_same (h : Changes f st st')
    (h' : Same st' st'') : Changes f st st'' :=
  ⟨h'.users.trans h.users, h'.roster.trans h.roster, fun t ht => h.welcomed t (h'.welcomed t ht)⟩

theorem Same.trans
    (h : Same st st') (h' : Handshake g s st' st'') : Handshake g s st st'' :=
  h.changes.trans h'

theorem Same.stay (h : Same st st') (s : SessionId)
    (hf : f st.srv.users = st.srv.users) : Handshake f s st st' :=
  (h.changes.handshake s).congr hf.symm

theorem updateSession_changes (s : SessionId) (f : Session → Session) {i : Ident → Ident}
    (hi : ∀ u : Session, (f u).ident = i u.ident) (env : Env) (st : State) :
    Changes (fun us => us.setIdent s (i (us.ident s))) st (updateSession s f env st).2 where
  users := by
    simp only [updateSession, updateServer, Server.users_setSession, hi]
    rfl
  roster := rfl
  welcomed _ h := h

theorem beginNegotiation_changes (s : SessionId) (env : Env) (st : State) :
    Changes (fun us => us.negotiate s) st (beginNegotiation s env st).2 := by
  simp only [beginNegotiation, bind_run, when_run]
  split
  · rename_i hreg
    have hset := updateSession_changes s (fun u => { u with state := .capNeg })
      (i := fun i => { i with state := .capNeg }) (fun _ => rfl) env st
    exact ⟨hset.users.trans (if_neg hreg).symm, hset.roster, hset.welcomed⟩
  · rename_i hreg
    rw [not_not] at hreg
    exact ⟨(if_pos hreg).symm, rfl, fun _ ht => ht⟩

theorem endNegotiation_changes {c : Prop} [Decidable c]
    (hc : c ↔ (st.srv.users.ident s).state = .capNeg) (env : Env) :
    Changes (fun us => us.endNegotiation s) st
      (when c (updateSession s fun u => { u with state := .preReg }) env st).2 := by
  rw [when_run]
  split
  · rename_i hneg
    have hset := updateSession_changes s (fun u => { u with state := .preReg })
      (i := fun i => { i with state := .preReg }) (fun _ => rfl) env st
    exact ⟨hset.users.trans (if_pos (hc.1 hneg)).symm, hset.roster, hset.welcomed⟩
  · rename_i hneg
    exact ⟨(if_neg fun h => hneg (hc.2 h)).symm, rfl, fun _ ht => ht⟩

section
variable [UnicodeTables]

/-! ## Registration -/

instance within_send_greets (s : SessionId) (msg : Message) : Within (Greets s) (send s msg) where
  run env st := by
    simp only [send, bind_run, ite_run]
    split
    · exact refl_of (Greets s) st
    · refine trans_of (Greets s) (within_run (Greets s) (prepare s msg) env st) ?_
      refine trans_of (Greets s) (within_run (Greets s) (render (prepare s msg env st).1) env _) ?_
      refine ⟨rfl, rfl, fun t ht => ?_⟩
      by_cases hts : t = s
      · exact .inr hts
      · left
        simpa [State.Welcomed, updateOutput, hts] using ht

instance (s : SessionId) (n : Numeric) (params : List Bytes) :
    Within (Greets s) (sendNumeric s n params) := by
  unfold sendNumeric
  infer_instance

instance (s : SessionId) : Within (Greets s) (sendWelcome s) := by
  unfold sendWelcome
  infer_instance

theorem Server.users_register {srv' : Server} (h : srv.register s = some srv') :
    toLower (srv.session s).nick ∉ srv.sessions ∧ srv'.roster = srv.roster ∧
      srv'.users = srv.users.enroll s { srv.users.ident s with state := .registered } := by
  simp only [Server.register] at h
  split at h
  · cases h
  · rename_i hfree
    cases h
    refine ⟨hfree, rfl, ?_⟩
    exact congrArg (fun us : Users => { us with
        sessions := srv.sessions.insert (toLower (srv.session s).nick) s })
      (srv.users_setSession s fun u => { u with state := .registered })

theorem register_handshake
    (hready : Users.Ready (st.srv.users.ident s)) (params : List Bytes) (env : Env) :
    Handshake (fun us => us.tryRegister s) s st
      ((st.srv.register s).elim
        (do
          sendNumeric s .ERR_NICKNAMEINUSE params
          updateSession s fun u => { u with nick := [] })
        (fun srv' => do
          updateServer fun _ => srv'
          notifyMonitorOnline s
          sendWelcome s) env st).2 := by
  cases hreg : st.srv.register s with
  | none =>
    have hused : toLower (st.srv.users.ident s).nick ∈ st.srv.users.sessions := by
      simpa [Server.register, Server.users, Session.ident] using hreg
    have hsend := within_run Same (sendNumeric s .ERR_NICKNAMEINUSE params) env st
    have hset := updateSession_changes s (fun u => { u with nick := [] })
      (i := fun i => { i with nick := [] }) (fun _ => rfl) env
      (sendNumeric s .ERR_NICKNAMEINUSE params env st).2
    exact (hsend.trans (hset.handshake s)).congr (by simp [Users.tryRegister, hready, hused])
  | some srv' =>
    obtain ⟨hfree, hroster, husers⟩ := Server.users_register hreg
    simp only [Option.elim_some, bind_run]
    have hgreet := within_run (Greets s) (do notifyMonitorOnline s; sendWelcome s) env
      (updateServer (fun _ => srv') env st).2
    simp only [bind_run] at hgreet
    have husers' := hgreet.users.trans husers
    refine ⟨husers'.trans (Users.tryRegister_free hready hfree).symm,
      hgreet.roster.trans hroster, fun t ht => ?_⟩
    refine (hgreet.welcomed t ht).imp_right fun hts => ⟨hts, ?_⟩
    exact (congrArg (fun us : Users => (us.ident s).state) husers').trans (by simp [Users.enroll])

theorem tryRegister_handshake (s : SessionId) (env : Env) (st : State) :
    Handshake (fun us => us.tryRegister s) s st (tryRegister s env st).2 := by
  have hstay (h : ¬ Users.Ready (st.srv.users.ident s)) :
      Handshake (fun us => us.tryRegister s) s st st := by
    refine ⟨?_, rfl, fun _ ht => .inl ht⟩
    simp [Users.tryRegister, h]
  simp only [tryRegister, bind_run, ite_run, pure_run]
  split
  · rename_i hreg
    exact hstay fun h => by
      have : (st.srv.session s).state = .preReg := h.1
      simp_all
  · split
    · rename_i hneg
      exact hstay fun h => by
        have : (st.srv.session s).state = .preReg := h.1
        simp_all
    · split
      · rename_i hnil
        exact hstay fun h => hnil.elim h.2.1 h.2.2
      · rename_i hreg hneg hnil
        rw [not_or] at hnil
        refine register_handshake ⟨?_, hnil⟩ _ env
        cases hst : (st.srv.session s).state <;> simp_all [Server.users, Session.ident]

/-! ## Commands of the handshake -/

theorem Server.takes_iff {nick : Bytes}
    (hvalid : isValidNick nick = true) :
    srv.users.Takes s nick ↔
      ¬ ((srv.getSession nick).isSome = true ∧ ¬ equalFold nick (srv.session s).nick = true) := by
  have hmem : (srv.getSession nick).isSome = true ↔ toLower nick ∈ srv.sessions :=
    AList.lookup_isSome
  rw [hmem, not_and_or, not_not]
  exact ⟨fun h => h.2, fun h => ⟨hvalid, h⟩⟩

variable (s : SessionId) (msg : Message) (env : Env) (st : State)

theorem handleNick_handshake :
    Handshake (fun us => us.nickCommand s msg.params) s st (handleNick s msg env st).2 := by
  simp only [handleNick, bind_run, ite_run]
  split
  · rename_i hp
    exact (within_run Same _ env st).stay s (by simp [hp, Users.nickCommand])
  · rename_i hp
    obtain ⟨nick, params, hp⟩ := List.exists_cons_of_ne_nil hp
    have hnick : msg.param 0 = nick := by simp [Message.param, hp]
    simp only [hnick, hp, Users.nickCommand]
    split
    · rename_i hvalid
      exact (within_run Same _ env st).stay s (if_neg fun h => hvalid h.1)
    · rename_i hvalid
      rw [not_not] at hvalid
      split
      · rename_i hused
        exact (within_run Same _ env st).stay s
          (if_neg fun h => (Server.takes_iff hvalid).1 h hused)
      · rename_i hfree
        have hset := updateSession_changes s (fun u => { u with nick := nick })
          (i := fun i => { i with nick := nick }) (fun _ => rfl) env st
        exact (hset.trans (tryRegister_handshake s env _)).congr
          (if_pos ((Server.takes_iff hvalid).2 hfree)).symm

theorem handleUser_handshake :
    Handshake (fun us => us.userCommand s msg.params) s st (handleUser s msg env st).2 := by
  simp only [handleUser, bind_run, ite_run, Users.userCommand]
  split
  · rename_i hreg
    exact (within_run Same _ env st).stay s (if_pos (.inl hreg))
  · rename_i hreg
    split
    · rename_i hlen
      exact (within_run Same _ env st).stay s (if_pos (.inr hlen))
    · rename_i hlen
      have hset := updateSession_changes s
        (fun u => { u with user := cleanUsername (msg.param 0), realname := msg.param 3 })
        (i := fun i => { i with user := cleanUsername (msg.param 0) }) (fun _ => rfl) env st
      exact (hset.trans (tryRegister_handshake s env _)).congr
        (if_neg (not_or.2 ⟨hreg, hlen⟩)).symm

variable (subArg : Bytes) (env : Env) (st : State)

theorem handleCapLS_changes :
    Changes (fun us => us.negotiate s) st (handleCapLS s subArg env st).2 := by
  unfold handleCapLS
  rw [bind_run]
  exact (beginNegotiation_changes s env st).then_same (within_run Same _ env _)

theorem handleCapREQ_changes :
    Changes (fun us => us.negotiate s) st (handleCapREQ s subArg env st).2 := by
  refine (beginNegotiation_changes s env st).then_same ?_
  simp only [handleCapREQ, bind_run, ite_run]
  split
  · exact within_run Same _ env _
  · exact trans_of Same (within_run Same _ env _) (within_run Same _ env _)

theorem handleCapEND_handshake :
    Handshake (fun us => (us.endNegotiation s).tryRegister s) s st (handleCapEND s env st).2 := by
  simp only [handleCapEND, bind_run]
  have hsasl := within_run Same (when ((server env st).1.session s).saslActive
    (saslFailure s .ERR_SASLABORTED (lit "SASL authentication aborted"))) env st
  -- the state was read before, but the failure of SASL does not change it
  have hstate := congrArg (fun us : Users => (us.ident s).state) hsasl.users
  exact hsasl.trans ((endNegotiation_changes (hstate ▸ Iff.rfl) env).trans
    (tryRegister_handshake s env _))

theorem handleCAP_handshake :
    Handshake (fun us => us.capCommand s msg.params) s st (handleCAP s msg env st).2 := by
  simp only [handleCAP, ite_run]
  split
  · rename_i hp
    exact (within_run Same _ env st).stay s (by simp [hp, Users.capCommand])
  · rename_i hp
    obtain ⟨sub, params, hp⟩ := List.exists_cons_of_ne_nil hp
    have hsub : msg.param 0 = sub := by simp [Message.param, hp]
    simp only [hsub]
    split
    · rename_i hls
      exact ((handleCapLS_changes s _ env st).handshake s).congr
        (by simp [hp, Users.capCommand, hls])
    · rename_i hls
      split
      · rename_i hlist
        have hreq : toUpper sub ≠ lit "REQ" := by rw [hlist]; decide
        have hend : toUpper sub ≠ lit "END" := by rw [hlist]; decide
        exact (within_run Same _ env st).stay s
          (by simp [hp, Users.capCommand, hls, hreq, hend])
      · split
        · rename_i hreq
          exact ((handleCapREQ_changes s _ env st).handshake s).congr
            (by simp [hp, Users.capCommand, hreq])
        · rename_i hreq
          split
          · rename_i hend
            exact (handleCapEND_handshake s env st).congr
              (by simp only [hp, Users.capCommand, if_neg (not_or.2 ⟨hls, hreq⟩), if_pos hend])
          · rename_i hend
            exact (within_run Same _ env st).stay s
              (by simp [hp, Users.capCommand, hls, hreq, hend])

end

end Irc
