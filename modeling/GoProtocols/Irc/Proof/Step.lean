import GoProtocols.Irc.Proof.Rooms

/-!
# What an event does

`Effect s msg st st'` is all that is needed of a message `msg` of session `s`: the users change as
the abstract machine says, a session is welcomed only if it is registered, and the rosters stay
well keyed and well seated. `handleLine_effect` shows it of every line that is a message.

The answers to a labeled command are taken out of the session's output and put back with a label, so
that nothing is welcomed by that (`respond_quiet`).
-/

namespace Irc

open Go Prog List

set_option synthInstance.maxSize 4096

/-! ## Labeled responses -/

variable (s : SessionId) (messages : List Message) (env : Env) (st : State)

theorem frameMessage_command (verb : Verb) (params : List Bytes) (tags : Tags) (env : Env)
    (st : State) : (frameMessage s verb params tags env st).1.command = verb.name := by
  simp only [frameMessage, responseMessage, bind_run, ite_run]
  split <;> rfl

theorem frameResponse_welcome {s : SessionId} {label : Bytes} {messages : List Message} {env : Env}
    {st : State} {m : Message} (hm : m ∈ (frameResponse s label messages env st).1)
    (hw : m.command = Numeric.RPL_WELCOME.string) :
    ∃ m' ∈ messages, m'.command = Numeric.RPL_WELCOME.string := by
  unfold frameResponse at hm
  split at hm
  · obtain rfl : m = _ := by simpa [bind_run, pure_run] using hm
    rw [frameMessage_command] at hw
    exact absurd hw (Verb.name_ne_welcome _)
  · rename_i msg
    obtain rfl : m = msg.setTag (lit "label") label := by simpa [pure_run] using hm
    exact ⟨msg, by simp, hw⟩
  · rename_i msg messages _
    rw [ite_run] at hm
    split at hm
    · rcases mem_cons.1 (by simpa [pure_run] using hm) with rfl | hm
      · exact ⟨msg, by simp, hw⟩
      · exact ⟨m, by simp [hm], hw⟩
    · simp only [bind_run, pure_run, mem_append, mem_cons, mem_map,
        not_mem_nil, or_false] at hm
      rcases hm with (rfl | ⟨m', hm', rfl⟩) | rfl
      · rw [frameMessage_command] at hw
        exact absurd hw (Verb.name_ne_welcome _)
      · exact ⟨m', by simpa using hm', hw⟩
      · rw [frameMessage_command] at hw
        exact absurd hw (Verb.name_ne_welcome _)

theorem sendPrepared_spec :
    (sendPrepared s messages env st).2.srv = st.srv ∧
      ∀ t, (sendPrepared s messages env st).2.Welcomed t →
        st.Welcomed t ∨ t = s ∧ ∃ m ∈ messages, m.command = Numeric.RPL_WELCOME.string := by
  induction messages generalizing st with
  | nil => exact ⟨rfl, fun t ht => .inl ht⟩
  | cons msg messages ih =>
    unfold sendPrepared at ih ⊢
    rw [forM_cons_run]
    simp only [bind_run]
    obtain ⟨hsrv, hw⟩ := ih (updateOutput s (fun o =>
      { o with writeQueue := o.writeQueue ++ [(render msg env st).1] }) env (render msg env st).2).2
    refine ⟨hsrv, fun t ht => ?_⟩
    rcases hw t ht with ⟨m, hm, hmw⟩ | ⟨rfl, m, hm, hmw⟩
    · by_cases hts : t = s
      · subst hts
        have hm' : m ∈ (st.output t).messages ∨ m = msg := by
          simp only [updateOutput, Function.update_self, Output.messages, map_append,
            map_cons, map_nil, mem_append, mem_singleton, render_msg] at hm ⊢
          tauto
        rcases hm' with hm' | rfl
        · exact .inl ⟨m, hm', hmw⟩
        · exact .inr ⟨rfl, m, by simp, hmw⟩
      · have hout := (within_run OnlyReads (render msg) env st).output
        exact .inl ⟨m, by simpa [updateOutput, hts, hout] using hm, hmw⟩
    · exact .inr ⟨rfl, m, by simp [hm], hmw⟩

theorem finishResponse_spec :
    Quiet st (finishResponse s env st).2 ∧
      ∀ m ∈ (finishResponse s env st).1, m.command = Numeric.RPL_WELCOME.string →
        st.Welcomed s := by
  have hclear : Within Quiet (updateOutput s fun o =>
      { o with responseLabel := [], response := none, responseImmediate := [] }) :=
    within_updateOutput fun o m hm _ => by
      simp only [Output.messages, Option.getD_none, append_nil] at hm
      exact mem_append_left _ hm
  refine ⟨?_, fun m hm hw => ?_⟩
  · unfold finishResponse
    exact within_run Quiet _ env st
  · simp only [finishResponse, bind_run, pure_run, mem_append] at hm
    rcases hm with hm | hm
    · exact ⟨m, mem_append_right _ (mem_append_right _ hm), hw⟩
    · obtain ⟨m', hm', hw'⟩ := frameResponse_welcome hm hw
      exact ⟨m', mem_append_right _ (mem_append_left _ hm'), hw'⟩

/-- **The end of a labeled command** welcomes nobody who was not welcomed by the command. -/
instance respond_quiet (s : SessionId) : Within Quiet (do
    let response ← finishResponse s
    sendPrepared s response) where
  run env st := by
    obtain ⟨hfin, hresp⟩ := finishResponse_spec s env st
    obtain ⟨hsrv, hw⟩ := sendPrepared_spec s (finishResponse s env st).1 env
      (finishResponse s env st).2
    simp only [bind_run]
    refine ⟨⟨⟨?_, fun t ht => ?_⟩, ?_⟩, ⟨fun t => ?_⟩⟩
    · rw [hsrv, hfin.users]
    · rcases hw t ht with ht | ⟨rfl, m, hm, hmw⟩
      · exact hfin.welcomed t ht
      · exact hresp m hm hmw
    · rw [hsrv, hfin.roster]
    · rw [hsrv, hfin.login]

instance (label : Bytes) : Within Quiet (beginResponse s label) :=
  within_updateOutput fun o m hm _ => by
    simp only [Output.messages, Option.getD_some, append_nil] at hm
    exact mem_append_left _ hm

section
variable [UnicodeTables] {cmd : Bytes}

/-! ## Messages -/

structure Effect (s : SessionId) (msg : Message) (st st' : State) : Prop where
  users : st'.srv.users = st.srv.users.command s msg
  welcomed : ∀ t, st'.Welcomed t →
    st.Welcomed t ∨ t = s ∧ (st'.srv.users.ident s).state = .registered
  keyed : Rosters.Keyed st.srv.roster → Rosters.Keyed st'.srv.roster
  renamed : st.srv.users.Renames s msg → st'.srv.roster = st.srv.roster
  seated : (st.srv.users.ident s).connected = true →
    ¬ (st.srv.users.Renames s msg ∧ Rosters.Holds st.srv.roster s) →
    Seated st.srv.users st.srv.roster → Seated st'.srv.users st'.srv.roster

variable {s : SessionId} {msg : Message} {st st' st'' : State}

theorem Handshake.effect {f : Users → Users} (h : Handshake f s st st')
    (hf : f st.srv.users = st.srv.users.command s msg) : Effect s msg st st' where
  users := h.users.trans hf
  welcomed := h.welcomed
  keyed hk := by rwa [h.roster]
  renamed _ := h.roster
  seated _ hgood hs := by
    rw [h.users, hf, h.roster]
    exact hs.moves (Users.moves_command _ s msg) hgood

theorem Seats.effect (h : Seats s st st') (hreg : (st.srv.users.ident s).state = .registered)
    (hf : st.srv.users.command s msg = st.srv.users) : Effect s msg st st' where
  users := h.users.trans hf.symm
  welcomed t ht := .inl (h.welcomed t ht)
  keyed := h.keyed
  renamed hr := absurd hf (Users.command_ne_of_renames hr)
  seated hc _ hs := by
    rw [h.users]
    exact h.seated hc hreg hs

theorem Same.effect (h : Same st st') (hf : st.srv.users.command s msg = st.srv.users) :
    Effect s msg st st' :=
  (h.stay (f := id) s rfl).effect hf.symm

theorem Effect.after (h : Effect s msg st' st'') (h' : Same st st') : Effect s msg st st'' where
  users := by rw [h.users, h'.users]
  welcomed t ht := (h.welcomed t ht).imp_left (h'.welcomed t)
  keyed hk := h.keyed (by rwa [h'.roster])
  renamed hr := (h.renamed (by rwa [h'.users])).trans h'.roster
  seated := by
    have hs := h.seated
    rwa [h'.users, h'.roster] at hs

theorem Effect.before (h : Effect s msg st st') (h' : Same st' st'') : Effect s msg st st'' where
  users := by rw [h'.users, h.users]
  welcomed t ht := by
    rw [h'.users]
    exact h.welcomed t (h'.welcomed t ht)
  keyed hk := by
    rw [h'.roster]
    exact h.keyed hk
  renamed hr := h'.roster.trans (h.renamed hr)
  seated hc hgood hs := by
    rw [h'.users, h'.roster]
    exact h.seated hc hgood hs

variable (s) {raw : Bytes}

theorem dispatchRegistered_seats (msg : Message) (h : verbOf cmd ≠ some .NICK) :
    Within (Seats s) (dispatchRegistered s msg cmd) := by
  by_cases hseats : verbOf cmd ∈ [some .JOIN, some .PART, some .KICK]
  · unfold dispatchRegistered
    simp only [mem_cons, not_mem_nil, or_false] at hseats
    rcases hseats with hv | hv | hv <;> simp only [hv] <;> infer_instance
  · have := script_dispatchRegistered (p := ⟨true, true, true, true, true, false, false, true⟩) s
      msg h (fun hv => absurd hv hseats) (fun _ => rfl) (fun _ => rfl) (fun _ => rfl) fun _ => rfl
    infer_instance

theorem dispatchOther_effect (msg : Message) (env : Env) (st : State) (h : verbOf cmd ≠ some .NICK)
    (hf : st.srv.users.command s msg = st.srv.users) :
    Effect s msg st (dispatchOther s msg cmd env st).2 := by
  simp only [dispatchOther, bind_run, ite_run]
  split
  · exact (within_run Same _ env st).effect hf
  · rename_i hreg
    rw [not_not] at hreg
    exact ((dispatchRegistered_seats s msg h).run env st).effect hreg hf

theorem dispatch_effect (msg : Message) (env : Env) (st : State) :
    Effect s msg st (dispatch s msg env st).2 := by
  -- the commands without an effect of their own
  have hquiet (m : M Unit) [Within Same m] (hf : st.srv.users.command s msg = st.srv.users) :
      Effect s msg st (m env st).2 :=
    (within_run Same m env st).effect hf
  generalize hm : dispatch s msg = m
  unfold dispatch at hm
  split at hm <;> subst hm
  case h_1 hv => exact (handleCAP_handshake s msg env st).effect (by simp [Users.command, hv])
  case h_2 hv => exact hquiet (handlePass s msg) (by simp [Users.command, hv])
  case h_3 hv => exact (handleNick_handshake s msg env st).effect (by simp [Users.command, hv])
  case h_4 hv => exact (handleUser_handshake s msg env st).effect (by simp [Users.command, hv])
  case h_5 hv => exact hquiet (handleQuit s msg) (by simp [Users.command, hv])
  case h_6 hv => exact hquiet (handlePing s msg) (by simp [Users.command, hv])
  case h_7 hv => exact hquiet (pure ()) (by simp [Users.command, hv])
  case h_8 hv => exact hquiet (handleAuthenticate s msg) (by simp [Users.command, hv])
  case h_9 hcap hpass hnick huser hquit hping hpong hauth =>
    refine dispatchOther_effect s msg env st hnick ?_
    unfold Users.command
    split
    · contradiction
    · contradiction
    · contradiction
    · rfl

/-! ## Lines -/

/-- **A line has the effect of its message.** -/
theorem handleLine_effect (h : lineMessage raw = some msg) (s : SessionId) (env : Env)
    (st : State) : Effect s msg st (handleLine s raw env st).2 := by
  rcases handleLine_around Same s raw env st with ⟨hnone, -⟩ | ⟨msg', st₁, hline, hbefore, hafter⟩
  · cases hnone.symm.trans h
  · cases hline.symm.trans h
    exact ((dispatch_effect s msg env st₁).after hbefore).before hafter

theorem handleLine_same (h : lineMessage raw = none) (s : SessionId) (env : Env) (st : State) :
    Same st (handleLine s raw env st).2 := by
  rcases handleLine_around Same s raw env st with ⟨-, hsame⟩ | ⟨msg, st₁, hline, -⟩
  · exact hsame
  · cases hline.symm.trans h

end

end Irc
