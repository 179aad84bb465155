import GoProtocols.Irc.Proof.Step

/-!
# The server takes the steps of the logins

Only `CAP` and `AUTHENTICATE` change a login, and only that of the session that sends them; what
they do is a `Login.Step` (`handleLine_advances`). Every other command leaves the logins alone
(`Within SameLogins`).
-/

namespace Irc

open Go Prog List

set_option synthInstance.maxSize 4096

/-! ## Commands that leave the logins alone -/

variable {u : Session} {req : List Bytes} (s : SessionId) (msg : Message)

theorem connect_login (addr : Bytes) (secure : Bool) (serverName : Bytes) (env : Env) (st : State)
    (t : SessionId) :
    ((connect addr secure serverName env st).2.srv.session t).login = (st.srv.session t).login ∨
      ((connect addr secure serverName env st).2.srv.session t).login = { secure } := by
  simp only [connect, bind_run, ite_run]
  split
  · exact .inl rfl
  · by_cases ht : t = st.srv.allocated
    · subst ht
      exact .inr ((congrArg Session.login (Function.update_self ..)).trans rfl)
    · exact .inl (congrArg Session.login (Function.update_of_ne ht ..))

theorem capEnabled_applyRequest {cap : Bytes} (h : (applyRequest u cap).capEnabled .sasl = true) :
    u.capEnabled .sasl = true ∨ cap = Capability.sasl.name := by
  simp only [applyRequest, Session.capEnabled] at h ⊢
  split at h
  · rw [Map.lookup_erase_eq] at h
    split at h
    · cases h
    · exact .inl h
  · split at h
    · rename_i hdisable
      rw [Map.lookup_insert_eq] at h
      split at h
      · rename_i hname
        rw [requestName, trimPrefix, if_neg hdisable] at hname
        exact .inr hname.symm
      · exact .inl h
    · exact .inl h

theorem capEnabled_foldl_applyRequest (h : (req.foldl applyRequest u).capEnabled .sasl = true) :
    u.capEnabled .sasl = true ∨ Capability.sasl.name ∈ req := by
  induction req generalizing u with
  | nil => exact .inl h
  | cons cap req ih =>
    rcases ih h with h | h
    · rcases capEnabled_applyRequest h with h | rfl
      · exact .inl h
      · exact .inr (mem_cons_self ..)
    · exact .inr (mem_cons_of_mem _ h)

theorem checkPassword_result (hash password : Bytes) (env : Env) (st : State) :
    (checkPassword s hash password env st).1 = env.world.bcryptCheck hash password := by
  simp only [checkPassword, bind_run, ite_run]
  split <;> rfl

section
variable [UnicodeTables] {chunk raw : Bytes}

theorem dispatchRegistered_logins {cmd : Bytes} (h : verbOf cmd ≠ some .NICK) :
    Within SameLogins (dispatchRegistered s msg cmd) := by
  have := script_dispatchRegistered (p := ⟨true, true, false, true, true, true, true, false⟩) s msg
    h (fun _ => rfl) (fun _ => rfl) (fun _ => rfl) (fun _ => rfl) fun _ => rfl
  infer_instance

/-! ## Steps of a login -/

/-- The login of session `s` has taken a step of the message, and the others are as they were. -/
structure Advances (env : Env) (s : SessionId) (msg : Message) (st st' : State) : Prop where
  sender : Login.Step env msg (st.srv.session s).login (st'.srv.session s).login
  others : ∀ t, t ≠ s → (st'.srv.session t).login = (st.srv.session t).login

variable {env : Env} {s : SessionId} {msg : Message} {st st' st'' : State}

theorem SameLogins.advances (h : SameLogins st st')
    (hl : Login.Step env msg (st.srv.session s).login (st.srv.session s).login) :
    Advances env s msg st st' :=
  ⟨(h.login s).symm ▸ hl, fun t _ => h.login t⟩

theorem Advances.after (h : Advances env s msg st' st'') (h' : SameLogins st st') :
    Advances env s msg st st'' where
  sender := by
    have := h.sender
    rwa [h'.login] at this
  others t ht := (h.others t ht).trans (h'.login t)

theorem Advances.before (h : Advances env s msg st st') (h' : SameLogins st' st'') :
    Advances env s msg st st'' where
  sender := by
    rw [h'.login]
    exact h.sender
  others t ht := (h'.login t).trans (h.others t ht)

theorem updateSession_advances (env : Env) (s : SessionId) (f : Session → Session) (st : State)
    (h : Login.Step env msg (st.srv.session s).login (f (st.srv.session s)).login) :
    Advances env s msg st (updateSession s f env st).2 where
  sender := by simpa [updateSession, updateServer, Server.login_setSession] using h
  others t ht := by simp [updateSession, updateServer, Server.login_setSession, ht]

theorem saslFailure_advances (env : Env) (s : SessionId) (n : Numeric) (text : Bytes)
    (st : State) : Advances env s msg st (saslFailure s n text env st).2 :=
  (updateSession_advances env s (fun u => { u with saslActive := false, saslBuffer := [] }) st
    .abort).before (within_run SameLogins (sendNumeric s n [text]) env _)

/-! ## CAP -/

/-- The capability that `CAP LS 302` enables is not `sasl`. -/
instance (s : SessionId) (version : Int) : Within SameLogins (updateSession s fun u =>
    { u with capVersion := version, caps := u.caps.insert Capability.capNotify.name true }) where
  run _ st := by
    have hne : Capability.sasl.name ≠ Capability.capNotify.name := by decide
    refine ⟨fun t => ?_⟩
    simp only [updateSession, updateServer, Server.login_setSession]
    split
    · rename_i ht
      simp [ht, Session.login, Session.capEnabled, hne]
    · rfl

instance (s : SessionId) (subArg : Bytes) : Within SameLogins (handleCapLS s subArg) := by
  unfold handleCapLS
  infer_instance

theorem secure_of_supportedCaps {cfg : Config} {accounts : Map Bytes Account}
    (h : (supportedCaps cfg accounts u).lookup Capability.sasl.name ≠ none) : u.secure = true := by
  have hbase : (Map.ofList (baseCaps.map fun c => (c.name, ([] : Bytes)))).lookup
      Capability.sasl.name = none := by decide
  have hsts : Capability.sasl.name ≠ Capability.sts.name := by decide
  by_contra hsec
  refine h ?_
  simp only [supportedCaps]
  rw [if_neg fun hc => hsec hc.1]
  split
  · rw [Map.lookup_insert_eq, if_neg hsts]
    exact hbase
  · exact hbase

theorem Message.IsCap.stay {sub : Bytes} (h : msg.IsCap sub) (hsub : sub ≠ lit "END") (l : Login) :
    Login.Step env msg l l :=
  .stay h.not_isAuthenticate fun hend => h.not_end hsub hend.1

theorem request_step (h : msg.IsCap (lit "REQ")) (u : Session)
    (hsec : Capability.sasl.name ∈ fields (trimPrefix (msg.param 1) (lit ":")) → u.secure = true) :
    Login.Step env msg u.login { u.login with
      sasl := ((fields (trimPrefix (msg.param 1) (lit ":"))).foldl applyRequest u).capEnabled .sasl } := by
  generalize hreq : fields (trimPrefix (msg.param 1) (lit ":")) = req at hsec
  cases hafter : (req.foldl applyRequest u).capEnabled .sasl with
  | false => exact .disable h.not_isAuthenticate (h.not_end (by decide))
  | true =>
    rcases capEnabled_foldl_applyRequest hafter with hbefore | hmem
    · rw [← hbefore]
      exact h.stay (by decide) u.login
    · exact .enable ⟨h, hreq ▸ hmem⟩ (hsec hmem)

theorem handleCapREQ_advances (h : msg.IsCap (lit "REQ")) (env : Env) (st : State) :
    Advances env s msg st (handleCapREQ s (msg.param 1) env st).2 := by
  have hbegin := within_run SameLogins (beginNegotiation s) env st
  simp only [handleCapREQ, bind_run, ite_run]
  split
  · exact (trans_of SameLogins hbegin (within_run SameLogins (sendCAP s _ _) env _)).advances
      (h.stay (by decide) _)
  · rename_i hknown
    refine (Advances.before ?_ (within_run SameLogins (sendCAP s _ _) env _)).after hbegin
    refine updateSession_advances env s _ _ (request_step h _ fun hmem => ?_)
    have hsupported : (supportedCaps env.cfg env.accounts (st.srv.session s)).lookup
        Capability.sasl.name ≠ none := fun hnone => by
      refine hknown (any_eq_true.2 ⟨_, hmem, ?_⟩)
      have hname : requestName Capability.sasl.name = Capability.sasl.name := by decide
      rw [hname]
      simp [config, accounts, hnone]
    have hsecure := secure_of_supportedCaps hsupported
    exact (congrArg Login.secure (hbegin.login s)).trans hsecure

theorem handleCapEND_advances (h : msg.IsCap (lit "END")) (env : Env) (st : State) :
    Advances env s msg st (handleCapEND s env st).2 := by
  simp only [handleCapEND, bind_run]
  have hsasl : Advances env s msg st (when ((server env st).1.session s).saslActive
      (saslFailure s .ERR_SASLABORTED (lit "SASL authentication aborted")) env st).2 := by
    rw [when_run]
    split
    · exact saslFailure_advances env s _ _ st
    · rename_i hactive
      exact (refl_of SameLogins st).advances (.stay h.not_isAuthenticate fun he => hactive he.2)
  refine (hsasl.before ?_).before (within_run SameLogins (tryRegister s) env _)
  exact within_run SameLogins (when _ (updateSession s fun u => { u with state := .preReg })) env _

theorem handleCAP_advances (hv : verbOf (toUpper msg.command) = some .CAP) (env : Env)
    (st : State) : Advances env s msg st (handleCAP s msg env st).2 := by
  have hauth : ¬ msg.IsAuthenticate := fun ha => by
    rw [Message.IsAuthenticate, hv] at ha
    cases ha
  simp only [handleCAP, ite_run]
  split
  · rename_i hp
    refine (within_run SameLogins (sendNumeric s _ _) env st).advances (.stay hauth ?_)
    rintro ⟨⟨-, p, hp', -⟩, -⟩
    simp [hp] at hp'
  · rename_i hp
    obtain ⟨sub, params, hp⟩ := exists_cons_of_ne_nil hp
    have hsub : msg.param 0 = sub := by simp [Message.param, hp]
    have hcap : msg.IsCap (toUpper sub) := ⟨hv, sub, by simp [hp], rfl⟩
    simp only [hsub]
    split
    · rename_i hls
      exact (within_run SameLogins (handleCapLS s _) env st).advances
        (hcap.stay (by rw [hls]; decide) _)
    · split
      · rename_i hlist
        exact (within_run SameLogins (handleCapLIST s) env st).advances
          (hcap.stay (by rw [hlist]; decide) _)
      · split
        · rename_i hreq
          exact handleCapREQ_advances (hreq ▸ hcap) env st
        · split
          · rename_i hend
            exact handleCapEND_advances (hend ▸ hcap) env st
          · rename_i hend
            exact (within_run SameLogins (sendNumeric s _ _) env st).advances (hcap.stay hend _)

/-! ## AUTHENTICATE -/

/-- Session `s` is logged in to the account now; nothing else has changed of the logins. -/
def LogsIn (s : SessionId) (account : Account) (st st' : State) : Prop :=
  ∀ t, (st'.srv.session t).login =
    if t = s then { (st.srv.session s).login with account := account.name }
    else (st.srv.session t).login

theorem logIn_logsIn (s : SessionId) (account : Account) (env : Env) (st : State) :
    LogsIn s account st (logIn s account env st).2 := by
  intro t
  rw [logIn, bind_run, bind_run]
  refine ((within_run SameLogins _ env _).login t).trans ?_
  exact st.srv.login_setSession s (fun u => { u with account := account.name }) t

theorem authenticate_cases (s : SessionId) (encoded : Bytes) (env : Env) (st : State) :
    SameLogins st (authenticate s encoded env st).2 ∨
      ∃ account, Grants env encoded account ∧
        LogsIn s account st (authenticate s encoded env st).2 := by
  simp only [authenticate, bind_run, accounts, world]
  cases hcred : (decodeBase64 encoded).bind plainCredentials with
  | none => exact .inl (within_run SameLogins (sendNumeric s _ _) env st)
  | some credentials =>
    simp only [Option.elim_some, bind_run, checkPassword_result, checkPassword_state]
    cases haccount : env.accounts.lookup (toLower credentials.1) with
    | none =>
      left
      rw [ite_self]
      exact within_run SameLogins (sendNumeric s _ _) env st
    | some account =>
      split
      · rename_i hok
        exact .inr ⟨account, ⟨credentials, hcred, haccount, hok⟩, logIn_logsIn s account env st⟩
      · exact .inl (within_run SameLogins (sendNumeric s _ _) env st)

theorem finish_advances (hsasl : (st.srv.session s).capEnabled .sasl = true)
    (hactive : (st.srv.session s).saslActive = true) (hchunk : msg.Chunk chunk)
    (hlt : chunk.length < 400) (hstar : chunk ≠ lit "*") (env : Env) :
    Advances env s msg st (authenticate s ((st.srv.session s).saslBuffer ++ chunkText chunk) env
      (updateSession s (fun u => { u with saslActive := false, saslBuffer := [] }) env st).2).2 := by
  generalize hst : (updateSession s (fun u => { u with saslActive := false, saslBuffer := [] })
    env st).2 = st₀
  have hreset (t : SessionId) : (st₀.srv.session t).login =
      if t = s then { (st.srv.session s).login with active := false, buffer := [] }
      else (st.srv.session t).login := by
    subst hst
    exact st.srv.login_setSession s (fun u => { u with saslActive := false, saslBuffer := [] }) t
  rcases authenticate_cases s ((st.srv.session s).saslBuffer ++ chunkText chunk) env st₀
    with hsame | ⟨account, hgrants, hlogs⟩
  · subst hst
    exact (updateSession_advances env s _ st .abort).before hsame
  · refine ⟨?_, fun t ht => ?_⟩
    · rw [hlogs s, if_pos rfl, hreset s, if_pos rfl]
      exact .succeed hactive hsasl hchunk hlt hstar hgrants
    · rw [hlogs t, if_neg ht, hreset t, if_neg ht]

theorem handleAuthenticate_active (hsasl : (st.srv.session s).capEnabled .sasl = true)
    (hactive : (st.srv.session s).saslActive = true) (hchunk : msg.params.head? = some chunk)
    (env : Env) :
    handleAuthenticate s msg env st =
      if chunk = lit "*" then
        saslFailure s .ERR_SASLABORTED (lit "SASL authentication aborted") env st
      else if 400 < chunk.length ∨
          maxSASLPayload < (st.srv.session s).saslBuffer.length + chunk.length then
        saslFailure s .ERR_SASLTOOLONG (lit "SASL message too long") env st
      else if chunk.length = 400 then
        updateSession s (fun u =>
          { u with saslBuffer := (st.srv.session s).saslBuffer ++ chunkText chunk }) env st
      else
        authenticate s ((st.srv.session s).saslBuffer ++ chunkText chunk) env
          (updateSession s (fun u => { u with saslActive := false, saslBuffer := [] }) env st).2 := by
  obtain ⟨params, hp⟩ := List.head?_eq_some_iff.1 hchunk
  have hparam : msg.param 0 = chunk := by simp [Message.param, hp]
  have hgo : ¬ (¬ ((server env st).1.session s).capEnabled .sasl = true ∨ msg.params = []) := by
    simp [hsasl, hp]
  have hgo' : ¬ ¬ ((server env st).1.session s).saslActive = true := by simp [hactive]
  simp only [handleAuthenticate, bind_run, ite_run]
  rw [if_neg hgo, if_neg hgo']
  simp only [hparam, append_chunkText]
  rfl

theorem handleAuthenticate_advances (hv : verbOf (toUpper msg.command) = some .AUTHENTICATE)
    (env : Env) (st : State) : Advances env s msg st (handleAuthenticate s msg env st).2 := by
  by_cases hgo : ¬ ((server env st).1.session s).capEnabled .sasl = true ∨ msg.params = []
  · simp only [handleAuthenticate, bind_run, ite_run]
    rw [if_pos hgo]
    exact saslFailure_advances env s _ _ st
  · obtain ⟨hsasl, hp⟩ := not_or.1 hgo
    rw [not_not] at hsasl
    obtain ⟨chunk, params, hp⟩ := exists_cons_of_ne_nil hp
    have hparam : msg.param 0 = chunk := by simp [Message.param, hp]
    have hhead : msg.params.head? = some chunk := by simp [hp]
    by_cases hactive : ((server env st).1.session s).saslActive = true
    · rw [handleAuthenticate_active hsasl hactive hhead]
      split
      · exact saslFailure_advances env s _ _ st
      · rename_i hstar
        split
        · exact saslFailure_advances env s _ _ st
        · rename_i hlong
          rw [not_or, not_lt, not_lt] at hlong
          split
          · rename_i hfull
            exact updateSession_advances env s _ st (.more hactive ⟨hv, hhead⟩ hfull hlong.2)
          · rename_i hshort
            exact finish_advances hsasl hactive ⟨hv, hhead⟩ (lt_of_le_of_ne hlong.1 hshort) hstar env
    · have hinactive : (st.srv.session s).login.active = false := Bool.not_eq_true _ ▸ hactive
      simp only [handleAuthenticate, bind_run, ite_run]
      rw [if_neg hgo, if_pos hactive]
      split
      · exact (within_run SameLogins (sendNumeric s _ _) env st).advances (.refuse hinactive)
      · split
        · exact (saslFailure_advances env s _ _ _).after
            (within_run SameLogins (sendNumeric s _ _) env st)
        · rename_i hplain
          rw [not_not, hparam] at hplain
          exact (updateSession_advances env s _ st (.start ⟨hv, hhead⟩ hplain)).before
            (within_run SameLogins (send s _) env _)

/-! ## Lines -/

variable (s)

theorem dispatch_advances (msg : Message) (env : Env) (st : State) :
    Advances env s msg st (dispatch s msg env st).2 := by
  have hquiet (m : M Unit) [Within SameLogins m] (hcap : verbOf (toUpper msg.command) ≠ some .CAP)
      (hauth : verbOf (toUpper msg.command) ≠ some .AUTHENTICATE) :
      Advances env s msg st (m env st).2 :=
    (within_run SameLogins m env st).advances (.stay hauth fun h => hcap h.1.1)
  generalize hm : dispatch s msg = m
  unfold dispatch at hm
  split at hm <;> subst hm
  case h_1 hv => exact handleCAP_advances hv env st
  case h_2 hv => exact hquiet (handlePass s msg) (by simp [hv]) (by simp [hv])
  case h_3 hv => exact hquiet (handleNick s msg) (by simp [hv]) (by simp [hv])
  case h_4 hv => exact hquiet (handleUser s msg) (by simp [hv]) (by simp [hv])
  case h_5 hv => exact hquiet (handleQuit s msg) (by simp [hv]) (by simp [hv])
  case h_6 hv => exact hquiet (handlePing s msg) (by simp [hv]) (by simp [hv])
  case h_7 hv => exact hquiet (pure ()) (by simp [hv]) (by simp [hv])
  case h_8 hv => exact handleAuthenticate_advances hv env st
  case h_9 hcap hpass hnick huser hquit hping hpong hauth =>
    have hother : Within SameLogins (dispatchOther s msg (toUpper msg.command)) := by
      have := dispatchRegistered_logins s msg hnick
      unfold dispatchOther
      infer_instance
    exact hquiet _ hcap hauth

/-- **A line advances the login of its session by a step of its message.** -/
theorem handleLine_advances (h : lineMessage raw = some msg) (s : SessionId) (env : Env)
    (st : State) : Advances env s msg st (handleLine s raw env st).2 := by
  rcases handleLine_around SameLogins s raw env st with ⟨hnone, -⟩ | ⟨msg', st₁, hline, hbefore, hafter⟩
  · cases hnone.symm.trans h
  · cases hline.symm.trans h
    exact ((dispatch_advances s msg env st₁).after hbefore).before hafter

theorem handleLine_logins (h : lineMessage raw = none) (s : SessionId) (env : Env) (st : State) :
    SameLogins st (handleLine s raw env st).2 := by
  rcases handleLine_around SameLogins s raw env st with ⟨-, hsame⟩ | ⟨msg, st₁, hline, -⟩
  · exact hsame
  · cases hline.symm.trans h

end

end Irc
