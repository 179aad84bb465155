import GoProtocols.Irc.Proof.Emit
import GoProtocols.Irc.Proof.Reach

/-!
# Negotiated capabilities

The set of capabilities that a session has enabled is changed by `CAP LS` and `CAP REQ` only.
`CapsSound` says what it always is: a part of what the session is offered, without `sts`, with `sasl`
only over TLS, and with `cap-notify` from version 302 on. A request is applied as a whole or not at
all (`Answers`).
-/

namespace Irc

open Go Prog

variable (u : Session) {version : Int} {tokens : List Bytes} (s : SessionId) (subArg : Bytes)
  (env : Env) (st : State) (token : Bytes)

/-! ## Tokens -/

def Session.enabled : Set Bytes := {name | u.caps.lookup name = some true}

/-- What one token of a request does to the enabled capabilities. -/
def applyToken (version : Int) (enabled : Set Bytes) (token : Bytes) : Set Bytes :=
  if hasPrefix token (lit "-") then
    if requestName token = Capability.capNotify.name ∧ 302 ≤ version then enabled
    else enabled \ {requestName token}
  else insert token enabled

theorem enabled_of_caps {u u' : Session} (h : u'.caps = u.caps) : u'.enabled = u.enabled := by
  unfold Session.enabled
  rw [h]

theorem enabled_insert (name : Bytes) :
    { u with caps := u.caps.insert name true }.enabled = insert name u.enabled := by
  ext name'
  simp only [Session.enabled, Set.mem_ofPred_eq, Map.lookup_insert_eq, Set.mem_insert_iff]
  split <;> simp [*]

theorem enabled_erase (name : Bytes) :
    { u with caps := u.caps.erase name }.enabled = u.enabled \ {name} := by
  ext name'
  simp only [Session.enabled, Set.mem_ofPred_eq, Map.lookup_erase_eq, Set.mem_sdiff,
    Set.mem_singleton_iff]
  split <;> simp [*]

theorem enabled_applyRequest :
    (applyRequest u token).enabled = applyToken u.capVersion u.enabled token := by
  unfold applyRequest applyToken
  dsimp only
  by_cases hdisable : hasPrefix token (lit "-") = true
  · rw [if_pos hdisable]
    by_cases hkeep : requestName token = Capability.capNotify.name ∧ 302 ≤ u.capVersion
    · rw [if_pos hkeep, if_neg, if_neg (not_not.2 hdisable)]
      rintro ⟨-, hne | hlt⟩
      · exact hne hkeep.1
      · omega
    · have hdrop : requestName token ≠ Capability.capNotify.name ∨ u.capVersion < 302 := by
        rw [not_and_or, not_le] at hkeep
        exact hkeep
      rw [if_neg hkeep, if_pos ⟨hdisable, hdrop⟩, enabled_erase]
  · have hname : requestName token = token := if_neg hdisable
    rw [if_neg fun h => hdisable h.1, if_pos hdisable, if_neg hdisable, hname, enabled_insert]

theorem capVersion_applyRequest : (applyRequest u token).capVersion = u.capVersion := by
  unfold applyRequest
  dsimp only
  repeat' split
  all_goals rfl

theorem enabled_foldl_applyRequest (tokens : List Bytes) :
    (tokens.foldl applyRequest u).enabled =
      tokens.foldl (applyToken u.capVersion) u.enabled := by
  induction tokens generalizing u with
  | nil => rfl
  | cons token tokens ih =>
    rw [List.foldl_cons, ih, enabled_applyRequest, capVersion_applyRequest, List.foldl_cons]

theorem mem_of_mem_applyToken {enabled : Set Bytes} {token name : Bytes}
    (h : name ∈ applyToken version enabled token) : name ∈ enabled ∨ name = requestName token := by
  unfold applyToken at h
  split at h
  · split at h
    · exact .inl h
    · exact .inl h.1
  · rename_i hadd
    have hname : requestName token = token := if_neg hadd
    rw [hname]
    exact h.symm

theorem mem_of_mem_foldl_applyToken {enabled : Set Bytes} {name : Bytes}
    (h : name ∈ tokens.foldl (applyToken version) enabled) :
    name ∈ enabled ∨ ∃ token ∈ tokens, name = requestName token := by
  induction tokens generalizing enabled with
  | nil => exact .inl h
  | cons token tokens ih =>
    rcases ih h with h | ⟨token', ht, h⟩
    · exact (mem_of_mem_applyToken h).imp_right fun h => ⟨token, by simp, h⟩
    · exact .inr ⟨token', by simp [ht], h⟩

theorem capNotify_mem_applyToken {enabled : Set Bytes} (hversion : 302 ≤ version)
    (h : Capability.capNotify.name ∈ enabled) :
    Capability.capNotify.name ∈ applyToken version enabled token := by
  unfold applyToken
  split
  · split
    · exact h
    · rename_i hkeep
      exact ⟨h, fun hname => hkeep ⟨hname.symm, hversion⟩⟩
  · exact Set.mem_insert_of_mem _ h

theorem capNotify_mem_foldl_applyToken {enabled : Set Bytes} (hversion : 302 ≤ version)
    (h : Capability.capNotify.name ∈ enabled) :
    Capability.capNotify.name ∈ tokens.foldl (applyToken version) enabled :=
  List.foldlRecOn (motive := fun e : Set Bytes => Capability.capNotify.name ∈ e) tokens _ h
    fun _ h token _ => capNotify_mem_applyToken token hversion h

/-! ## Specification -/

/-- The session was sent one line, a `CAP` of this kind for the request. -/
def Replied (subCmd req : Bytes) (st st' : State) : Prop :=
  ∃ out : Outbound, out.msg.command = Verb.CAP.name ∧
    out.msg.params = [(st.srv.session s).target, subCmd, req] ∧
    st'.output = Function.update st.output s ((st.output s).deliver out)

theorem Replied.congr {s : SessionId} {subCmd req : Bytes} {st st₁ st' : State}
    (h : Replied s subCmd req st₁ st')
    (houtput : st₁.output = st.output)
    (hnick : (st₁.srv.session s).nick = (st.srv.session s).nick) :
    Replied s subCmd req st st' := by
  obtain ⟨out, hcommand, hparams, hout⟩ := h
  have htarget : (st₁.srv.session s).target = (st.srv.session s).target := by
    unfold Session.target
    rw [hnick]
  exact ⟨out, hcommand, by rw [hparams, htarget], by rw [hout, houtput]⟩

theorem beginNegotiation_output : (beginNegotiation s env st).2.output = st.output := by
  simp only [beginNegotiation, bind_run, when_run]
  split <;> rfl

theorem beginNegotiation_nick :
    ((beginNegotiation s env st).2.srv.session s).nick = (st.srv.session s).nick := by
  simp only [beginNegotiation, bind_run, when_run]
  split
  · simp [updateSession, updateServer, Server.setSession]
  · rfl

section
variable [UnicodeTables] {env : Env} {st} {s}

structure CapsSound (env : Env) (u : Session) : Prop where
  offered : ∀ name ∈ u.enabled, name ∈ supportedCaps env.cfg env.accounts u
  no_sts : Capability.sts.name ∉ u.enabled
  sasl : Capability.sasl.name ∈ u.enabled → u.secure = true ∧ env.accounts.entries ≠ []
  capNotify : 302 ≤ u.capVersion → Capability.capNotify.name ∈ u.enabled

/-- A token that can be asked for. -/
def Requestable (env : Env) (u : Session) (token : Bytes) : Prop :=
  requestName token ∈ supportedCaps env.cfg env.accounts u ∧
    requestName token ≠ Capability.sts.name

/-- The request was refused, and nothing is enabled or disabled; or it was accepted, and its tokens
are applied from left to right. -/
def Answers (env : Env) (s : SessionId) (req : Bytes) (st st' : State) : Prop :=
  (∃ token ∈ fields req, ¬ Requestable env (st.srv.session s) token) ∧
      Replied s (lit "NAK") req st st' ∧
      (∀ t, (st'.srv.session t).enabled = (st.srv.session t).enabled) ∨
    (∀ token ∈ fields req, Requestable env (st.srv.session s) token) ∧
      Replied s (lit "ACK") req st st' ∧
      (st'.srv.session s).enabled =
        (fields req).foldl (applyToken (st.srv.session s).capVersion) (st.srv.session s).enabled ∧
      ∀ t ≠ s, (st'.srv.session t).enabled = (st.srv.session t).enabled

/-! ## What is offered -/

/-- What a session may enable: what every session is offered, and `sasl` over TLS. -/
def Grantable (env : Env) (secure : Bool) (name : Bytes) : Prop :=
  name ∈ baseCaps.map Capability.name ∨
    name = Capability.sasl.name ∧ secure = true ∧ env.accounts.entries ≠ []

theorem mem_supportedCaps {u : Session} {name : Bytes} (hsts : name ≠ Capability.sts.name) :
    name ∈ supportedCaps env.cfg env.accounts u ↔ Grantable env u.secure name := by
  have hbase : name ∈ Map.ofList (baseCaps.map fun c => (c.name, ([] : Bytes))) ↔
      name ∈ baseCaps.map Capability.name := by
    rw [Map.ofList, Map.mem_insertAll, List.map_map]
    exact or_iff_right (AList.notMem_empty _)
  have hsasl : name ∈ (if u.secure = true ∧ env.accounts.entries ≠ [] then
      (Map.ofList (baseCaps.map fun c => (c.name, ([] : Bytes)))).insert Capability.sasl.name
        (lit "PLAIN")
      else Map.ofList (baseCaps.map fun c => (c.name, []))) ↔ Grantable env u.secure name := by
    split
    · rename_i hc
      rw [AList.mem_insert, hbase, Grantable, or_comm]
      exact or_congr_right (and_iff_left hc).symm
    · rename_i hc
      rw [hbase, Grantable]
      exact (or_iff_left fun h => hc h.2).symm
  unfold supportedCaps
  dsimp only
  split
  · rw [AList.mem_insert, or_iff_right hsts, hsasl]
  · exact hsasl

theorem capsSound_iff {u : Session} :
    CapsSound env u ↔ (∀ name ∈ u.enabled, Grantable env u.secure name) ∧
      (302 ≤ u.capVersion → Capability.capNotify.name ∈ u.enabled) := by
  constructor
  · intro h
    refine ⟨fun name hname => ?_, h.capNotify⟩
    exact (mem_supportedCaps fun hsts => h.no_sts (hsts ▸ hname)).1 (h.offered name hname)
  · rintro ⟨h, hnotify⟩
    have hsts : Capability.sts.name ∉ u.enabled := fun hmem => by
      rcases h _ hmem with hbase | ⟨hsasl, -⟩
      · exact absurd hbase (by decide)
      · exact absurd hsasl (by decide)
    refine ⟨fun name hname => ?_, hsts, fun hmem => ?_, hnotify⟩
    · exact (mem_supportedCaps fun he => hsts (he ▸ hname)).2 (h name hname)
    · rcases h _ hmem with hbase | ⟨-, hsecure⟩
      · exact absurd hbase (by decide)
      · exact hsecure

/-! ## Sessions -/

theorem Session.Steady.capsSound {p : Scope} {u u' : Session} (h : u.Steady p u')
    (hp : p.negotiates = false) (hu : CapsSound env u) : CapsSound env u' := by
  rw [capsSound_iff] at hu ⊢
  rwa [enabled_of_caps (h.caps hp).1, (h.caps hp).2, h.secure]

theorem CapsSound.announce {u : Session} (h : CapsSound env u) (version : Int) :
    CapsSound env
      { u with capVersion := version, caps := u.caps.insert Capability.capNotify.name true } := by
  have henabled : ({ u with
      capVersion := version, caps := u.caps.insert Capability.capNotify.name true } :
        Session).enabled = insert Capability.capNotify.name u.enabled := enabled_insert u _
  rw [capsSound_iff] at h ⊢
  rw [henabled]
  refine ⟨?_, fun _ => Set.mem_insert _ _⟩
  rintro name (rfl | hname)
  · exact .inl (by decide)
  · exact h.1 name hname

theorem CapsSound.request {u : Session} (h : CapsSound env u)
    (htokens : ∀ token ∈ tokens, Requestable env u token) :
    CapsSound env { u with caps := (tokens.foldl applyRequest u).caps } := by
  have henabled : { u with caps := (tokens.foldl applyRequest u).caps }.enabled =
      tokens.foldl (applyToken u.capVersion) u.enabled := enabled_foldl_applyRequest u tokens
  rw [capsSound_iff] at h ⊢
  rw [henabled]
  refine ⟨fun name hname => ?_, fun hversion => ?_⟩
  · rcases mem_of_mem_foldl_applyToken hname with hname | ⟨token, ht, rfl⟩
    · exact h.1 name hname
    · exact (mem_supportedCaps (htokens token ht).2).1 (htokens token ht).1
  · exact capNotify_mem_foldl_applyToken hversion (h.2 hversion)

/-! ## Commands -/

def Server.CapsSound (env : Env) (srv : Server) : Prop := ∀ t, Irc.CapsSound env (srv.session t)

theorem Steady.capsSound {p : Scope} {st st' : State} (h : Steady p st st')
    (hp : p.negotiates = false) (hst : st.srv.CapsSound env) : st'.srv.CapsSound env :=
  fun t => (h.srv.session t).capsSound hp (hst t)

theorem updateSession_capsSound (h : st.srv.CapsSound env) {f : Session → Session}
    (hf : CapsSound env (f (st.srv.session s))) :
    (updateSession s f env st).2.srv.CapsSound env :=
  (Function.forall_update_iff st.srv.session fun _ u => Irc.CapsSound env u).2 ⟨hf, fun t _ => h t⟩

variable {s : SessionId} {st : State}

theorem handleCapLS_capsSound (h : st.srv.CapsSound env) :
    (handleCapLS s subArg env st).2.srv.CapsSound env := by
  have hbegin := (within_run (Steady { enrolls := true }) (beginNegotiation s) env st).capsSound rfl h
  simp only [handleCapLS, bind_run]
  refine (within_run (Steady {}) (sendCapLS s) env _).capsSound rfl ?_
  cases (atoi subArg).toOption with
  | none => exact hbegin
  | some version =>
    rw [Option.elim_some, when_run]
    split
    · exact updateSession_capsSound hbegin ((hbegin s).announce version)
    · exact hbegin

theorem handleCapREQ_run (s : SessionId) (subArg : Bytes) (env : Env) (st : State) :
    (∃ token ∈ fields (trimPrefix subArg (lit ":")), ¬ Requestable env (st.srv.session s) token) ∧
        (handleCapREQ s subArg env st).2 =
          (sendCAP s (lit "NAK") (trimPrefix subArg (lit ":")) env
            (beginNegotiation s env st).2).2 ∨
      (∀ token ∈ fields (trimPrefix subArg (lit ":")), Requestable env (st.srv.session s) token) ∧
        (handleCapREQ s subArg env st).2 =
          (sendCAP s (lit "ACK") (trimPrefix subArg (lit ":")) env (updateSession s (fun u =>
            { u with caps := ((fields (trimPrefix subArg (lit ":"))).foldl applyRequest u).caps })
              env (beginNegotiation s env st).2).2).2 := by
  have hany : ((fields (trimPrefix subArg (lit ":"))).any fun cap =>
      ((supportedCaps env.cfg env.accounts (st.srv.session s)).lookup (requestName cap)).isNone ||
        requestName cap = Capability.sts.name) = true ↔
      ∃ token ∈ fields (trimPrefix subArg (lit ":")),
        ¬ Requestable env (st.srv.session s) token := by
    rw [List.any_eq_true]
    refine exists_congr fun token => and_congr_right fun _ => ?_
    rw [Bool.or_eq_true, decide_eq_true_iff, Requestable, not_and_or, not_not,
      ← AList.lookup_isSome, Option.isNone_iff_eq_none, Option.not_isSome_iff_eq_none]
  simp only [handleCapREQ, bind_run, ite_run]
  split
  · rename_i h
    exact .inl ⟨hany.1 h, rfl⟩
  · rename_i h
    exact .inr ⟨by simpa using mt hany.2 h, rfl⟩

theorem handleCapREQ_capsSound (h : st.srv.CapsSound env) :
    (handleCapREQ s subArg env st).2.srv.CapsSound env := by
  have hsteady := within_run (Steady { enrolls := true }) (beginNegotiation s) env st
  have hbegin := hsteady.capsSound rfl h
  rcases handleCapREQ_run s subArg env st with ⟨-, hrun⟩ | ⟨htokens, hrun⟩
  · rw [hrun]
    exact (within_run (Steady {}) (sendCAP s _ _) env _).capsSound rfl hbegin
  · rw [hrun]
    refine (within_run (Steady {}) (sendCAP s _ _) env _).capsSound rfl ?_
    refine updateSession_capsSound hbegin ((hbegin s).request fun token ht => ?_)
    -- what is offered has not changed since it was read
    obtain ⟨hmem, hsts⟩ := htokens token ht
    refine ⟨?_, hsts⟩
    rw [mem_supportedCaps hsts] at hmem ⊢
    rwa [(hsteady.srv.session s).secure]

theorem handleCAP_capsSound (msg : Message) (h : st.srv.CapsSound env) :
    (handleCAP s msg env st).2.srv.CapsSound env := by
  have hsteady (m : M Unit) [Script { enrolls := true, logs := true } m] :
      (m env st).2.srv.CapsSound env :=
    (within_run (Steady { enrolls := true, logs := true }) m env st).capsSound rfl h
  simp only [handleCAP, ite_run]
  repeat' split
  · exact hsteady (sendNumeric s _ _)
  · exact handleCapLS_capsSound _ h
  · exact hsteady (handleCapLIST s)
  · exact handleCapREQ_capsSound _ h
  · exact hsteady (handleCapEND s)
  · exact hsteady (sendNumeric s _ _)

theorem dispatch_capsSound (msg : Message) (h : st.srv.CapsSound env) :
    (dispatch s msg env st).2.srv.CapsSound env := by
  by_cases hcap : verbOf (toUpper msg.command) = some .CAP
  · have hrun : dispatch s msg = handleCAP s msg := by
      unfold dispatch
      rw [hcap]
    rw [hrun]
    exact handleCAP_capsSound msg h
  · have hscope : msg.scope.negotiates = false := by simp [Message.scope, hcap]
    exact ((script_dispatch s msg).within.run env st).capsSound hscope h

/-! ## Runs -/

theorem capsSound_of_fresh {u : Session} (hcaps : u.caps = ∅) (hversion : u.capVersion = 0) :
    CapsSound env u := by
  refine capsSound_iff.2 ⟨fun name hname => ?_, fun h => ?_⟩
  · rw [Session.enabled, hcaps] at hname
    exact absurd hname (by simp)
  · rw [hversion] at h
    exact absurd h (by decide)

theorem connect_capsSound (addr : Bytes) (secure : Bool) (serverName : Bytes)
    (h : st.srv.CapsSound env) : (connect addr secure serverName env st).2.srv.CapsSound env := by
  simp only [connect, bind_run, ite_run]
  split
  · exact h
  · intro t
    simp only [updateServer, Function.update_apply]
    split
    · exact capsSound_of_fresh rfl rfl
    · exact h t

theorem exec_capsSound (e : Event) (h : st.srv.CapsSound env) :
    (e.exec env st).2.srv.CapsSound env := by
  cases e with
  | connect addr secure serverName => exact connect_capsSound addr secure serverName h
  | line s raw =>
    exact handleLine_keeps (P := fun st => st.srv.CapsSound env)
      (fun st st' hsteady => hsteady.capsSound rfl)
      (fun msg st _ => dispatch_capsSound msg) h
  | disconnect s => exact (steady_disconnect s env st).capsSound rfl h

/-- **The capabilities of every session are in order in every run.** -/
theorem after_capsSound (es : List Event) : ((ircd env).after es).srv.CapsSound env := by
  induction es using List.reverseRecOn with
  | nil => exact fun _ => capsSound_of_fresh rfl rfl
  | append_singleton es e ih =>
    rw [System.after_concat]
    exact exec_capsSound e ih

/-! ## Requests -/

theorem sendCAP_replied (subCmd req : Bytes) (env : Env) (st : State) :
    Replied s subCmd req st (sendCAP s subCmd req env st).2 := by
  have h : Emits s [capMessage env.cfg.name (st.srv.session s).target subCmd [req]] st
      (sendCAP s subCmd req env st).2 := emits_sendServer (by decide) _
  obtain ⟨outs, houts, -, houtput⟩ := h
  cases houts with
  | cons hout hrest =>
    cases hrest
    rename_i out
    obtain ⟨tags, hmsg⟩ := hout.eq
    exact ⟨out, by rw [hmsg]; rfl, by rw [hmsg]; rfl, houtput⟩

/-- **A request is answered once, and applied as a whole or not at all.** -/
theorem handleCapREQ_answers (s : SessionId) (subArg : Bytes) (env : Env) (st : State) :
    Answers env s (trimPrefix subArg (lit ":")) st (handleCapREQ s subArg env st).2 := by
  have hsteady := within_run (Steady { enrolls := true }) (beginNegotiation s) env st
  have hbegin (t : SessionId) := enabled_of_caps ((hsteady.srv.session t).caps rfl).1
  have houtput := beginNegotiation_output s env st
  have hnick := beginNegotiation_nick s env st
  have hversion := ((hsteady.srv.session s).caps rfl).2
  rcases handleCapREQ_run s subArg env st with ⟨htoken, hrun⟩ | ⟨htokens, hrun⟩
  · rw [hrun]
    have hsend := within_run (Steady {}) (sendCAP s (lit "NAK") (trimPrefix subArg (lit ":"))) env
      (beginNegotiation s env st).2
    refine .inl ⟨htoken, (sendCAP_replied _ _ env _).congr houtput hnick, fun t => ?_⟩
    exact (enabled_of_caps ((hsend.srv.session t).caps rfl).1).trans (hbegin t)
  · rw [hrun]
    generalize hset : updateSession s (fun u =>
      { u with caps := ((fields (trimPrefix subArg (lit ":"))).foldl applyRequest u).caps }) env
        (beginNegotiation s env st).2 = r
    have hself : r.2.srv.session s = { (beginNegotiation s env st).2.srv.session s with
        caps := ((fields (trimPrefix subArg (lit ":"))).foldl applyRequest
          ((beginNegotiation s env st).2.srv.session s)).caps } := by
      rw [← hset]
      simp [updateSession, updateServer, Server.setSession]
    have hother (t : SessionId) (ht : t ≠ s) :
        r.2.srv.session t = (beginNegotiation s env st).2.srv.session t := by
      rw [← hset]
      simp [updateSession, updateServer, Server.setSession, ht]
    have houtput' : r.2.output = st.output := by
      rw [← hset]
      exact houtput
    have hsend := within_run (Steady {}) (sendCAP s (lit "ACK") (trimPrefix subArg (lit ":"))) env
      r.2
    have hsend (t : SessionId) := enabled_of_caps ((hsend.srv.session t).caps rfl).1
    refine .inr ⟨htokens, (sendCAP_replied _ _ env _).congr houtput' ?_, ?_, fun t ht => ?_⟩
    · rw [hself]
      exact hnick
    · rw [hsend, hself, ← hbegin s, ← hversion]
      exact enabled_foldl_applyRequest _ _
    · rw [hsend, hother t ht, hbegin]

/-- **Capabilities are negotiated soundly and atomically.** In every run the enabled capabilities of
every session are in order, and every request is answered as a whole. -/
theorem caps_negotiated (env : Env) :
    (∀ es s, CapsSound env (((ircd env).after es).srv.session s)) ∧
      ∀ (st : State) (s : SessionId) (msg : Message), verbOf (toUpper msg.command) = some .CAP →
        toUpper (msg.param 0) = lit "REQ" →
        Answers env s (trimPrefix (msg.param 1) (lit ":")) st (dispatch s msg env st).2 := by
  refine ⟨after_capsSound, fun st s msg hcap hreq => ?_⟩
  have hparams : msg.params ≠ [] := by
    intro hnil
    rw [Message.param, hnil] at hreq
    exact absurd (show ([] : Bytes) = lit "REQ" from hreq) (by decide)
  have hdispatch : dispatch s msg = handleCapREQ s (msg.param 1) := by
    unfold dispatch
    rw [hcap]
    simp only [handleCAP]
    rw [if_neg hparams, hreq, if_neg (by decide), if_neg (by decide), if_pos rfl]
  rw [hdispatch]
  exact handleCapREQ_answers s (msg.param 1) env st

end

section
attribute [local instance] asciiTables

def asksCaps : List Event :=
  [.connect (lit "192.0.2.1:50000") false [], .line 0 (lit "CAP LS 302")]

/-- It tries to switch `cap-notify` off. -/
def disablesCapNotify : Message :=
  { command := lit "CAP", params := [lit "REQ", lit "-cap-notify batch"] }

theorem caps_negotiated_disablesCapNotify :
    let env := Config.still {}
    let st := (ircd env).after asksCaps
    verbOf (toUpper disablesCapNotify.command) = some .CAP ∧
      toUpper (disablesCapNotify.param 0) = lit "REQ" ∧
      (st.srv.session 0).capVersion = 302 ∧ CapsSound env (st.srv.session 0) ∧
      Answers env 0 (trimPrefix (disablesCapNotify.param 1) (lit ":")) st
        (dispatch 0 disablesCapNotify env st).2 := by
  have hcap : verbOf (toUpper disablesCapNotify.command) = some .CAP := by decide +kernel
  have hreq : toUpper (disablesCapNotify.param 0) = lit "REQ" := by decide +kernel
  obtain ⟨hsound, hanswers⟩ := caps_negotiated (Config.still {})
  exact ⟨hcap, hreq, by decide +kernel, hsound asksCaps 0, hanswers _ 0 disablesCapNotify hcap hreq⟩

end

end Irc
