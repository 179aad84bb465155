import GoProtocols.Irc.Proof.Authenticate
import GoProtocols.Irc.Proof.Reach

/-!
# Accounts, over whole runs

A session has an account only if it came over TLS, was granted `sasl`, and sent an exchange of the
mechanism `PLAIN` with the password of the account (`account_safe`), whatever else it and others
sent in between. What an exchange has brought stays below the limit, and nothing is kept of one that
has ended.
-/

namespace Irc

open Go Prog System List

section
variable [UnicodeTables] (cfg : Config) (world : World) {es : List Event} {s : SessionId}
  {e : Event}

/-! ## What a session has sent -/

/-- The messages of session `s`. -/
def sent (s : SessionId) (es : List Event) : List Message :=
  es.filterMap fun
    | .line t raw => if t = s then lineMessage raw else none
    | .connect _ _ _ | .disconnect _ => none

/-- Session `s` has asked for `sasl`, and had it after that. -/
def Negotiated (env : Env) (es : List Event) (s : SessionId) : Prop :=
  ∃ es' raw msg, es' ++ [.line s raw] <+: es ∧ lineMessage raw = some msg ∧ msg.RequestsSasl ∧
    (((ircd env).after (es' ++ [.line s raw])).srv.session s).capEnabled .sasl = true

theorem Negotiated.concat {env : Env} (h : Negotiated env es s) (e : Event) :
    Negotiated env (es ++ [e]) s := by
  obtain ⟨es', raw, msg, hpre, h⟩ := h
  exact ⟨es', raw, msg, hpre.trans (prefix_append _ _), h⟩

/-- The payload names an account and brings its password: `authzid NUL authcid NUL password`. -/
def Authorizes (payload name : Bytes) : Prop :=
  ∃ authzid authcid password, payload = authzid ++ 0 :: (authcid ++ 0 :: password) ∧
    (0 ∉ authzid ∧ 0 ∉ authcid ∧ 0 ∉ password) ∧
    (authzid = [] ∨ equalFold authzid authcid = true) ∧
    ∃ key account, ⟨key, account⟩ ∈ cfg.accounts.entries ∧ toLower key = toLower authcid ∧
      world.bcryptCheck account.passwordHash password = true ∧
      name = if account.name = [] then key else account.name

/-! ## Accounts of the configuration -/

theorem lookup_accountTable {accounts : Map Bytes Account} {k : Bytes} {a : Account}
    (h : (accountTable accounts).lookup k = some a) :
    ∃ e ∈ accounts.entries, toLower e.1 = k ∧
      a = if e.2.name = [] then { e.2 with name := e.1 } else e.2 := by
  unfold accountTable at h
  suffices haux : ∀ (es : List (Sigma fun _ : Bytes => Account)) (m : Map Bytes Account),
      (es.foldl (fun m e => m.insert (toLower e.1)
        (if e.2.name = [] then { e.2 with name := e.1 } else e.2)) m).lookup k = some a →
      m.lookup k = some a ∨ ∃ e ∈ es, toLower e.1 = k ∧
        a = if e.2.name = [] then { e.2 with name := e.1 } else e.2 by
    exact (haux _ _ h).resolve_left (by simp)
  intro es
  induction es with
  | nil => exact fun m h => .inl h
  | cons e es ih =>
    intro m h
    rcases ih _ h with h | ⟨e', he', h⟩
    · rw [Map.lookup_insert_eq] at h
      split at h
      · rename_i hk
        exact .inr ⟨e, mem_cons_self .., hk.symm, (Option.some.inj h).symm⟩
      · exact .inl h
    · exact .inr ⟨e', mem_cons_of_mem _ he', h⟩

theorem plainCredentials_eq_some {payload authcid password : Bytes}
    (h : plainCredentials payload = some (authcid, password)) :
    ∃ authzid, payload = authzid ++ 0 :: (authcid ++ 0 :: password) ∧
      (0 ∉ authzid ∧ 0 ∉ authcid ∧ 0 ∉ password) ∧
      (authzid = [] ∨ equalFold authzid authcid = true) := by
  unfold plainCredentials at h
  split at h
  · rename_i authzid authcid' password' hsplit
    split at h
    · cases h
    · rename_i hgood
      cases Option.some.inj h
      have hjoin : join (split payload 0) [0] = payload := intercalate_splitOn 0
      rw [hsplit] at hjoin
      have hnul (part : Bytes) (hp : part ∈ split payload 0) := sep_notMem_of_mem_split hp
      rw [hsplit] at hnul
      refine ⟨authzid, ?_, ⟨hnul _ (by simp), hnul _ (by simp), hnul _ (by simp)⟩, ?_⟩
      · rw [← hjoin]
        simp [join, List.intercalate]
      · by_contra hne
        rw [not_or] at hne
        exact hgood (.inr (.inr hne))
  · cases h

theorem Grants.authorizes {cfg : Config} {world : World} {encoded : Bytes} {account : Account}
    (h : Grants (newServer cfg world) encoded account) :
    ∃ payload, decodeBase64 encoded = some payload ∧
      Authorizes cfg world payload account.name := by
  obtain ⟨⟨authcid, password⟩, hcred, haccount, hok⟩ := h
  obtain ⟨payload, hdecode, hplain⟩ := Option.bind_eq_some_iff.1 hcred
  obtain ⟨authzid, hpayload, hnul, hauthz⟩ := plainCredentials_eq_some hplain
  obtain ⟨⟨key, a⟩, he, hkey, rfl⟩ := lookup_accountTable haccount
  refine ⟨payload, hdecode, authzid, authcid, password, hpayload, hnul, hauthz, key, a, he, hkey, ?_, ?_⟩
  · dsimp only at hok
    split at hok <;> exact hok
  · dsimp only
    split <;> rfl

/-! ## Runs -/

theorem sent_concat_line {raw : Bytes} {msg : Message} (h : lineMessage raw = some msg)
    (es : List Event) : sent s (es ++ [.line s raw]) = sent s es ++ [msg] := by
  simp [sent, h]

theorem sent_concat_other (h : ∀ raw msg, e = .line s raw → lineMessage raw ≠ some msg)
    (es : List Event) : sent s (es ++ [e]) = sent s es := by
  cases e with
  | connect | disconnect => simp [sent]
  | line t raw =>
    by_cases hts : t = s
    · subst hts
      have hnone : lineMessage raw = none :=
        Option.eq_none_iff_forall_ne_some.2 fun msg => h raw msg rfl
      simp [sent, hnone]
    · simp [sent, hts]

def LoginsSound (env : Env) (es : List Event) (st : State) : Prop :=
  ∀ s, (st.srv.session s).login.Sound env (Negotiated env es s) (sent s es)

theorem LoginsSound.step {env : Env} {es : List Event} {e : Event}
    (h : LoginsSound env es ((ircd env).after es)) :
    LoginsSound env (es ++ [e]) ((ircd env).step ((ircd env).after es) e) := by
  intro s
  -- a login that is as it was, after an event that is no message of the session
  have hsame (he : ∀ raw msg, e = .line s raw → lineMessage raw ≠ some msg) {l : Login}
      (hl : l = (((ircd env).after es).srv.session s).login) :
      l.Sound env (Negotiated env (es ++ [e]) s) (sent s (es ++ [e])) := by
    rw [hl, sent_concat_other he]
    exact (h s).mono fun hn => hn.concat e
  cases e with
  | connect addr secure serverName =>
    rcases connect_login addr secure serverName env ((ircd env).after es) s with hl | hl
    · exact hsame (by simp) hl
    · exact hl.symm ▸ .init secure
  | disconnect t => exact hsame (by simp) ((within_run SameLogins (disconnect t) env _).login s)
  | line t raw =>
    cases hmsg : lineMessage raw with
    | none =>
      refine hsame (fun raw' msg he => ?_) ((handleLine_logins hmsg t env _).login s)
      obtain ⟨-, rfl⟩ := Event.line.inj he
      simp [hmsg]
    | some msg =>
      have hadv := handleLine_advances hmsg t env ((ircd env).after es)
      by_cases hst : s = t
      · subst hst
        rw [sent_concat_line hmsg]
        refine (h s).step hadv.sender (fun hn => hn.concat _) fun hreq hl => ?_
        refine ⟨es, raw, msg, prefix_rfl, hmsg, hreq, ?_⟩
        rw [after_concat]
        exact hl
      · refine hsame (fun raw' msg' he => ?_) (hadv.others s hst)
        exact absurd (Event.line.inj he).1.symm hst

/-- **An account takes TLS, `sasl` and an exchange with the password of the account.** -/
theorem account_safe (hv : (ircd (newServer cfg world)).Valid es) (s : SessionId) :
    let u := ((ircd (newServer cfg world)).after es).srv.session s
    (u.account ≠ [] → u.secure = true ∧ Negotiated (newServer cfg world) es s ∧
      ∃ encoded payload, Completed (sent s es) encoded ∧ decodeBase64 encoded = some payload ∧
        Authorizes cfg world payload u.account) ∧
    u.saslBuffer.length ≤ 4096 ∧ (u.saslActive = false → u.saslBuffer = []) := by
  intro u
  have hsound : LoginsSound (newServer cfg world) es ((ircd (newServer cfg world)).after es) :=
    (ircd (newServer cfg world)).invariant (fun _ => .init false) (fun _ _ h _ _ => h.step) hv
      (show (ircd (newServer cfg world)).Each (fun _ _ _ => True) es from fun _ _ _ => trivial)
  refine ⟨fun ha => ?_, (hsound s).bound, (hsound s).idle⟩
  obtain ⟨⟨hsec, hneg⟩, encoded, account, hcomp, hgrants, hname⟩ := (hsound s).account ha
  obtain ⟨payload, hdecode, hauth⟩ := hgrants.authorizes
  rw [← hname] at hauth
  exact ⟨hsec, hneg, encoded, payload, hcomp, hdecode, hauth⟩

end

section
attribute [local instance] asciiTables

def withAccount : Config :=
  { accounts := Map.ofList [(lit "alice", { passwordHash := lit "pw" })] }

/-- A client logs in over TLS. -/
def logsIn : List Event :=
  [.connect (lit "192.0.2.1:50000") true [], .line 0 (lit "CAP REQ sasl"),
    .line 0 (lit "AUTHENTICATE PLAIN"), .line 0 (lit "AUTHENTICATE AGFsaWNlAHB3")]

theorem account_safe_logsIn :
    let u := ((ircd (newServer withAccount .still)).after logsIn).srv.session 0
    u.account = lit "alice" ∧ u.secure = true ∧
      ∃ encoded payload, Completed (sent 0 logsIn) encoded ∧ decodeBase64 encoded = some payload ∧
        Authorizes withAccount .still payload u.account := by
  have haccount : (((ircd (newServer withAccount .still)).after logsIn).srv.session 0).account =
      lit "alice" := by
    decide +kernel
  have hvalid : (ircd (newServer withAccount .still)).Valid logsIn := by decide +kernel
  have hsafe := (account_safe withAccount .still hvalid 0).1
    (by rw [haccount]; decide)
  exact ⟨haccount, hsafe.1, hsafe.2.2⟩

end

end Irc
