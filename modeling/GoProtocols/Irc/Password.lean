import GoProtocols.Irc.Proof.Reach

/-!
# The server password, over whole runs

`Config.Password` is the global server password, and `handlePass` leaves its validation to the
completion of the registration. But the password is checked nowhere: `handlePass` does not look at
it, and `tryRegister` does not ask for it. So only those who sent it are registered and welcomed in
a run exactly if every client that completes the handshake happens to have sent it before
(`AsksPassword`).
-/

namespace Irc

open Go System

section
variable [UnicodeTables] (password : Bytes) (es : List Event) (st : State) (s : SessionId)
  (cfg : Config) (world : World)

/-- The event is a `PASS` of session `s` with the password. -/
def Event.SendsPass : Event → Prop
  | .line t raw => t = s ∧ ∃ msg ∈ lineMessage raw,
      verbOf (toUpper msg.command) = some .PASS ∧ msg.params.head? = some password
  | .connect _ _ _ | .disconnect _ => False

instance : (e : Event) → Decidable (e.SendsPass password s)
  | .line _ _ => inferInstanceAs (Decidable (_ ∧ ∃ _ ∈ _, _))
  | .connect _ _ _ | .disconnect _ => inferInstanceAs (Decidable False)

/-- Session `s` has sent the password. -/
def SentPass : Prop :=
  ∃ e ∈ es, e.SendsPass password s

instance : Decidable (SentPass password es s) :=
  inferInstanceAs (Decidable (∃ _ ∈ _, _))

def PasswordEnforced : Prop :=
  ∀ s, (st.srv.session s).state = .registered ∨ st.Welcomed s → SentPass password es s

/-- If the event completes a handshake, the session has sent the password. -/
def AsksPassword : Event → Prop
  | .line s raw => ∀ msg ∈ lineMessage raw, st.srv.users.Completes s msg → SentPass password es s
  | .connect _ _ _ | .disconnect _ => True

instance : (e : Event) → Decidable (AsksPassword password es st e)
  | .line _ _ => inferInstanceAs (Decidable (∀ _ ∈ _, _))
  | .connect _ _ _ | .disconnect _ => inferInstanceAs (Decidable True)

variable {password : Bytes} {es : List Event} {s : SessionId}

theorem SentPass.concat (h : SentPass password es s) (e : Event) :
    SentPass password (es ++ [e]) s := by
  obtain ⟨e', he', hs⟩ := h
  exact ⟨e', List.mem_append_left _ he', hs⟩

theorem sentPass_of_concat {e : Event} (h : SentPass password (es ++ [e]) s)
    (he : ¬ e.SendsPass password s) : SentPass password es s := by
  obtain ⟨e', he', hs⟩ := h
  rcases List.mem_append.1 he' with he' | he'
  · exact ⟨e', he', hs⟩
  · obtain rfl := List.mem_singleton.1 he'
    exact absurd hs he

theorem verb_ne_pass_of_completes {us : Users} {msg : Message} (h : us.Completes s msg) :
    verbOf (toUpper msg.command) ≠ some .PASS := by
  intro hv
  simp [Users.Completes, hv] at h

/-- **Registered and welcomed are only those who sent the password, exactly in the runs in which
everyone who completes the handshake has sent it.** -/
theorem passwordEnforced_throughout_iff (hv : (ircd (newServer cfg world)).Valid es) :
    (ircd (newServer cfg world)).Throughout (PasswordEnforced cfg.password) es ↔
      (ircd (newServer cfg world)).Each (AsksPassword cfg.password) es := by
  refine (ircd (newServer cfg world)).throughout_iff (I := fun es st => Base st ∧
    ∀ s, (st.srv.users.ident s).state = .registered → SentPass cfg.password es s) ?_ ?_ ?_ ?_ hv
  · exact ⟨Base.init, fun s hs => by cases hs⟩
  · rintro es st ⟨hb, h⟩ s (hs | hs)
    · exact h s hs
    · exact h s (hb.welcomed s hs)
  · rintro es e ⟨hb, h⟩ hen hgood
    refine ⟨hb.step hen _, fun t ht => SentPass.concat ?_ e⟩
    rcases (users_step hen _).registered_or ht with ht | ⟨raw, msg, rfl, hmsg, hc⟩
    · exact h t ht
    · exact hgood msg hmsg hc
  · rintro es e - hen hP
    cases e with
    | connect | disconnect => trivial
    | line s raw =>
      intro msg hmsg hc
      have hreg := Users.registered_of_completes hc
      rw [← (handleLine_effect hmsg s (newServer cfg world) _).users] at hreg
      refine sentPass_of_concat (hP s (.inl hreg)) ?_
      rintro ⟨-, msg', hmsg', hv, -⟩
      obtain rfl : msg = msg' := Option.some.inj (hmsg.symm.trans hmsg')
      exact verb_ne_pass_of_completes hc hv

end

section
attribute [local instance] asciiTables

/-- A client sends a password and registers. -/
def withPass (password : Bytes) : List Event :=
  [.connect (lit "192.0.2.1:50000") false [], .line 0 (lit "PASS " ++ password),
    .line 0 (lit "NICK alice"), .line 0 (lit "USER user 0 * :A user")]

theorem passwordEnforced_throughout_iff_secret :
    (ircd (newServer { password := lit "secret" } .still)).Throughout
      (PasswordEnforced (lit "secret")) (withPass (lit "secret")) :=
  (passwordEnforced_throughout_iff { password := lit "secret" } .still (by decide +kernel)).2
    (by decide +kernel)

/-- A client with the wrong password is registered and welcomed. -/
theorem not_passwordEnforced_wrong :
    let server := ircd (newServer { password := lit "secret" } .still)
    server.Valid (withPass (lit "guess")) ∧
      (server.after (withPass (lit "guess"))).Welcomed 0 ∧
      ¬ PasswordEnforced (lit "secret") (withPass (lit "guess"))
        (server.after (withPass (lit "guess"))) := by
  refine ⟨by decide +kernel, by decide +kernel, fun h => ?_⟩
  have hsent := h 0 (.inl (by decide +kernel))
  revert hsent
  decide +kernel

end

end Irc
