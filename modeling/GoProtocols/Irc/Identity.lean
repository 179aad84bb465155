import GoProtocols.Irc.Proof.Reach
import GoProtocols.Irc.Proof.Spelling
import GoProtocols.Irc.Proof.Users

/-!
# Who speaks, over whole runs

Messages of a user begin with its prefix, `nick!user@host`. A nick has neither `!` nor `@`
(`isValidNick`), but a user name is only cut to ten bytes (`cleanUsername`): with an `@` in it, what
follows is read as the host. So the prefix of a registered session is read as its identity, all
through a run, exactly if the session registers with a user name without `@`.
-/

namespace Irc

open Go System

def Session.Identified (u : Session) : Prop :=
  parsePrefix u.source.string = { nick := u.nick, user := u.user, host := u.host }

instance (u : Session) : Decidable u.Identified := inferInstanceAs (Decidable (_ = _))

/-- **The prefix is read as the identity exactly if there is no `@` in the user name.** -/
theorem Session.identified_iff {u : Session} (hnick : isValidNick u.nick = true)
    (hhost : u.host ≠ []) : u.Identified ↔ 64 ∉ u.user := by
  constructor
  · intro h
    have hspelled := parsePrefix_spelled u.source.string
    rw [show parsePrefix u.source.string = _ from h] at hspelled
    exact hspelled.user
  · intro huser
    have hbang : 33 ∉ u.nick := fun hb => absurd (mem_isValidNick hnick hb (by decide)) (by decide)
    have hat : 64 ∉ u.nick := fun hb => absurd (mem_isValidNick hnick hb (by decide)) (by decide)
    have hstring := parsePrefix_string (p := u.source) ⟨⟨hbang, hat⟩, huser⟩
    rwa [if_neg (show ¬ u.source.host = [] from hhost)] at hstring

section
variable [UnicodeTables] (s : SessionId) (es : List Event) (st : State)

/-- Once session `s` is registered, its prefix is read as its identity. -/
def IdentityKept (_ : List Event) (st : State) : Prop :=
  (st.srv.session s).state = .registered → (st.srv.session s).Identified

/-- If the event completes the handshake of session `s`, then with a user name without `@`. -/
def RegistersPlain (_ : List Event) (st : State) : Event → Prop
  | .line t raw => t = s → ∀ msg ∈ lineMessage raw, st.srv.users.Completes s msg →
      64 ∉ st.srv.users.userWith s msg
  | .connect _ _ _ | .disconnect _ => True

instance : (e : Event) → Decidable (RegistersPlain s es st e)
  | .line _ _ => inferInstanceAs (Decidable (_ → ∀ _ ∈ _, _))
  | .connect _ _ _ | .disconnect _ => inferInstanceAs (Decidable True)

/-- Session `s` has a host, if it is registered. -/
def Hosted (_ : List Event) (st : State) : Prop :=
  (st.srv.session s).state = .registered → (st.srv.session s).host ≠ []

instance : Decidable (Hosted s es st) :=
  inferInstanceAs (Decidable (_ → _))

/-- **A registered session is identified by its prefix exactly in the runs in which it registers
with a user name without `@`.** -/
theorem identityKept_throughout_iff (env : Env) (s : SessionId) {es : List Event}
    (hv : (ircd env).Valid es) (hhost : (ircd env).Throughout (Hosted s) es) :
    (ircd env).Throughout (IdentityKept s) es ↔ (ircd env).Each (RegistersPlain s) es := by
  have hident {st : State} (hvalid : st.srv.users.NicksValid) (hb : Base st)
      (hreg : (st.srv.session s).state = .registered) (hh : (st.srv.session s).host ≠ []) :
      (st.srv.session s).Identified ↔ 64 ∉ (st.srv.session s).user :=
    Session.identified_iff ((hvalid s).resolve_left (hb.sound.named s hreg)) hh
  refine (ircd env).throughout_iff_of (I := fun _ st => Base st ∧ st.srv.users.NicksValid ∧
    ((st.srv.users.ident s).state = .registered → 64 ∉ (st.srv.users.ident s).user)) ?_ ?_ ?_ ?_ hv hhost
  · exact ⟨Base.init, fun _ => .inl rfl, fun hs => by cases hs⟩
  · rintro es st hh ⟨hb, hvalid, huser⟩ hreg
    exact (hident hvalid hb hreg (hh hreg)).2 (huser hreg)
  · rintro es e ⟨hb, hvalid, huser⟩ hen hgood
    have hstep := users_step hen env
    refine ⟨hb.step hen env, hvalid.step hstep, fun hreg => ?_⟩
    rcases hstep.registered_or hreg with hreg | ⟨raw, msg, rfl, hmsg, hc⟩
    · rw [(hstep.registered hb.sound hreg).2]
      exact huser hreg
    · have hname := Users.user_command_of_completes hc
      rw [← (handleLine_effect hmsg s env _).users] at hname
      exact hname.symm ▸ hgood rfl msg hmsg hc
  · rintro es e ⟨hb, hvalid, -⟩ hen hh hP
    have hb' := hb.step hen env
    have hvalid' := hvalid.step (users_step hen env)
    cases e with
    | connect | disconnect => trivial
    | line t raw =>
      rintro rfl msg hmsg hc
      have heffect := (handleLine_effect hmsg t env ((ircd env).after es)).users
      have hreg := Users.registered_of_completes hc
      have hname := Users.user_command_of_completes hc
      rw [← heffect] at hreg hname
      rw [← hname]
      exact (hident hvalid' hb' hreg (hh hreg)).1 (hP hreg)

end

section
attribute [local instance] asciiTables

def withUser (user : Bytes) : List Event :=
  introduction 0 (lit "alice") ++ [.line 0 (lit "USER " ++ user ++ lit " 0 * :A user")]

theorem identityKept_throughout_iff_plain :
    (ircd (Config.still {})).Throughout (IdentityKept 0) (withUser (lit "ali")) :=
  (identityKept_throughout_iff _ 0 (by decide +kernel) (by decide +kernel)).2 (by decide +kernel)

/-- The registered client is taken for one at the host `root@192.0.2.1`. -/
theorem not_identified_at_sign :
    let st := (ircd (Config.still {})).after (withUser (lit "x@root"))
    (ircd (Config.still {})).Valid (withUser (lit "x@root")) ∧
      (st.srv.session 0).state = .registered ∧ (st.srv.session 0).host ≠ [] ∧
      ¬ (st.srv.session 0).Identified := by
  refine ⟨?_, ?_, ?_, ?_⟩ <;> decide +kernel

end

end Irc
