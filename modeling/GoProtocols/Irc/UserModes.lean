import GoProtocols.Irc.ModeLog
import GoProtocols.Irc.Proof.Reach
import GoProtocols.Irc.Proof.Settings

/-!
# User modes that the server grants

`OPER` sets the mode `o` of a session, and a connection over TLS has the mode `z`. But
`handleUserMode` changes either for anyone who asks, so `MODE alice +o` sets the mode of an operator
for a user who is none. `Standing.Granted` says that the modes tell the truth.
-/

namespace Irc

open Go System

/-! ## Flags -/

variable (u : Standing) (changes : List ModeChange)

/-- Whether mode `m` is set after the changes. -/
def setAfter (m : Rune) (changes : List ModeChange) (before : Bool) : Bool :=
  changes.foldl (fun set mc => if mc.mode = m then mc.add else set) before

namespace ModeSet

variable {v : ModeValidator} {m : Rune}

theorem has_applyOne (hm : v.type m = .flag) (s : ModeSet) (mc : ModeChange) :
    (s.applyOne v mc).1.has m = if mc.mode = m then mc.add else s.has m := by
  split
  · rename_i heq
    subst heq
    simp only [applyOne, hm]
    cases mc.add <;> cases hhas : s.has mc.mode <;> simp_all [has]
  · rename_i hne
    apply applyOne_keeps (P := fun s' => s'.has m = s.has m) rfl
    · intro _
      simp [has, Ne.symm hne]
    · simp [has, Ne.symm hne]
    all_goals intros; rfl

/-- **The last change of a flag decides it.** -/
theorem has_apply (hm : v.type m = .flag) (changes : List ModeChange) (s : ModeSet) :
    (s.apply v changes).1.has m = setAfter m changes (s.has m) := by
  induction changes generalizing s with
  | nil => rfl
  | cons mc changes ih =>
    have hrest := ih (s.applyOne v mc).1
    rwa [has_applyOne hm] at hrest

end ModeSet

/-! ## Sessions -/

/-- The mode `o` says who is an operator, and the mode `z` who uses TLS. -/
def Standing.Granted : Prop :=
  u.modes.has (rune 'o') = u.isOper ∧ (u.modes.has (rune 'z') = true → u.secure = true)

instance : Decidable u.Granted := inferInstanceAs (Decidable (_ ∧ _))

/-- The changes leave `o` as it has to be, and do not set `z` for a session without TLS. -/
def Standing.Granting : Prop :=
  setAfter (rune 'o') changes u.isOper = u.isOper ∧
    (setAfter (rune 'z') changes (u.modes.has (rune 'z')) = true → u.secure = true)

instance : Decidable (u.Granting changes) :=
  inferInstanceAs (Decidable (_ ∧ _))

def Standing.regrade : Standing :=
  { u with modes := (u.modes.apply userValidator changes).1 }

variable {u}

theorem Standing.Granted.regrade_iff (h : u.Granted) (changes : List ModeChange) :
    (u.regrade changes).Granted ↔ u.Granting changes := by
  have ho : userValidator.type (rune 'o') = .flag := by decide
  have hz : userValidator.type (rune 'z') = .flag := by decide
  rw [Granted, Granting, regrade, ModeSet.has_apply ho, ModeSet.has_apply hz, h.1]

section
variable [UnicodeTables] {env : Env} {st : State} {e : Event} {es : List Event} {t : SessionId}
  {changes}

/-- Session `t` sends `OPER` with a password that is accepted. -/
def Event.Opers (env : Env) (st : State) (t : SessionId) : Event → Prop
  | .line s raw => s = t ∧ ∃ msg ∈ lineMessage raw, st.srv.Promotes env t msg
  | .connect _ _ _ | .disconnect _ => False

/-- Session `t` has become an operator in the run. -/
def Opered (env : Env) (es : List Event) (t : SessionId) : Prop :=
  ∃ es' e, es' ++ [e] <+: es ∧ e.Opers env ((ircd env).after es') t

theorem Opered.concat (h : Opered env es t) (e : Event) : Opered env (es ++ [e]) t := by
  obtain ⟨es', e', hes', he'⟩ := h
  exact ⟨es', e', hes'.trans (List.prefix_append es [e]), he'⟩

/-- Every session's modes tell the truth, and its operators have sent `OPER`. -/
def ModesGranted (env : Env) (es : List Event) (st : State) : Prop :=
  ∀ t, (st.srv.session t).standing.Granted ∧
    ((st.srv.session t).standing.isOper = true → Opered env es t)

def GrantsModes (st : State) (e : Event) : Prop :=
  ∀ p ∈ e.regraded st, (st.srv.session p.1).standing.Granting p.2

instance (st : State) (e : Event) : Decidable (GrantsModes st e) :=
  inferInstanceAs (Decidable (∀ p ∈ e.regraded st, _))

theorem changesOf_cases (st : State) (e : Event) (t : SessionId) :
    e.changesOf st t = [] ∨ e.regraded st = some (t, e.changesOf st t) := by
  unfold Event.changesOf
  rcases e.regraded st with _ | ⟨t', changes⟩
  · exact .inl rfl
  · by_cases ht : t' = t
    · exact .inr (by simp [ht])
    · exact .inl (by simp [ht])

theorem granted_step (hstep : Standing.Step env st e t u) (h : (st.srv.session t).standing.Granted)
    (hgood : GrantsModes st e) : u.Granted := by
  cases hstep with
  | @new addr secure serverName idleAt signOnAt he =>
    have hnew : ∀ secure : Bool, Standing.Granted
        ⟨if secure then (ModeSet.apply userValidator {} [⟨true, rune 'z', []⟩]).1 else {}, false,
          secure⟩ := by decide
    exact hnew secure
  | promoted he hline hoper =>
    have ho : userValidator.type (rune 'o') = .flag := by decide
    have hz : userValidator.type (rune 'z') = .flag := by decide
    refine ⟨?_, fun hset => h.2 ?_⟩
    · rw [standing_promoted, ModeSet.has_apply ho]
      rfl
    · rwa [standing_promoted, ModeSet.has_apply hz] at hset
  | regraded =>
    refine (h.regrade_iff _).2 ?_
    rcases changesOf_cases st e t with hnil | hsome
    · rw [hnil]
      exact ⟨rfl, h.2⟩
    · exact hgood _ hsome

theorem opered_step (hstep : Standing.Step env ((ircd env).after es) e t u)
    (h : (((ircd env).after es).srv.session t).standing.isOper = true → Opered env es t)
    (hoper : u.isOper = true) : Opered env (es ++ [e]) t := by
  cases hstep with
  | new => cases hoper
  | @promoted raw msg he hline hpromotes =>
    subst he
    exact ⟨es, _, List.prefix_rfl, rfl, msg, hline, hpromotes⟩
  | regraded => exact (h hoper).concat e

theorem standing_of_regraded (h : e.regraded st = some (t, changes)) :
    (((ircd env).step st e).srv.session t).standing =
      (st.srv.session t).standing.regrade changes := by
  have hstep := standing_step env st e t
  generalize (((ircd env).step st e).srv.session t).standing = u at hstep ⊢
  cases hstep with
  | new _ _ he =>
    subst he
    cases h
  | promoted he hline hpromotes =>
    subst he
    rw [Event.regraded, hline, Option.bind_some, Server.regraded, if_neg] at h
    · cases h
    · intro hmode
      have hverb := hmode.1.1.symm.trans hpromotes.1
      cases hverb
  | regraded =>
    have hchanges : e.changesOf st t = changes := by simp [Event.changesOf, h]
    rw [hchanges]
    rfl

/-- **The modes tell the truth throughout exactly the runs in which no `MODE` makes them lie.** -/
theorem granted_throughout_iff (env : Env) {es : List Event} (hv : (ircd env).Valid es) :
    (ircd env).Throughout (ModesGranted env) es ↔
      (ircd env).Each (fun _ st e => GrantsModes st e) es := by
  refine (ircd env).throughout_iff (I := ModesGranted env) ?_ (fun _ _ h => h) ?_ ?_ hv
  · exact fun t => ⟨⟨rfl, fun h => by cases h⟩, fun h => by cases h⟩
  · intro es e h _ hgood t
    have hstep := standing_step env ((ircd env).after es) e t
    exact ⟨granted_step hstep (h t).1 hgood, opered_step hstep (h t).2⟩
  · rintro es e h - hafter ⟨t, changes⟩ hp
    rw [← (h t).1.regrade_iff, ← standing_of_regraded hp]
    exact (hafter t).1

end

section
attribute [local instance] asciiTables

def regrades (modes : Bytes) : List Event :=
  registration 0 (lit "alice") ++ [.line 0 (lit "MODE alice " ++ modes)]

theorem granted_throughout_iff_invisible :
    (ircd (Config.still {})).Throughout (ModesGranted (Config.still {}))
      (regrades (lit "+iw-z")) :=
  (granted_throughout_iff _ (by decide +kernel)).2 (by decide +kernel)

/-- A client that is no operator and does not use TLS has the modes of both. -/
theorem not_granted_self :
    let es := regrades (lit "+oz")
    let st := (ircd (Config.still {})).after es
    (ircd (Config.still {})).Valid es ∧ (st.srv.session 0).isOper = false ∧
      (st.srv.session 0).secure = false ∧ (st.srv.session 0).modes.has (rune 'o') = true ∧
      (st.srv.session 0).modes.has (rune 'z') = true ∧
      ¬ ModesGranted (Config.still {}) es st := by
  refine ⟨by decide +kernel, by decide +kernel, by decide +kernel, by decide +kernel,
    by decide +kernel, fun h => ?_⟩
  have hgranted := (h 0).1
  revert hgranted
  decide +kernel

end

end Irc
