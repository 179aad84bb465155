import GoProtocols.Irc.Proof.Leave

/-!
# Reachable states

Event by event, the users of the server change as those of the abstract machine do (`users_step`).
`Base st` holds in every state that the server reaches, whatever is sent: the users are sound, every
channel is stored under its name, and only registered sessions have been welcomed.
-/

namespace Irc

open Go System

variable (s : SessionId) (nick : Bytes)

instance (st : State) : (e : Event) → Decidable (e.enabled st)
  | .connect _ _ _ => inferInstanceAs (Decidable True)
  | .line _ _ | .disconnect _ => inferInstanceAs (Decidable (_ = true))

section
variable [UnicodeTables] {st : State} {e : Event} {env : Env} {t : SessionId}

instance (env : Env) (es : List Event) : Decidable ((ircd env).Valid es) :=
  inferInstanceAs (Decidable ((ircd env).Each (fun _ st e => e.enabled st) es))

/-! ## The users, event by event -/

/-- What an event does to the users: a connection may be refused, and of a line only its message
counts. -/
inductive Users.Step (us : Users) : Event → Users → Prop
  | refuse {addr : Bytes} {secure : Bool} {serverName : Bytes} :
      us.Step (.connect addr secure serverName) us
  | connect {addr : Bytes} {secure : Bool} {serverName : Bytes} :
      us.Step (.connect addr secure serverName) us.connect
  | ignore {s : SessionId} {raw : Bytes} : lineMessage raw = none → us.Step (.line s raw) us
  | command {s : SessionId} {raw : Bytes} {msg : Message} : (us.ident s).connected = true →
      lineMessage raw = some msg → us.Step (.line s raw) (us.command s msg)
  | quit {s : SessionId} : (us.ident s).connected = true → us.Step (.disconnect s) (us.quit s)

theorem users_step (hen : e.enabled st) (env : Env) :
    st.srv.users.Step e ((ircd env).step st e).srv.users := by
  cases e with
  | connect addr secure serverName =>
    rcases (connect_users addr secure serverName env st).1 with hu | hu
    · exact hu.symm ▸ .refuse
    · exact hu.symm ▸ .connect
  | line s raw =>
    cases hmsg : lineMessage raw with
    | none => exact (handleLine_same hmsg s env st).users.symm ▸ .ignore hmsg
    | some msg => exact (handleLine_effect hmsg s env st).users.symm ▸ .command hen hmsg
  | disconnect s => exact (disconnect_departure s env st).users.symm ▸ .quit hen

namespace Users

variable {us us' : Users} {e : Event} {t : SessionId}

theorem Sound.step (h : us.Sound) (hs : us.Step e us') : us'.Sound := by
  cases hs with
  | refuse | ignore => exact h
  | connect => exact h.connect
  | command hc => exact h.moves (moves_command us _ _) hc
  | quit hc => exact h.quit hc

theorem state_quit (us : Users) (s t : SessionId) :
    ((us.quit s).ident t).state = (us.ident t).state := by
  by_cases hts : t = s
  · subst hts
    simp [quit]
  · rw [ident_quit_ne hts]

theorem Step.registered (hs : us.Step e us') (h : us.Sound)
    (ht : (us.ident t).state = .registered) :
    (us'.ident t).state = .registered ∧ (us'.ident t).user = (us.ident t).user := by
  cases hs with
  | refuse | ignore => exact ⟨ht, rfl⟩
  | connect =>
    have hta : t ≠ us.allocated := fun he => by
      rw [h.fresh t he.ge] at ht
      cases ht
    simpa [Users.connect, ident_setIdent_ne _ _ hta] using ht
  | command => exact (moves_command us _ _).registered ht
  | @quit s _ =>
    by_cases hts : t = s
    · subst hts
      simpa [Users.quit] using ht
    · rw [ident_quit_ne hts]
      exact ⟨ht, rfl⟩

/-- Nobody is registered by an event but the sender of a message that completes the handshake. -/
theorem Step.registered_or (hs : us.Step e us') (ht : (us'.ident t).state = .registered) :
    (us.ident t).state = .registered ∨
      ∃ raw msg, e = .line t raw ∧ lineMessage raw = some msg ∧ us.Completes t msg := by
  cases hs with
  | refuse | ignore => exact .inl ht
  | connect =>
    left
    by_cases hta : t = us.allocated
    · subst hta
      simp [Users.connect] at ht
    · simpa [Users.connect, ident_setIdent_ne _ _ hta] using ht
  | command _ hmsg =>
    rcases (moves_command us _ _).registered_or ht with ht | ⟨rfl, hc⟩
    · exact .inl ht
    · exact .inr ⟨_, _, rfl, hmsg, hc⟩
  | quit => exact .inl ((us.state_quit _ t).symm.trans ht)

theorem NicksValid.step (h : us.NicksValid) (hs : us.Step e us') : us'.NicksValid := by
  cases hs with
  | refuse | ignore => exact h
  | connect => exact h.setIdent (.inl rfl)
  | command => exact h.command
  | quit =>
    refine NicksValid.setIdent (fun t => ?_) (h _)
    rw [unregister_ident]
    exact h t

end Users

/-! ## What always holds -/

structure Base (st : State) : Prop where
  sound : st.srv.users.Sound
  keyed : Rosters.Keyed st.srv.roster
  welcomed : ∀ t, st.Welcomed t → (st.srv.users.ident t).state = .registered

theorem Base.init : Base {} where
  sound := ⟨fun _ h => (nomatch h), fun _ _ => rfl⟩
  keyed _ _ h := by cases h
  welcomed t h := by
    obtain ⟨m, hm, -⟩ := h
    cases hm

theorem keyed_step (hk : Rosters.Keyed st.srv.roster) (e : Event) (env : Env) :
    Rosters.Keyed ((ircd env).step st e).srv.roster := by
  cases e with
  | connect addr secure serverName =>
    exact (connect_users addr secure serverName env st).2.1.symm ▸ hk
  | line s raw =>
    cases hmsg : lineMessage raw with
    | none => exact (handleLine_same hmsg s env st).roster.symm ▸ hk
    | some msg => exact (handleLine_effect hmsg s env st).keyed hk
  | disconnect s => exact (disconnect_departure s env st).keyed hk

theorem welcomed_step (ht : ((ircd env).step st e).Welcomed t) :
    st.Welcomed t ∨ (((ircd env).step st e).srv.users.ident t).state = .registered := by
  cases e with
  | connect addr secure serverName =>
    obtain ⟨m, hm⟩ := ht
    exact .inl ⟨m, (connect_users addr secure serverName env st).2.2 ▸ hm⟩
  | line s raw =>
    cases hmsg : lineMessage raw with
    | none => exact .inl ((handleLine_same hmsg s env st).welcomed t ht)
    | some msg =>
      rcases (handleLine_effect hmsg s env st).welcomed t ht with ht | ⟨rfl, hreg⟩
      · exact .inl ht
      · exact .inr hreg
  | disconnect s => exact .inl ((disconnect_departure s env st).welcomed t ht)

theorem Base.step {st : State} {e : Event} (h : Base st) (hen : e.enabled st) (env : Env) :
    Base ((ircd env).step st e) where
  sound := h.sound.step (users_step hen env)
  keyed := keyed_step h.keyed e env
  welcomed t ht := by
    rcases welcomed_step ht with ht | ht
    · exact ((users_step hen env).registered h.sound (h.welcomed t ht)).1
    · exact ht

/-- **Every state that the server reaches is sound.** -/
theorem base_after (env : Env) {es : List Event} (hv : (ircd env).Valid es) :
    Base ((ircd env).after es) := by
  have hg : (ircd env).Each (fun _ _ _ => True) es := fun _ _ _ => trivial
  exact (ircd env).invariant (I := fun _ st => Base st) Base.init
    (fun _ _ h hen _ => h.step hen env) hv hg

end

/-! ## A server to run -/

/-- A world in which nothing happens by chance. -/
def World.still : World where
  now _ := ⟨0, 0⟩
  text _ := lit "BATCH"
  rank _ _ := 0
  bcryptCheck hash password := hash = password
  dummyPasswordHash := []

section
variable [UnicodeTables]

def Config.still (cfg : Config) : Env := newServer cfg .still

end

def introduction : List Event :=
  [.connect (lit "192.0.2.1:50000") false [], .line s (lit "NICK " ++ nick)]

def registration : List Event :=
  introduction s nick ++ [.line s (lit "USER user 0 * :A user")]

end Irc
