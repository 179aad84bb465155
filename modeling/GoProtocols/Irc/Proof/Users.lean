import GoProtocols.Go.Utf8
import GoProtocols.Irc.Server.Register

/-!
# Users

An abstract view of the server: who is there, with nick, user name and state (`Ident`), and the
registry of nicks. `Users.command`, `Users.quit` and `Users.connect` say how a message, a disconnect
and a connect act on it; that the server does exactly this is shown in `Irc/Proof/Refine.lean`.

`Moves` lists all that a message can do. What is proved of the users is proved by its cases.
-/

namespace Irc

open Go

/-! ## Nicks -/

section
variable {nick : Bytes}

def NickRune (r : Rune) : Prop := (isLetter r || isDigit r || r == 45 || isNickSpecial r) = true

instance (r : Rune) : Decidable (NickRune r) := inferInstanceAs (Decidable (_ = true))

theorem nickRune_of_isValidNick (h : isValidNick nick = true) : ∀ r ∈ runes nick, NickRune r := by
  unfold isValidNick at h
  split at h
  · cases h
  split at h
  · rename_i hnil
    rw [hnil]
    intro r hr
    cases hr
  · rename_i first rest hrunes
    rw [Bool.and_eq_true, List.all_eq_true] at h
    rw [hrunes]
    refine List.forall_mem_cons.2 ⟨?_, h.2⟩
    rcases Bool.or_eq_true _ _ ▸ h.1 with hl | hs
    · simp [NickRune, hl]
    · simp [NickRune, hs]

theorem mem_isValidNick {b : UInt8} (h : isValidNick nick = true) (hb : b ∈ nick)
    (hascii : b < 0x80) : NickRune b.toNat :=
  nickRune_of_isValidNick h _ (mem_runes_of_mem hascii hb)

theorem ne_nil_of_isValidNick (h : isValidNick nick = true) : nick ≠ [] := by
  rintro rfl
  cases h

end

/-! ## The view -/

/-- What tells users apart. -/
structure Ident where
  nick : Bytes := []
  user : Bytes := []
  state : SessionState := .preReg
  connected : Bool := false

structure Users where
  ident : SessionId → Ident := fun _ => {}
  allocated : Nat := 0
  sessions : Map Bytes SessionId := ∅

variable {t : SessionId} {i : Ident} {us' : Users} (us : Users) (s : SessionId)

namespace Users

def setIdent (i : Ident) : Users :=
  { us with ident := Function.update us.ident s i }

@[simp] theorem ident_setIdent_self (i : Ident) : (us.setIdent s i).ident s = i := by
  simp [setIdent]

theorem ident_setIdent_ne {s : SessionId} (i : Ident) (h : t ≠ s) :
    (us.setIdent s i).ident t = us.ident t := by
  simp [setIdent, h]

@[simp] theorem sessions_setIdent (i : Ident) : (us.setIdent s i).sessions = us.sessions := rfl

@[simp] theorem setIdent_setIdent (i j : Ident) :
    (us.setIdent s i).setIdent s j = us.setIdent s j := by
  simp [setIdent]

theorem setIdent_self : us.setIdent s (us.ident s) = us := by
  simp [setIdent]

/-! ## Commands -/

section
variable [UnicodeTables] (us : Users) (s : SessionId) (i : Ident) (nick : Bytes)

/-- Put session `s` into the registry, under the nick of `i`. -/
def enroll : Users :=
  { us.setIdent s i with sessions := us.sessions.insert (toLower i.nick) s }

def Ready : Prop := i.state = .preReg ∧ i.nick ≠ [] ∧ i.user ≠ []

instance : Decidable (Ready i) := inferInstanceAs (Decidable (_ ∧ _ ∧ _))

def tryRegister : Users :=
  if ¬ Ready (us.ident s) then us
  else if toLower (us.ident s).nick ∈ us.sessions then
    us.setIdent s { us.ident s with nick := [] }
  else us.enroll s { us.ident s with state := .registered }

/-- A nick that `NICK` accepts: it is valid, and nobody but the session has registered it. -/
def Takes : Prop :=
  isValidNick nick = true ∧
    (toLower nick ∉ us.sessions ∨ equalFold nick (us.ident s).nick = true)

instance : Decidable (us.Takes s nick) :=
  inferInstanceAs (Decidable (_ ∧ _))

def nickCommand : List Bytes → Users
  | [] => us
  | nick :: _ =>
    if us.Takes s nick then (us.setIdent s { us.ident s with nick := nick }).tryRegister s else us

def userCommand (params : List Bytes) : Users :=
  if (us.ident s).state = .registered ∨ params.length < 4 then us
  else (us.setIdent s { us.ident s with user := cleanUsername (params.getD 0 []) }).tryRegister s

def negotiate : Users :=
  if (us.ident s).state = .registered then us
  else us.setIdent s { us.ident s with state := .capNeg }

def endNegotiation : Users :=
  if (us.ident s).state = .capNeg then us.setIdent s { us.ident s with state := .preReg } else us

def capCommand : List Bytes → Users
  | [] => us
  | sub :: _ =>
    if toUpper sub = lit "LS" ∨ toUpper sub = lit "REQ" then us.negotiate s
    else if toUpper sub = lit "END" then (us.endNegotiation s).tryRegister s
    else us

/-- What a message of a session does. -/
def command (us : Users) (s : SessionId) (msg : Message) : Users :=
  match verbOf (toUpper msg.command) with
  | some .NICK => us.nickCommand s msg.params
  | some .USER => us.userCommand s msg.params
  | some .CAP => us.capCommand s msg.params
  | _ => us

/-- What `removeSession` does. -/
def unregister : Users :=
  if (us.ident s).nick = [] then us
  else { us with sessions := us.sessions.erase (toLower (us.ident s).nick) }

def quit : Users :=
  (us.unregister s).setIdent s { us.ident s with connected := false }

end

def connect : Users :=
  { us.setIdent us.allocated { connected := true } with allocated := us.allocated + 1 }

/-! ## What always holds -/

/-- What holds of the users whatever is sent. -/
structure Sound (us : Users) : Prop where
  named : ∀ s, (us.ident s).state = .registered → (us.ident s).nick ≠ []
  fresh : ∀ s, us.allocated ≤ s → us.ident s = {}

variable {us : Users} {s : SessionId}

theorem Sound.setIdent (h : us.Sound) (hs : (us.ident s).connected = true)
    (hi : i.state = .registered → i.nick ≠ []) : (us.setIdent s i).Sound where
  named t := by
    by_cases ht : t = s
    · subst ht
      simpa using hi
    · rw [ident_setIdent_ne us i ht]
      exact h.named t
  fresh t hle := by
    have ht : t ≠ s := fun he => by
      subst he
      rw [h.fresh t hle] at hs
      cases hs
    rw [ident_setIdent_ne us i ht]
    exact h.fresh t hle

theorem Sound.connect (h : us.Sound) : us.connect.Sound where
  named t := by
    by_cases ht : t = us.allocated
    · subst ht
      simp [Users.connect]
    · simpa [Users.connect, Users.setIdent, ht] using h.named t
  fresh t hle := by
    have hlt : us.allocated + 1 ≤ t := hle
    have ht : t ≠ us.allocated := by omega
    simpa [Users.connect, Users.setIdent, ht] using h.fresh t (by omega)

def NicksValid (us : Users) : Prop :=
  ∀ t, (us.ident t).nick = [] ∨ isValidNick (us.ident t).nick = true

theorem NicksValid.setIdent (h : us.NicksValid)
    (hi : i.nick = [] ∨ isValidNick i.nick = true) : (us.setIdent s i).NicksValid := by
  intro t
  by_cases hts : t = s
  · subst hts
    simpa using hi
  · rw [ident_setIdent_ne us i hts]
    exact h t

/-! ## What a message can do -/

section
variable [UnicodeTables]

theorem tryRegister_free (h : Ready (us.ident s))
    (hfree : toLower (us.ident s).nick ∉ us.sessions) :
    us.tryRegister s = us.enroll s { us.ident s with state := .registered } := by
  simp [tryRegister, h, hfree]

/-- The message completes the handshake of the session: nick, user name and the end of the
negotiation are there with it, and the nick is free. -/
def Completes (us : Users) (s : SessionId) (msg : Message) : Prop :=
  match verbOf (toUpper msg.command) with
  | some .NICK => (us.ident s).state = .preReg ∧ (us.ident s).user ≠ [] ∧
      ∃ nick ∈ msg.params.head?, isValidNick nick = true ∧ toLower nick ∉ us.sessions
  | some .USER => (us.ident s).state = .preReg ∧ 4 ≤ msg.params.length ∧
      cleanUsername (msg.params.getD 0 []) ≠ [] ∧
      (us.ident s).nick ≠ [] ∧ toLower (us.ident s).nick ∉ us.sessions
  | some .CAP => (us.ident s).state ≠ .registered ∧
      (∃ sub ∈ msg.params.head?, toUpper sub = lit "END") ∧ (us.ident s).user ≠ [] ∧
      (us.ident s).nick ≠ [] ∧ toLower (us.ident s).nick ∉ us.sessions
  | _ => False

instance (us : Users) (s : SessionId) (msg : Message) : Decidable (us.Completes s msg) := by
  unfold Completes
  split <;> infer_instance

/-- With the message, a registered session takes a nick that is not its own in another spelling. -/
def Renames (us : Users) (s : SessionId) (msg : Message) : Prop :=
  verbOf (toUpper msg.command) = some .NICK ∧ (us.ident s).state = .registered ∧
    ∃ nick ∈ msg.params.head?, us.Takes s nick ∧ toLower nick ≠ toLower (us.ident s).nick

instance (us : Users) (s : SessionId) (msg : Message) : Decidable (us.Renames s msg) :=
  inferInstanceAs (Decidable (_ ∧ _ ∧ ∃ _, _ ∧ _))

/-- **All that a message can do to the users**: a session prepares its registration, or completes
it, or has a new nick afterwards. -/
inductive Moves (us : Users) (s : SessionId) (msg : Message) : Users → Prop
  | stay : Moves us s msg us
  | prepare {i : Ident} : (us.ident s).state ≠ .registered → i.state ≠ .registered →
      i.connected = (us.ident s).connected → Moves us s msg (us.setIdent s i)
  | register {i : Ident} : (us.ident s).state ≠ .registered → i.state = .registered →
      i.connected = (us.ident s).connected → i.nick ≠ [] → toLower i.nick ∉ us.sessions →
      us.Completes s msg → Moves us s msg (us.enroll s i)
  | respell {nick : Bytes} : (us.ident s).state = .registered → isValidNick nick = true →
      toLower nick = toLower (us.ident s).nick →
      Moves us s msg (us.setIdent s { us.ident s with nick := nick })
  | rename {nick : Bytes} : (us.ident s).state = .registered → isValidNick nick = true →
      toLower nick ≠ toLower (us.ident s).nick → us.Renames s msg →
      Moves us s msg (us.setIdent s { us.ident s with nick := nick })

variable {msg : Message}

theorem Moves.tryRegister (hs : (us.ident s).state ≠ .registered)
    (hi : i.state ≠ .registered) (hc : i.connected = (us.ident s).connected)
    (hcomp : Ready i → toLower i.nick ∉ us.sessions → us.Completes s msg) :
    Moves us s msg ((us.setIdent s i).tryRegister s) := by
  unfold Users.tryRegister
  simp only [ident_setIdent_self, sessions_setIdent, setIdent_setIdent]
  split
  · exact .prepare hs hi hc
  · rename_i hready
    rw [not_not] at hready
    split
    · exact .prepare hs hi hc
    · rename_i hfree
      have henroll : (us.setIdent s i).enroll s { i with state := .registered } =
          us.enroll s { i with state := .registered } := by
        simp [enroll]
      rw [henroll]
      exact .register hs rfl hc hready.2.1 hfree (hcomp hready hfree)

theorem tryRegister_registered (hs : (us.ident s).state = .registered) :
    us.tryRegister s = us := by
  simp [Users.tryRegister, Ready, hs]

theorem moves_nickCommand (hv : verbOf (toUpper msg.command) = some .NICK) :
    Moves us s msg (us.nickCommand s msg.params) := by
  cases hp : msg.params with
  | nil => exact .stay
  | cons nick params =>
    simp only [nickCommand]
    split
    · rename_i htakes
      by_cases hs : (us.ident s).state = .registered
      · rw [tryRegister_registered (by simpa using hs)]
        by_cases hkey : toLower nick = toLower (us.ident s).nick
        · exact .respell hs htakes.1 hkey
        · exact .rename hs htakes.1 hkey ⟨hv, hs, nick, by simp [hp], htakes, hkey⟩
      · refine .tryRegister hs hs rfl fun hready hfree => ?_
        simp only [Completes, hv]
        exact ⟨hready.1, hready.2.2, nick, by simp [hp], htakes.1, hfree⟩
    · exact .stay

theorem moves_userCommand (hv : verbOf (toUpper msg.command) = some .USER) :
    Moves us s msg (us.userCommand s msg.params) := by
  unfold userCommand
  split
  · exact .stay
  · rename_i h
    rw [not_or, not_lt] at h
    refine .tryRegister h.1 h.1 rfl fun hready hfree => ?_
    simp only [Completes, hv]
    exact ⟨hready.1, h.2, hready.2.2, hready.2.1, hfree⟩

theorem moves_capCommand (hv : verbOf (toUpper msg.command) = some .CAP) :
    Moves us s msg (us.capCommand s msg.params) := by
  cases hp : msg.params with
  | nil => exact .stay
  | cons sub params =>
    simp only [capCommand]
    split
    · unfold negotiate
      split
      · exact .stay
      · rename_i hs
        exact .prepare hs (by simp) rfl
    · split
      · rename_i hend
        -- the end of the negotiation completes the handshake, if all else is there
        have hcomp (i : Ident) (hs : (us.ident s).state ≠ .registered)
            (hn : i.nick = (us.ident s).nick) (hu : i.user = (us.ident s).user) :
            Ready i → toLower i.nick ∉ us.sessions → us.Completes s msg := by
          rintro ⟨-, hnick, huser⟩ hfree
          rw [hn] at hnick hfree
          rw [hu] at huser
          simp only [Completes, hv]
          exact ⟨hs, ⟨sub, by simp [hp], hend⟩, huser, hnick, hfree⟩
        unfold endNegotiation
        split
        · rename_i hneg
          exact .tryRegister (by simp [hneg]) (by simp) rfl (hcomp _ (by simp [hneg]) rfl rfl)
        · by_cases hs : (us.ident s).state = .registered
          · rw [tryRegister_registered hs]
            exact .stay
          · have h := Moves.tryRegister hs hs rfl (hcomp (us.ident s) hs rfl rfl)
            rwa [setIdent_self] at h
      · exact .stay

theorem moves_command (us : Users) (s : SessionId) (msg : Message) :
    Moves us s msg (us.command s msg) := by
  unfold command
  split
  · rename_i hv
    exact moves_nickCommand hv
  · rename_i hv
    exact moves_userCommand hv
  · rename_i hv
    exact moves_capCommand hv
  · exact .stay

theorem Moves.ident_ne (hm : Moves us s msg us') (hts : t ≠ s) :
    us'.ident t = us.ident t := by
  cases hm with
  | stay => rfl
  | prepare | register | respell | rename => exact ident_setIdent_ne us _ hts

theorem command_of_renames (h : us.Renames s msg) :
    ∃ nick, toLower nick ≠ toLower (us.ident s).nick ∧
      us.command s msg = us.setIdent s { us.ident s with nick := nick } := by
  obtain ⟨hv, hreg, nick, hnick, htakes, hne⟩ := h
  obtain ⟨params, hp⟩ := List.head?_eq_some_iff.1 hnick
  refine ⟨nick, hne, ?_⟩
  simp only [command, hv, nickCommand, hp, if_pos htakes]
  exact tryRegister_registered (by simpa using hreg)

theorem command_ne_of_renames (h : us.Renames s msg) : us.command s msg ≠ us := by
  obtain ⟨nick, hne, hcmd⟩ := command_of_renames h
  intro heq
  have hnick := congrArg (fun us : Users => (us.ident s).nick) (hcmd.symm.trans heq)
  rw [ident_setIdent_self] at hnick
  exact hne (congrArg toLower hnick)

theorem Sound.moves (h : us.Sound) (hm : Moves us s msg us')
    (hs : (us.ident s).connected = true) : us'.Sound := by
  cases hm with
  | stay => exact h
  | prepare _ hi _ => exact h.setIdent hs fun hr => absurd hr hi
  | register _ _ _ hnick _ _ =>
    have hset := h.setIdent hs fun _ => hnick
    exact ⟨hset.named, hset.fresh⟩
  | respell _ hvalid _
  | rename _ hvalid _ _ => exact h.setIdent hs fun _ => ne_nil_of_isValidNick hvalid

theorem unregister_ident (us : Users) (s : SessionId) : (us.unregister s).ident = us.ident := by
  unfold unregister
  split <;> rfl

theorem unregister_allocated (us : Users) (s : SessionId) :
    (us.unregister s).allocated = us.allocated := by
  unfold unregister
  split <;> rfl

theorem ident_quit_ne (h : t ≠ s) : (us.quit s).ident t = us.ident t := by
  rw [Users.quit, ident_setIdent_ne _ _ h, unregister_ident]

theorem Sound.quit (h : us.Sound) (hs : (us.ident s).connected = true) : (us.quit s).Sound := by
  have hun : (us.unregister s).Sound := by
    refine ⟨fun t => ?_, fun t => ?_⟩
    · rw [unregister_ident]
      exact h.named t
    · rw [unregister_ident, unregister_allocated]
      exact h.fresh t
  exact hun.setIdent (by rwa [unregister_ident]) (h.named s)

/-- Who is registered stays so, under the same user name. -/
theorem Moves.registered (hm : Moves us s msg us') (ht : (us.ident t).state = .registered) :
    (us'.ident t).state = .registered ∧ (us'.ident t).user = (us.ident t).user := by
  by_cases hts : t = s
  · subst hts
    cases hm with
    | stay => exact ⟨ht, rfl⟩
    | prepare hs _ _ | register hs _ _ _ _ _ => exact absurd ht hs
    | respell _ _ _ | rename _ _ _ _ => simpa using ht
  · rw [hm.ident_ne hts]
    exact ⟨ht, rfl⟩

/-- A message registers nobody but its sender, and the sender only by completing the handshake. -/
theorem Moves.registered_or (hm : Moves us s msg us')
    (ht : (us'.ident t).state = .registered) :
    (us.ident t).state = .registered ∨ t = s ∧ us.Completes s msg := by
  by_cases hts : t = s
  · subst hts
    cases hm with
    | stay => exact .inl ht
    | prepare _ hi _ => exact absurd (by simpa using ht) hi
    | register _ _ _ _ _ hcomp => exact .inr ⟨rfl, hcomp⟩
    | respell hs _ _ | rename hs _ _ _ => exact .inl hs
  · rw [hm.ident_ne hts] at ht
    exact .inl ht

/-- The user name that a session has after its message, if the message completes the handshake: the
first ten bytes of the parameter of a `USER`, without a tilde in front. -/
def userWith (us : Users) (s : SessionId) (msg : Message) : Bytes :=
  if verbOf (toUpper msg.command) = some .USER then
    (trimPrefix (msg.params.getD 0 []) (lit "~")).take 10
  else (us.ident s).user

theorem Completes.command_eq (h : us.Completes s msg) :
    ∃ i, Ready i ∧ toLower i.nick ∉ us.sessions ∧ i.user = us.userWith s msg ∧
      us.command s msg = (us.setIdent s i).tryRegister s := by
  unfold Completes at h
  unfold command userWith
  split at h
  · rename_i hv
    obtain ⟨hstate, huser, nick, hnick, hvalid, hfree⟩ := h
    obtain ⟨params, hp⟩ := List.head?_eq_some_iff.1 hnick
    refine ⟨{ us.ident s with nick }, ⟨hstate, ne_nil_of_isValidNick hvalid, huser⟩, hfree, ?_⟩
    simp [hv, hp, nickCommand, if_pos (show us.Takes s nick from ⟨hvalid, .inl hfree⟩)]
  · rename_i hv
    obtain ⟨hstate, hlen, huser, hnick, hfree⟩ := h
    refine ⟨{ us.ident s with user := cleanUsername (msg.params.getD 0 []) },
      ⟨hstate, hnick, huser⟩, hfree, ?_⟩
    simp [hv, userCommand, hstate, not_lt.2 hlen, cleanUsername]
  · rename_i hv
    obtain ⟨hstate, ⟨sub, hsub, hend⟩, huser, hnick, hfree⟩ := h
    obtain ⟨params, hp⟩ := List.head?_eq_some_iff.1 hsub
    have hend' : ¬ (toUpper sub = lit "LS" ∨ toUpper sub = lit "REQ") := by
      rw [hend]
      decide
    refine ⟨{ us.ident s with state := .preReg }, ⟨rfl, hnick, huser⟩, hfree, by simp [hv], ?_⟩
    simp only [hp, capCommand, if_neg hend', if_pos hend, endNegotiation]
    split
    · rfl
    · rename_i hneg
      have hpre : (us.ident s).state = .preReg := by
        cases hst : (us.ident s).state <;> simp_all
      rw [← hpre, setIdent_self]
  · exact h.elim

theorem registered_of_completes (h : us.Completes s msg) :
    ((us.command s msg).ident s).state = .registered := by
  obtain ⟨i, hready, hfree, -, hcmd⟩ := h.command_eq
  rw [hcmd, tryRegister_free (by simpa using hready) (by simpa using hfree)]
  simp [enroll]

/-! ## Names -/

theorem NicksValid.tryRegister (h : us.NicksValid) : (us.tryRegister s).NicksValid := by
  unfold Users.tryRegister
  split
  · exact h
  · split
    · exact h.setIdent (.inl rfl)
    · exact h.setIdent (h s)

theorem NicksValid.command (h : us.NicksValid) : (us.command s msg).NicksValid := by
  unfold Users.command
  split
  · cases msg.params with
    | nil => exact h
    | cons nick params =>
      simp only [nickCommand]
      split
      · rename_i htakes
        exact (h.setIdent (.inr htakes.1)).tryRegister
      · exact h
  · unfold userCommand
    split
    · exact h
    · exact .tryRegister (h.setIdent (i := { us.ident s with user := _ }) (h s))
  · cases msg.params with
    | nil => exact h
    | cons sub params =>
      simp only [capCommand, negotiate, endNegotiation]
      split_ifs
      · exact h
      · exact h.setIdent (h s)
      · exact .tryRegister (h.setIdent (i := { us.ident s with state := _ }) (h s))
      · exact h.tryRegister
      · exact h
  · exact h

@[simp] theorem user_tryRegister (us : Users) (s : SessionId) :
    ((us.tryRegister s).ident s).user = (us.ident s).user := by
  unfold Users.tryRegister
  split
  · rfl
  · split <;> simp [enroll]

theorem user_command_of_completes (h : us.Completes s msg) :
    ((us.command s msg).ident s).user = us.userWith s msg := by
  obtain ⟨i, -, -, huser, hcmd⟩ := h.command_eq
  rw [hcmd, user_tryRegister, ident_setIdent_self, huser]

end

end Users

end Irc
