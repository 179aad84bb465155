import GoProtocols.Irc.Server.Caps

/-!
# Logins

An abstract view of the login of a session: whether it came over TLS, whether it has `sasl`, the
account it is logged in to, and the exchange that it is in. `Login.Step` lists all that a message can
do to it; that the server does no more is shown in `Irc/Proof/Authenticate.lean`.

`Exchange log buffer` says of the messages of a session that they end in an exchange that has
brought `buffer` so far, and `Completed log encoded` that one among them came to its end.
`Login.Sound` ties a login to the messages before it; every step keeps it.
-/

namespace Irc

open Go

structure Login where
  secure : Bool := false
  sasl : Bool := false
  account : Bytes := []
  active : Bool := false
  buffer : Bytes := []

def chunkText (chunk : Bytes) : Bytes := if chunk ≠ lit "+" then chunk else []

theorem append_chunkText (buffer chunk : Bytes) :
    buffer ++ chunkText chunk = if chunk ≠ lit "+" then buffer ++ chunk else buffer := by
  unfold chunkText
  split
  · rfl
  · exact List.append_nil buffer

section
variable [UnicodeTables] (m : Message)

/-! ## Messages of the handshake -/

def Message.IsAuthenticate : Prop :=
  verbOf (toUpper m.command) = some .AUTHENTICATE

/-- `CAP` with this subcommand. -/
def Message.IsCap (sub : Bytes) : Prop :=
  verbOf (toUpper m.command) = some .CAP ∧ ∃ p ∈ m.params.head?, toUpper p = sub

/-- A `CAP REQ` that asks for `sasl`. -/
def Message.RequestsSasl : Prop :=
  m.IsCap (lit "REQ") ∧ Capability.sasl.name ∈ fields (trimPrefix (m.param 1) (lit ":"))

/-- `AUTHENTICATE` with this parameter. -/
def Message.Chunk (chunk : Bytes) : Prop :=
  m.IsAuthenticate ∧ m.params.head? = some chunk

/-! ## Exchanges -/

inductive Exchange : List Message → Bytes → Prop
  | start {log : List Message} {m : Message} {mechanism : Bytes} :
      m.Chunk mechanism → equalFold mechanism (lit "PLAIN") = true → Exchange (log ++ [m]) []
  | more {log : List Message} {m : Message} {buffer chunk : Bytes} :
      Exchange log buffer → m.Chunk chunk → chunk.length = 400 →
      Exchange (log ++ [m]) (buffer ++ chunkText chunk)
  | other {log : List Message} {m : Message} {buffer : Bytes} :
      Exchange log buffer → ¬ m.IsAuthenticate → ¬ m.IsCap (lit "END") → Exchange (log ++ [m]) buffer

/-- Among the messages is an exchange whose chunks add up to `encoded`. -/
def Completed (log : List Message) (encoded : Bytes) : Prop :=
  ∃ before m after buffer chunk, log = before ++ m :: after ∧ Exchange before buffer ∧
    m.Chunk chunk ∧ chunk.length < 400 ∧ chunk ≠ lit "*" ∧ encoded = buffer ++ chunkText chunk

theorem Completed.concat {log : List Message} {encoded : Bytes} (h : Completed log encoded)
    (m : Message) : Completed (log ++ [m]) encoded := by
  obtain ⟨before, m', after, buffer, chunk, rfl, h⟩ := h
  exact ⟨before, m', after ++ [m], buffer, chunk, by simp, h⟩

/-! ## Steps -/

/-- The account that `encoded` logs in to: it holds the credentials of the mechanism `PLAIN`, and
the password is that of the account. -/
def Grants (env : Env) (encoded : Bytes) (account : Account) : Prop :=
  ∃ credentials ∈ (decodeBase64 encoded).bind plainCredentials,
    env.accounts.lookup (toLower credentials.1) = some account ∧
      env.world.bcryptCheck account.passwordHash credentials.2 = true

/-- **All that a message can do to the login of its session.** -/
inductive Login.Step (env : Env) (msg : Message) (l : Login) : Login → Prop
  | stay : ¬ msg.IsAuthenticate → ¬ (msg.IsCap (lit "END") ∧ l.active = true) → Step env msg l l
  | refuse : l.active = false → Step env msg l l
  | enable : msg.RequestsSasl → l.secure = true → Step env msg l { l with sasl := true }
  | disable : ¬ msg.IsAuthenticate → ¬ msg.IsCap (lit "END") →
      Step env msg l { l with sasl := false }
  | abort : Step env msg l { l with active := false, buffer := [] }
  | start {mechanism : Bytes} : msg.Chunk mechanism → equalFold mechanism (lit "PLAIN") = true →
      Step env msg l { l with active := true, buffer := [] }
  | more {chunk : Bytes} : l.active = true → msg.Chunk chunk → chunk.length = 400 →
      l.buffer.length + chunk.length ≤ maxSASLPayload →
      Step env msg l { l with buffer := l.buffer ++ chunkText chunk }
  | succeed {chunk : Bytes} {account : Account} : l.active = true → l.sasl = true →
      msg.Chunk chunk → chunk.length < 400 → chunk ≠ lit "*" →
      Grants env (l.buffer ++ chunkText chunk) account →
      Step env msg l { l with account := account.name, active := false, buffer := [] }

/-! ## What always holds -/

variable {env : Env} {N N' : Prop} {log : List Message} {msg : Message} {l l' : Login} {sub : Bytes}

/-- What a login says of the messages `log` that led to it; `N` stands for a request of `sasl` that
was granted. -/
structure Login.Sound (env : Env) (N : Prop) (log : List Message) (l : Login) : Prop where
  bound : l.buffer.length ≤ maxSASLPayload
  idle : l.active = false → l.buffer = []
  exchange : l.active = true → Exchange log l.buffer
  sasl : l.sasl = true → l.secure = true ∧ N
  account : l.account ≠ [] → (l.secure = true ∧ N) ∧
    ∃ encoded account, Completed log encoded ∧ Grants env encoded account ∧ l.account = account.name

theorem Login.Sound.init (secure : Bool) : Login.Sound env N log { secure } where
  bound := Nat.zero_le _
  idle _ := rfl
  exchange h := nomatch h
  sasl h := nomatch h
  account h := absurd rfl h

theorem Login.Sound.mono (h : l.Sound env N log) (hN : N → N') : l.Sound env N' log :=
  { h with
    sasl := fun hl => (h.sasl hl).imp_right hN
    account := fun ha => (h.account ha).imp_left fun hs => hs.imp_right hN }

theorem Login.Sound.account_concat (h : l.Sound env N log) (msg : Message) (hN : N → N')
    (ha : l.account ≠ []) :
    (l.secure = true ∧ N') ∧ ∃ encoded account,
      Completed (log ++ [msg]) encoded ∧ Grants env encoded account ∧ l.account = account.name := by
  obtain ⟨hs, encoded, account, hc, hg⟩ := h.account ha
  exact ⟨hs.imp_right hN, encoded, account, hc.concat msg, hg⟩

theorem Message.IsCap.not_isAuthenticate (h : msg.IsCap sub) : ¬ msg.IsAuthenticate := by
  intro ha
  rw [Message.IsAuthenticate, h.1] at ha
  cases ha

theorem Message.IsCap.not_end (h : msg.IsCap sub) (hsub : sub ≠ lit "END") :
    ¬ msg.IsCap (lit "END") := by
  rintro ⟨-, p, hp, hend⟩
  obtain ⟨-, p', hp', rfl⟩ := h
  obtain rfl := Option.mem_unique hp hp'
  exact hsub hend

theorem Login.Sound.step (h : l.Sound env N log) (hs : l.Step env msg l') (hN : N → N')
    (hrequest : msg.RequestsSasl → l'.sasl = true → N') : l'.Sound env N' (log ++ [msg]) := by
  have hsasl (hl : l.sasl = true) : l.secure = true ∧ N' := (h.sasl hl).imp_right hN
  have haccount := h.account_concat msg hN
  cases hs with
  | stay hauth hend =>
    exact ⟨h.bound, h.idle, fun ha => (h.exchange ha).other hauth fun he => hend ⟨he, ha⟩, hsasl,
      haccount⟩
  | refuse hidle => exact ⟨h.bound, h.idle, fun ha => by simp [hidle] at ha, hsasl, haccount⟩
  | enable hreq hsec =>
    have hend := hreq.1.not_end (by decide)
    exact ⟨h.bound, h.idle, fun ha => (h.exchange ha).other hreq.1.not_isAuthenticate hend,
      fun _ => ⟨hsec, hrequest hreq rfl⟩, haccount⟩
  | disable hauth hend =>
    exact ⟨h.bound, h.idle, fun ha => (h.exchange ha).other hauth hend, nofun, haccount⟩
  | abort => exact ⟨Nat.zero_le _, fun _ => rfl, nofun, hsasl, haccount⟩
  | start hchunk hplain =>
    exact ⟨Nat.zero_le _, fun _ => rfl, fun _ => .start hchunk hplain, hsasl, haccount⟩
  | @more chunk hactive hchunk hfull hfits =>
    refine ⟨?_, fun hidle => by simp [hactive] at hidle, fun ha => (h.exchange ha).more hchunk hfull,
      hsasl, haccount⟩
    have htext : (chunkText chunk).length ≤ chunk.length := by
      unfold chunkText
      split <;> simp
    rw [List.length_append]
    omega
  | @succeed chunk account hactive hl hchunk hlt hstar hgrants =>
    refine ⟨Nat.zero_le _, fun _ => rfl, nofun, hsasl, fun _ => ⟨hsasl hl, _, account, ?_, hgrants,
      rfl⟩⟩
    exact ⟨log, msg, [], _, chunk, rfl, h.exchange hactive, hchunk, hlt, hstar, rfl⟩

end

end Irc
