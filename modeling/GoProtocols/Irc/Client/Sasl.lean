import GoProtocols.Go.Base64
import GoProtocols.Irc.Message
import GoProtocols.Irc.Names

/-!
# SASL in the client

`Client.handleAuthenticate` of `irc/client/client.go` and the mechanism `PLAIN` of
`irc/client/sasl/mechanism.go`. Of the client there is what the handler uses; what it sends is part
of its result.
-/

namespace Irc

open Go

/-! ## Mechanisms -/

/-- `sasl.Mechanism`, with its state: `Next` answers a challenge, and says if it is done. -/
structure Mechanism (μ : Type) where
  next : μ → Bytes → Except Bytes (Bytes × Bool) × μ

structure Plain where
  username : Bytes
  password : Bytes
  authzID : Bytes := []

/-- `Plain.Next`. -/
def Plain.next (p : Plain) (_challenge : Bytes) : Except Bytes (Bytes × Bool) × Plain :=
  (.ok (p.authzID ++ lit "\x00" ++ p.username ++ lit "\x00" ++ p.password, true), p)

def plain : Mechanism Plain := ⟨Plain.next⟩

/-! ## The handler -/

structure Client (μ : Type) where
  saslMech : Option μ
  saslBuffer : Bytes := []

namespace Client

/-- `Sendf(irc.AUTHENTICATE, chunk)`. -/
def authenticateMessage (chunk : Bytes) : Message :=
  { command := Verb.AUTHENTICATE.name, params := [chunk] }

variable {μ : Type}

/-- `Client.abortSASL`. -/
def abortSASL (c : Client μ) : Client μ × List Message :=
  ({ c with saslMech := none, saslBuffer := [] }, [authenticateMessage (lit "*")])

/-- The challenge that the buffer holds. -/
def challengeOf (buffer : Bytes) : Option Bytes :=
  if buffer ≠ [] then decodeStd buffer else some []

/-- The loop that cuts the response into chunks, and what is sent after it. Each round takes 400
bytes, so that the length of the text is fuel enough. -/
def sendChunks : Nat → Bytes → List Bytes
  | 0, encoded => [if encoded ≠ [] then encoded else lit "+"]
  | fuel + 1, encoded =>
    if 400 ≤ encoded.length then encoded.take 400 :: sendChunks fuel (encoded.drop 400)
    else [if encoded ≠ [] then encoded else lit "+"]

/-- The parameters of the messages that a response is sent in. -/
def responseChunks (resp : Bytes) : List Bytes :=
  let encoded := encodeBase64 resp
  if encoded = [] then [lit "+"] else sendChunks encoded.length encoded

/-- `Client.handleAuthenticate`. -/
def handleAuthenticate (mech : Mechanism μ) (c : Client μ) (msg : Message) :
    Client μ × List Message :=
  match c.saslMech, msg.params with
  | none, _ | _, [] => (c, [])
  | some m, chunk :: _ =>
    if 400 < chunk.length then c.abortSASL
    else
      let buffer := if chunk ≠ lit "+" then c.saslBuffer ++ chunk else c.saslBuffer
      if chunk.length = 400 then ({ c with saslBuffer := buffer }, [])
      else
        match challengeOf buffer with
        | none => c.abortSASL
        | some challenge =>
          match mech.next m challenge with
          | (.error _, _) => c.abortSASL
          | (.ok (resp, _), m') =>
            ({ saslMech := some m' }, (responseChunks resp).map authenticateMessage)

/-- The client answers a challenge that ends with `+` with this response. -/
def Answers (mech : Mechanism μ) (c : Client μ) (resp : Bytes) : Prop :=
  ∃ m ∈ c.saslMech, ∃ challenge ∈ challengeOf c.saslBuffer, ∃ done,
    (mech.next m challenge).1 = .ok (resp, done)

theorem handleAuthenticate_plus {mech : Mechanism μ} {c : Client μ} {resp : Bytes}
    (h : c.Answers mech resp) {msg : Message} (hmsg : msg.params.head? = some (lit "+")) :
    (c.handleAuthenticate mech msg).2 = (responseChunks resp).map authenticateMessage := by
  obtain ⟨m, hm, challenge, hc, done, hnext⟩ := h
  obtain ⟨params, hp⟩ := List.head?_eq_some_iff.1 hmsg
  obtain ⟨m', hnext⟩ : ∃ m', mech.next m challenge = (.ok (resp, done), m') := ⟨_, Prod.ext hnext rfl⟩
  have hlong : ¬ 400 < (lit "+").length := by decide
  have hfull : ¬ (lit "+").length = 400 := by decide
  have hbuffer : challengeOf (if lit "+" ≠ lit "+" then c.saslBuffer ++ lit "+" else c.saslBuffer) =
      some challenge := by
    simpa using hc
  simp only [handleAuthenticate, show c.saslMech = some m from hm, hp, if_neg hlong,
    if_neg hfull, hbuffer, hnext]

end Client

end Irc
