import GoProtocols.Irc.Client.Sasl
import GoProtocols.Irc.Sasl

/-!
# The two ends of a SASL exchange

The client cuts its response into chunks of 400 bytes and ends it with a shorter one, or with `+`;
the server puts them together. `Decodes env s resp st msgs`: of the messages, the server keeps all
but the last in its buffer, and decodes what it has to `resp` at the last. So it does with what the
client sends for a response (`framing_agrees`), if the response is not above the limit, and if the
session has not given up `sasl` since the exchange began.
-/

namespace Irc

open Go Prog System List

/-- The session is in an exchange that has brought `buffer`. -/
structure InExchange (u : Session) (buffer : Bytes) : Prop where
  sasl : u.capEnabled .sasl = true
  active : u.saslActive = true
  buffer_eq : u.saslBuffer = buffer

theorem InExchange.update {s : SessionId} {st : State} {buffer : Bytes}
    (h : InExchange (st.srv.session s) buffer) (buffer' : Bytes) (env : Env) :
    InExchange ((updateSession s (fun u => { u with saslBuffer :=
      buffer' }) env st).2.srv.session s)
      buffer' := by
  have hu : (updateSession s (fun u => { u with saslBuffer := buffer' }) env st).2.srv.session s =
      { st.srv.session s with saslBuffer := buffer' } :=
    Function.update_self ..
  rw [hu]
  exact ⟨h.sasl, h.active, rfl⟩

section
variable [UnicodeTables]

/-- The server decodes the chunks in the messages to `resp`, once and at the last. -/
inductive Decodes (env : Env) (s : SessionId) (resp : Bytes) : State → List Message → Prop
  | last {st : State} {msg : Message} {encoded : Bytes} :
      handleAuthenticate s msg env st = authenticate s encoded env
        (updateSession s (fun u => { u with saslActive := false, saslBuffer := [] }) env st).2 →
      decodeBase64 encoded = some resp → Decodes env s resp st [msg]
  | more {st : State} {msg : Message} {msgs : List Message} {buffer : Bytes} :
      handleAuthenticate s msg env st =
        updateSession s (fun u => { u with saslBuffer := buffer }) env st →
      Decodes env s resp (updateSession s (fun u => { u with saslBuffer := buffer }) env st).2 msgs →
      Decodes env s resp st (msg :: msgs)

variable {env : Env} {s : SessionId} {resp buffer chunk rest : Bytes} {st : State}

theorem handleAuthenticate_full (h : InExchange (st.srv.session s) buffer)
    (hchunk : chunk.length = 400) (hfits : buffer.length + chunk.length ≤ maxSASLPayload) :
    handleAuthenticate s (Client.authenticateMessage chunk) env st =
      updateSession s (fun u => { u with saslBuffer := buffer ++ chunk }) env st := by
  have hstar : chunk ≠ lit "*" := fun he => by simp [he] at hchunk; revert hchunk; decide
  have hplus : chunkText chunk = chunk := if_pos fun he => by rw [he] at hchunk; revert hchunk; decide
  rw [handleAuthenticate_active h.sasl h.active rfl, h.buffer_eq, if_neg hstar, if_neg (by omega),
    if_pos hchunk, hplus]

theorem handleAuthenticate_short (h : InExchange (st.srv.session s) buffer)
    (hchunk : chunk.length < 400) (hstar : chunk ≠ lit "*")
    (hfits : buffer.length + chunk.length ≤ maxSASLPayload) :
    handleAuthenticate s (Client.authenticateMessage chunk) env st =
      authenticate s (buffer ++ chunkText chunk) env
        (updateSession s (fun u => { u with saslActive := false, saslBuffer := [] }) env st).2 := by
  rw [handleAuthenticate_active h.sasl h.active rfl, h.buffer_eq, if_neg hstar, if_neg (by omega),
    if_neg (by omega)]

theorem decodes_last (h : InExchange (st.srv.session s) buffer) (hfull : buffer.length % 400 = 0)
    (hrest : rest.length % 4 = 0) (hlt : rest.length < 400)
    (hfits : buffer.length + rest.length ≤ maxSASLPayload)
    (hdecode : decodeBase64 (buffer ++ rest) = some resp) :
    Decodes env s resp st
      [Client.authenticateMessage (if rest ≠ [] then rest else lit "+")] := by
  have hmax : maxSASLPayload = 4096 := rfl
  have hone : (lit "+").length = 1 ∧ (lit "*").length = 1 := by decide
  by_cases hnil : rest = []
  · subst hnil
    rw [if_neg (by simp)]
    simp only [length_nil, Nat.add_zero, append_nil] at hfits hdecode
    refine .last (handleAuthenticate_short h (by omega) (by decide) (by omega)) ?_
    rw [append_chunkText, if_neg (by simp)]
    exact hdecode
  · -- the length is a multiple of four, so that the chunk is neither a plus nor a star
    have hpos : 0 < rest.length := length_pos_iff.2 hnil
    have hplus : rest ≠ lit "+" := fun he => by rw [he] at hrest; revert hrest; decide
    have hstar : rest ≠ lit "*" := fun he => by rw [he] at hrest; revert hrest; decide
    rw [if_pos hnil]
    refine .last (handleAuthenticate_short h hlt hstar hfits) ?_
    rw [append_chunkText, if_pos hplus]
    exact hdecode

theorem decodes_sendChunks {fuel : Nat} (h : InExchange (st.srv.session s) buffer)
    (hfull : buffer.length % 400 = 0) (hrest : rest.length % 4 = 0) (hfuel : rest.length ≤ fuel)
    (hfits : buffer.length + rest.length ≤ maxSASLPayload)
    (hdecode : decodeBase64 (buffer ++ rest) = some resp) :
    Decodes env s resp st ((Client.sendChunks fuel rest).map Client.authenticateMessage) := by
  induction fuel generalizing st buffer rest with
  | zero => exact decodes_last h hfull hrest (by omega) hfits hdecode
  | succ fuel ih =>
    rw [Client.sendChunks]
    split
    · rename_i hlong
      have htake : (rest.take 400).length = 400 := by simpa using hlong
      have hdrop : (rest.drop 400).length = rest.length - 400 := length_drop ..
      rw [map_cons]
      refine .more (handleAuthenticate_full h htake (by omega)) ?_
      refine ih (h.update _ env) ?_ (by omega) (by omega) ?_ ?_
      · rw [length_append]
        omega
      · rw [length_append]
        omega
      · rw [append_assoc, take_append_drop]
        exact hdecode
    · rename_i hshort
      exact decodes_last h hfull hrest (by omega) hfits hdecode

theorem decodes_responseChunks (h : InExchange (st.srv.session s) [])
    (hfits : (encodeBase64 resp).length ≤ maxSASLPayload) :
    Decodes env s resp st ((Client.responseChunks resp).map Client.authenticateMessage) := by
  have hmod := length_encodeBase64_mod resp
  have hdecode := decodeBase64_encodeBase64 resp
  simp only [Client.responseChunks]
  split
  · rename_i hnil
    rw [hnil] at hdecode
    exact decodes_last h rfl rfl (by decide) (by decide) hdecode
  · exact decodes_sendChunks h rfl hmod le_rfl (by simpa using hfits) hdecode

theorem plainCredentials_plain {username password : Bytes} (hu : username ≠ [] ∧ 0 ∉ username)
    (hp : password ≠ [] ∧ 0 ∉ password) :
    plainCredentials ([] ++ lit "\x00" ++ username ++ lit "\x00" ++ password) =
      some (username, password) := by
  have hsplit : split (join [[], username, password] [0]) 0 = [[], username, password] :=
    splitOn_intercalate 0 (by simp [hu.2, hp.2]) (by simp)
  have hjoin : [] ++ lit "\x00" ++ username ++ lit "\x00" ++ password =
      join [[], username, password] [0] := by
    simp [join, List.intercalate, show lit "\x00" = [0] by decide]
  rw [hjoin]
  simp [plainCredentials, hsplit, hu.1, hp.1]

/-- **Client and server agree on the framing of a SASL exchange.** -/
theorem framing_agrees {μ : Type} (mech : Mechanism μ) :
    (∀ (c : Client μ) (plus : Message) (resp : Bytes), plus.params.head? = some (lit "+") →
      c.Answers mech resp → (encodeBase64 resp).length ≤ 4096 →
      ∀ (env : Env) (s : SessionId) (st : State), (st.srv.session s).capEnabled .sasl = true →
        (st.srv.session s).saslActive = true → (st.srv.session s).saslBuffer = [] →
        Decodes env s resp st (c.handleAuthenticate mech plus).2) ∧
    ∀ (p : Plain) (challenge : Bytes), p.authzID = [] → p.username ≠ [] ∧ 0 ∉ p.username →
      p.password ≠ [] ∧ 0 ∉ p.password →
      ∃ resp done, (p.next challenge).1 = .ok (resp, done) ∧
        plainCredentials resp = some (p.username, p.password) := by
  refine ⟨fun c plus resp hplus hanswers hlen env s st hsasl hactive hbuffer => ?_,
    fun p challenge hauthz hu hp => ⟨_, _, rfl, ?_⟩⟩
  · rw [Client.handleAuthenticate_plus hanswers hplus]
    exact decodes_responseChunks ⟨hsasl, hactive, hbuffer⟩ hlen
  · rw [hauthz]
    exact plainCredentials_plain hu hp

end

section
attribute [local instance] asciiTables

def alice : Client Plain := { saslMech := some { username := lit "alice", password := lit "pw" } }

/-- A session over TLS starts an exchange, and sends other lines after that. -/
def startsExchange (lines : List Bytes) : State :=
  (ircd (newServer withAccount .still)).after (.connect (lit "192.0.2.1:50000") true [] ::
    ([lit "CAP REQ sasl", lit "AUTHENTICATE PLAIN"] ++ lines).map (.line 0))

/-- With a password of 400 bytes, the response takes two lines. -/
theorem framing_agrees_longPassword :
    let p : Plain := { username := lit "alice", password := List.replicate 400 112 }
    let c : Client Plain := { saslMech := some p }
    let sent := (c.handleAuthenticate plain (Client.authenticateMessage (lit "+"))).2
    sent.length = 2 ∧
      Decodes (newServer withAccount .still) 0 (lit "\x00alice\x00" ++ p.password)
        (startsExchange []) sent ∧
      ∃ resp done, (p.next []).1 = .ok (resp, done) ∧
        plainCredentials resp = some (lit "alice", p.password) := by
  intro p c sent
  refine ⟨by decide +kernel, ?_,
    (framing_agrees plain).2 p [] rfl (by decide) (by decide +kernel)⟩
  exact (framing_agrees plain).1 c _ _ rfl ⟨_, rfl, [], rfl, true, rfl⟩ (by decide +kernel) _ 0 _
    (by decide +kernel) (by decide +kernel) (by decide +kernel)

/-- A session that has given up `sasl` in the exchange is refused. -/
theorem not_decodes_without_sasl :
    let st := startsExchange [lit "CAP REQ -sasl"]
    (st.srv.session 0).saslActive = true ∧ (st.srv.session 0).saslBuffer = [] ∧
      alice.Answers plain (lit "\x00alice\x00pw") ∧
      ¬ Decodes (newServer withAccount .still) 0 (lit "\x00alice\x00pw") st
        (alice.handleAuthenticate plain (Client.authenticateMessage (lit "+"))).2 := by
  refine ⟨by decide +kernel, by decide +kernel, ⟨_, rfl, [], rfl, true, rfl⟩, fun h => ?_⟩
  have hsent : (alice.handleAuthenticate plain (Client.authenticateMessage (lit "+"))).2 =
      [Client.authenticateMessage (lit "AGFsaWNlAHB3")] := rfl
  rw [hsent] at h
  cases h with
  | @last _ _ encoded heq hdecode =>
    -- whatever has been decoded to the response, the session would be logged in
    have hsame (st : State) : authenticate 0 encoded (newServer withAccount .still) st =
        authenticate 0 (lit "AGFsaWNlAHB3") (newServer withAccount .still) st := by
      have hdecode' : decodeBase64 (lit "AGFsaWNlAHB3") = some (lit "\x00alice\x00pw") := by decide
      simp only [authenticate, hdecode, hdecode']
    rw [hsame] at heq
    have haccount := congrArg (fun r : Unit × State => (r.2.srv.session 0).account) heq
    revert haccount
    decide +kernel
  | more _ h => cases h

end

end Irc
