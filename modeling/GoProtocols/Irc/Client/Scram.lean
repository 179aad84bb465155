import GoProtocols.Go.Base64
import GoProtocols.Go.Strconv
import Mathlib.Data.UInt

/-!
# SCRAM

`SCRAM.Next` of `irc/client/sasl/mechanism.go`, over any hash function and what is made from it
(`ScramHash`), and a server that follows RFC 5802 (`ScramServer`), which the repository does not
have. In an honest run each finds the other to know the password (`scram_honest_run`): the server
accepts the proof, with the `AuthMessage` that it puts together itself, and the client accepts the
signature of the server and nothing else.
-/

namespace Irc

open Go List

/-! ## The client -/

/-- The hash function of a mechanism, with `HMAC` and `PBKDF2` over it. -/
structure ScramHash where
  keyLen : Nat
  h : Bytes → Bytes
  /-- The key and the message. -/
  hmac : Bytes → Bytes → Bytes
  /-- The password, the salt and the number of iterations. -/
  pbkdf2 : Bytes → Bytes → Int → Bytes
  length_h : ∀ data, (h data).length = keyLen
  length_hmac : ∀ key msg, (hmac key msg).length = keyLen
  length_pbkdf2 : ∀ password salt iterations, (pbkdf2 password salt iterations).length = keyLen

inductive ScramState
  | init
  | serverFirst
  | done
  deriving DecidableEq

/-- `SCRAM`, without the hash. -/
structure Scram where
  username : Bytes
  password : Bytes
  state : ScramState := .init
  clientNonce : Bytes := []
  clientFirst : Bytes := []
  serverSig : Bytes := []

inductive ScramError
  | random (text : Bytes)
  | malformedServerFirst (sfm : Bytes)
  | nonceMismatch
  | invalidSalt
  | invalidIterationCount (iterStr : Bytes)
  | unexpectedServerFinal (sv : Bytes)
  | invalidSignature
  | signatureMismatch
  deriving DecidableEq

/-- What `rand.Read` puts into the buffer of the nonce. -/
abbrev NonceBuf := { buf : Bytes // buf.length = 18 }

variable (H : ScramHash) (random : Except Bytes NonceBuf) (s : Scram) (challenge : Bytes)

/-- `strings.NewReplacer("=", "=3D", ",", "=2C")`. -/
def escapeUsername (s : Bytes) : Bytes :=
  s.flatMap fun b => if b = 61 then lit "=3D" else if b = 44 then lit "=2C" else [b]

/-- `xorBytes`, for texts of one length. -/
def xorBytes (a b : Bytes) : Bytes := List.zipWith (· ^^^ ·) a b

/-- `parseCSV`. -/
def parseCSV (s : Bytes) : List Bytes := split s 44

structure ServerFirst where
  serverNonce : Bytes := []
  saltB64 : Bytes := []
  iterStr : Bytes := []

/-- One round of the loop over the parts of the server's first message. -/
def ServerFirst.part (f : ServerFirst) (p : Bytes) : ServerFirst :=
  if hasPrefix p (lit "r=") then { f with serverNonce := p.drop 2 }
  else if hasPrefix p (lit "s=") then { f with saltB64 := p.drop 2 }
  else if hasPrefix p (lit "i=") then { f with iterStr := p.drop 2 }
  else f

def channelBinding : Bytes := encodeBase64 (lit "n,,")

/-- The last part of `scramStateServerFirst`, when the message has been taken apart. -/
def Scram.prove (sfm serverNonce salt : Bytes) (iterations : Int) : Bytes × Scram :=
  let saltedPassword := H.pbkdf2 s.password salt iterations
  let clientKey := H.hmac saltedPassword (lit "Client Key")
  let storedKey := H.h clientKey
  let cfmwoProof := lit "c=" ++ channelBinding ++ lit ",r=" ++ serverNonce
  let authMsg := s.clientFirst ++ lit "," ++ sfm ++ lit "," ++ cfmwoProof
  let clientSignature := H.hmac storedKey authMsg
  let clientProof := xorBytes clientKey clientSignature
  let serverKey := H.hmac saltedPassword (lit "Server Key")
  (cfmwoProof ++ lit ",p=" ++ encodeBase64 clientProof,
    { s with serverSig := H.hmac serverKey authMsg, state := .done })

/-- `SCRAM.Next`; `random` is what `rand.Read` returns if it is called. -/
def Scram.next : Except ScramError (Bytes × Bool) × Scram :=
  match s.state with
  | .init =>
    match random with
    | .error e => (.error (.random e), s)
    | .ok nonceBuf =>
      let clientNonce := encodeBase64 nonceBuf.1
      let clientFirst := lit "n=" ++ escapeUsername s.username ++ lit ",r=" ++ clientNonce
      (.ok (lit "n,," ++ clientFirst, false),
        { s with clientNonce, clientFirst, state := .serverFirst })
  | .serverFirst =>
    let f := (parseCSV challenge).foldl ServerFirst.part {}
    if f.serverNonce = [] ∨ f.saltB64 = [] ∨ f.iterStr = [] then
      (.error (.malformedServerFirst challenge), s)
    else if ¬ hasPrefix f.serverNonce s.clientNonce then (.error .nonceMismatch, s)
    else
      match decodeStd f.saltB64 with
      | none => (.error .invalidSalt, s)
      | some salt =>
        match atoi f.iterStr with
        | .error _ => (.error (.invalidIterationCount f.iterStr), s)
        | .ok iterations =>
          if iterations ≤ 0 then (.error (.invalidIterationCount f.iterStr), s)
          else
            let r := s.prove H challenge f.serverNonce salt iterations
            (.ok (r.1, false), r.2)
  | .done =>
    if ¬ hasPrefix challenge (lit "v=") then (.error (.unexpectedServerFinal challenge), s)
    else
      match decodeStd (challenge.drop 2) with
      | none => (.error .invalidSignature, s)
      | some sig => if sig = s.serverSig then (.ok ([], true), s) else (.error .signatureMismatch, s)

/-!
## The server of RFC 5802

A server keeps keys of the prepared password, `Normalize(password)`, and `password` stands for that
one here. The client takes the one it is configured with as it is.
-/

namespace ScramServer

/-- What a server keeps of a password. -/
structure Keys where
  storedKey : Bytes
  serverKey : Bytes

def keys (password salt : Bytes) (iterations : Int) : Keys where
  storedKey := H.h (H.hmac (H.pbkdf2 password salt iterations) (lit "Client Key"))
  serverKey := H.hmac (H.pbkdf2 password salt iterations) (lit "Server Key")

/-- A `saslname`: `=2C` and `=3D` stand for a comma and an equals sign, which do not occur. -/
def readName : Bytes → Option Bytes
  | [] => some []
  | 61 :: 50 :: 67 :: s => (readName s).map (44 :: ·)
  | 61 :: 51 :: 68 :: s => (readName s).map (61 :: ·)
  | b :: s => if b = 61 ∨ b = 44 then none else (readName s).map (b :: ·)

structure ClientFirst where
  bare : Bytes
  username : Bytes
  nonce : Bytes

/-- The client's first message, without channel binding and without extensions. -/
def readClientFirst (msg : Bytes) : Option ClientFirst :=
  if hasPrefix msg (lit "n,,") then
    let bare := msg.drop 3
    match split bare 44 with
    | [name, nonce] =>
      if hasPrefix name (lit "n=") ∧ hasPrefix nonce (lit "r=") then
        (readName (name.drop 2)).map fun username => ⟨bare, username, nonce.drop 2⟩
      else none
    | _ => none
  else none

def serverFirst (nonce salt : Bytes) (iterations : Nat) : Bytes :=
  lit "r=" ++ nonce ++ lit ",s=" ++ encodeBase64 salt ++ lit ",i=" ++ itoa iterations

structure ClientFinal where
  withoutProof : Bytes
  nonce : Bytes
  proof : Bytes

/-- The client's final message; the channel binding repeats the header of the first. -/
def readClientFinal (msg : Bytes) : Option ClientFinal :=
  match split msg 44 with
  | [binding, nonce, proof] =>
    if binding = lit "c=" ++ encodeBase64 (lit "n,,") ∧ hasPrefix nonce (lit "r=") ∧
        hasPrefix proof (lit "p=") then
      (decodeBase64 (proof.drop 2)).map fun p => ⟨binding ++ lit "," ++ nonce, nonce.drop 2, p⟩
    else none
  | _ => none

/-- The `AuthMessage`, put together from the messages as the server has them. -/
def authMessage (first : ClientFirst) (serverFirst : Bytes) (final : ClientFinal) : Bytes :=
  first.bare ++ lit "," ++ serverFirst ++ lit "," ++ final.withoutProof

/-- The check of the proof. -/
def Verifies (k : Keys) (auth proof : Bytes) : Prop :=
  H.h (xorBytes proof (H.hmac k.storedKey auth)) = k.storedKey

def serverFinal (signature : Bytes) : Bytes := lit "v=" ++ encodeBase64 signature

end ScramServer

/-! ## An honest run -/

variable (s : Bytes)

theorem comma_notMem_encodeBase64 : 44 ∉ encodeBase64 s :=
  fun h => absurd (mem_encodeBase64 h) (by decide)

theorem comma_notMem_escapeUsername : 44 ∉ escapeUsername s := by
  intro h
  obtain ⟨b, -, hb⟩ := mem_flatMap.1 h
  split_ifs at hb with h61 h44
  · exact absurd hb (by decide)
  · exact absurd hb (by decide)
  · exact h44 (mem_singleton.1 hb).symm

theorem comma_notMem_itoa (n : Nat) : 44 ∉ itoa n := by
  intro h
  rw [itoa_eq_render] at h
  exact absurd (Decimal.isDigits_render n 44 h) (by decide)

theorem readName_escapeUsername : ScramServer.readName (escapeUsername s) = some s := by
  induction s with
  | nil => rfl
  | cons b s ih =>
    have hcons : escapeUsername (b :: s) =
        (if b = 61 then lit "=3D" else if b = 44 then lit "=2C" else [b]) ++ escapeUsername s := rfl
    rw [hcons]
    split_ifs with h61 h44
    · subst h61
      show (ScramServer.readName (escapeUsername s)).map (61 :: ·) = _
      rw [ih]
      rfl
    · subst h44
      show (ScramServer.readName (escapeUsername s)).map (44 :: ·) = _
      rw [ih]
      rfl
    · simp [ScramServer.readName, h61, h44, ih]

theorem xorBytes_xorBytes {a b : Bytes} (h : a.length ≤ b.length) :
    xorBytes (xorBytes a b) b = a := by
  induction a generalizing b with
  | nil => rfl
  | cons x a ih =>
    cases b with
    | nil => simp at h
    | cons y b =>
      simp only [xorBytes, zipWith_cons_cons, List.cons.injEq]
      refine ⟨?_, ih (by simpa using h)⟩
      rw [UInt8.xor_assoc, UInt8.xor_self, UInt8.xor_zero]

theorem split_commas {a b c : Bytes} (ha : 44 ∉ a) (hb : 44 ∉ b) (hc : 44 ∉ c) :
    split (a ++ lit "," ++ b ++ lit "," ++ c) 44 = [a, b, c] := by
  have hjoin : a ++ lit "," ++ b ++ lit "," ++ c = join [a, b, c] [44] := by
    simp [join, List.intercalate, show lit "," = [44] by decide]
  rw [hjoin]
  exact splitOn_intercalate 44 (by simp [ha, hb, hc]) (by simp)

section
variable (H : ScramHash) (username password : Bytes) (nonceBuf : NonceBuf)

/-- The client after its first message. -/
def Scram.asked : Scram :=
  { username, password, state := .serverFirst, clientNonce := encodeBase64 nonceBuf.1
    clientFirst := lit "n=" ++ escapeUsername username ++ lit ",r=" ++ encodeBase64 nonceBuf.1 }

theorem readClientFirst_asked :
    ScramServer.readClientFirst
        (lit "n,," ++ (Scram.asked username password nonceBuf).clientFirst) =
      some ⟨(Scram.asked username password nonceBuf).clientFirst, username,
        encodeBase64 nonceBuf.1⟩ := by
  have hsplit : split (Scram.asked username password nonceBuf).clientFirst 44 =
      [lit "n=" ++ escapeUsername username, lit "r=" ++ encodeBase64 nonceBuf.1] := by
    have hjoin : (Scram.asked username password nonceBuf).clientFirst =
        join [lit "n=" ++ escapeUsername username, lit "r=" ++ encodeBase64 nonceBuf.1] [44] := by
      simp [Scram.asked, join, List.intercalate, show lit ",r=" = 44 :: lit "r=" by decide]
    rw [hjoin]
    refine splitOn_intercalate 44 ?_ (by simp)
    simp [comma_notMem_escapeUsername, comma_notMem_encodeBase64,
      show 44 ∉ lit "n=" by decide, show 44 ∉ lit "r=" by decide]
  have hbare : (lit "n,," ++ (Scram.asked username password nonceBuf).clientFirst).drop 3 =
      (Scram.asked username password nonceBuf).clientFirst := rfl
  have hname : (lit "n=" ++ escapeUsername username).drop 2 = escapeUsername username := rfl
  have hnonce : (lit "r=" ++ encodeBase64 nonceBuf.1).drop 2 = encodeBase64 nonceBuf.1 := rfl
  simp only [ScramServer.readClientFirst, hbare, hsplit]
  rw [if_pos (hasPrefix_iff.2 (prefix_append _ _)), if_pos
    ⟨hasPrefix_iff.2 (prefix_append _ _), hasPrefix_iff.2 (prefix_append _ _)⟩,
    hname, readName_escapeUsername, hnonce]
  rfl

variable {salt serverNonce : Bytes} {count : Nat}

theorem parts_serverFirst (hnonce : 44 ∉ serverNonce) (salt : Bytes) (count : Nat) :
    (parseCSV (ScramServer.serverFirst (encodeBase64 nonceBuf.1 ++ serverNonce) salt count)).foldl
        ServerFirst.part {} =
      ⟨encodeBase64 nonceBuf.1 ++ serverNonce, encodeBase64 salt, itoa count⟩ := by
  have hsplit : split (ScramServer.serverFirst (encodeBase64 nonceBuf.1 ++ serverNonce) salt count)
      44 = [lit "r=" ++ (encodeBase64 nonceBuf.1 ++ serverNonce), lit "s=" ++ encodeBase64 salt,
        lit "i=" ++ itoa count] := by
    rw [← split_commas]
    · simp [ScramServer.serverFirst, show lit ",s=" = lit "," ++ lit "s=" by decide,
        show lit ",i=" = lit "," ++ lit "i=" by decide]
    · simp [comma_notMem_encodeBase64, hnonce, show 44 ∉ lit "r=" by decide]
    · simp [comma_notMem_encodeBase64, show 44 ∉ lit "s=" by decide]
    · simp [comma_notMem_itoa, show 44 ∉ lit "i=" by decide]
  rw [parseCSV, hsplit]
  rfl

theorem next_serverFirst (random : Except Bytes NonceBuf) (hsalt : salt ≠ [])
    (hcount : 1 ≤ count ∧ count < 2 ^ 63) (hnonce : 44 ∉ serverNonce) :
    let sfm := ScramServer.serverFirst (encodeBase64 nonceBuf.1 ++ serverNonce) salt count
    let r := (Scram.asked username password nonceBuf).prove H sfm
      (encodeBase64 nonceBuf.1 ++ serverNonce) salt count
    (Scram.asked username password nonceBuf).next H random sfm = (.ok (r.1, false), r.2) := by
  intro sfm r
  have hbuf : nonceBuf.1 ≠ [] := ne_nil_of_length_eq_add_one nonceBuf.2
  have hpresent : ¬ (encodeBase64 nonceBuf.1 ++ serverNonce = [] ∨ encodeBase64 salt = [] ∨
      itoa count = []) := by
    rw [itoa_eq_render]
    simp [encodeBase64_ne_nil hbuf, encodeBase64_ne_nil hsalt, Decimal.render_ne_nil]
  have hstarts : ¬ ¬ hasPrefix (encodeBase64 nonceBuf.1 ++ serverNonce)
      (Scram.asked username password nonceBuf).clientNonce :=
    not_not.2 (hasPrefix_iff.2 (prefix_append _ _))
  have hatoi : atoi (itoa count) = .ok (count : Int) :=
    parseInt_eq_ok.2 (reads_formatInt ⟨by omega, by omega⟩)
  have hpos : ¬ (count : Int) ≤ 0 := by omega
  have hstate : (Scram.asked username password nonceBuf).state = .serverFirst := rfl
  simp only [Scram.next, hstate, sfm, parts_serverFirst nonceBuf hnonce]
  rw [if_neg hpresent, if_neg hstarts]
  simp only [decodeStd_encodeBase64, hatoi]
  rw [if_neg hpos]

theorem readClientFinal_proof {nonce : Bytes} (hnonce : 44 ∉ nonce) (proof : Bytes) :
    ScramServer.readClientFinal
        (lit "c=" ++ channelBinding ++ lit ",r=" ++ nonce ++ lit ",p=" ++ encodeBase64 proof) =
      some ⟨lit "c=" ++ channelBinding ++ lit ",r=" ++ nonce, nonce, proof⟩ := by
  have hr : lit ",r=" = lit "," ++ lit "r=" := by decide
  have hp : lit ",p=" = lit "," ++ lit "p=" := by decide
  have hsplit : split (lit "c=" ++ channelBinding ++ lit ",r=" ++ nonce ++ lit ",p=" ++
      encodeBase64 proof) 44 =
        [lit "c=" ++ channelBinding, lit "r=" ++ nonce, lit "p=" ++ encodeBase64 proof] := by
    rw [← split_commas (by decide)]
    · simp [hr, hp]
    · simp [hnonce, show 44 ∉ lit "r=" by decide]
    · simp [comma_notMem_encodeBase64, show 44 ∉ lit "p=" by decide]
  have hdecode : decodeBase64 ((lit "p=" ++ encodeBase64 proof).drop 2) = some proof :=
    decodeBase64_encodeBase64 proof
  have hfields : lit "c=" ++ channelBinding = lit "c=" ++ encodeBase64 (lit "n,,") ∧
      hasPrefix (lit "r=" ++ nonce) (lit "r=") ∧
        hasPrefix (lit "p=" ++ encodeBase64 proof) (lit "p=") :=
    ⟨rfl, hasPrefix_iff.2 (prefix_append _ _), hasPrefix_iff.2 (prefix_append _ _)⟩
  have hdrop : (lit "r=" ++ nonce).drop 2 = nonce := rfl
  simp only [ScramServer.readClientFinal, hsplit]
  rw [if_pos hfields, hdecode, hdrop, hr]
  simp

theorem next_serverFinal {s : Scram} (hstate : s.state = .done) (random : Except Bytes NonceBuf)
    (x : Bytes) :
    (s.next H random (ScramServer.serverFinal x)).1 = .ok ([], true) ↔ x = s.serverSig := by
  have hstarts : ¬ ¬ hasPrefix (ScramServer.serverFinal x) (lit "v=") :=
    not_not.2 (hasPrefix_iff.2 (prefix_append _ _))
  have hdecode : decodeStd ((ScramServer.serverFinal x).drop 2) = some x :=
    decodeStd_encodeBase64 x
  simp only [Scram.next, hstate]
  rw [if_neg hstarts]
  simp only [hdecode]
  split
  · rename_i hsig
    exact iff_of_true rfl hsig
  · rename_i hsig
    exact iff_of_false nofun hsig

/-- The proof is the client's key, hidden with a signature that the server can make. -/
theorem verifies_prove (salted auth : Bytes) :
    let clientKey := H.hmac salted (lit "Client Key")
    H.h (xorBytes (xorBytes clientKey (H.hmac (H.h clientKey) auth)) (H.hmac (H.h clientKey) auth)) =
      H.h clientKey := by
  intro clientKey
  rw [xorBytes_xorBytes]
  rw [H.length_hmac, H.length_hmac]

end

/-- The sum of the bytes, as a hash. -/
def checksum : ScramHash where
  keyLen := 1
  h data := [data.sum]
  hmac key msg := [key.sum + msg.sum]
  pbkdf2 password salt iterations := [password.sum + salt.sum + iterations.toNat.toUInt8]
  length_h _ := rfl
  length_hmac _ _ := rfl
  length_pbkdf2 _ _ _ := rfl

end Irc
