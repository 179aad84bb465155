import GoProtocols.Ftp.Scanner
import GoProtocols.Ftp.Session

/-!
# The FTP client

The client of `ftp/client`, connected to a session of the server: `Link` is the control connection
with the session at its other end. What the client writes is served at once, and the replies wait
until it reads them, in the order in which they were written; a client that reads when none is there
gets an error, as it does after the timeout.

The helpers that return the text of a reply return nothing, since the scanner leaves that field
empty (`askFor_ok`).
-/

namespace Ftp

open Go

/-! ## The control connection -/

structure Link (W : Type) where
  server : State W
  /-- `serve` has not returned. -/
  serving : Bool := true
  /-- The replies that the client has not read. -/
  unread : Bytes := []

/-- `Command.String`: the wire form. -/
def Command.wire (c : Command) : Bytes :=
  if c.arg = [] then c.name ++ lit "\r\n" else c.name ++ lit " " ++ c.arg ++ lit "\r\n"

/-- The complete lines of a text, each with its break. -/
def completeLines : Nat → Bytes → List Bytes
  | 0, _ => []
  | fuel + 1, text =>
    match readString 10 text with
    | none => []
    | some (line, rest) => line :: completeLines fuel rest

section
variable [UnicodeTables] {W : Type} (cfg : Config W) (path : Bytes) (l : Link W) (text : Bytes)
  {α : Type} (name arg : Bytes) (code : Nat) (r : Reply)

/-- The server reads a line. A reply whose write failed counts as written: the client does not fare
worse for it. -/
def Link.deliver (line : Bytes) : Link W :=
  if l.serving then
    let r := serveLine cfg l.server line
    { server := r.1, serving := r.2
      unread := l.unread ++ (r.1.replies.drop l.server.replies.length).flatMap Reply.wire }
  else l

/-- The client writes a text. -/
def Link.send : Link W :=
  (completeLines text.length text).foldl (Link.deliver cfg) l

/-! ## Commands -/

/-- An error of the client: a reply that is not the expected one, or the text of another error. -/
inductive ClientError
  | reply (r : Reply)
  | text (e : Bytes)
  deriving DecidableEq

structure Client (W : Type) where
  host : Bytes
  disableEPSV : Bool := false
  /-- `net.DialTimeout`. -/
  dial : Bytes → Ask W (Except Bytes Unit)

abbrev Op (W α : Type) := Link W → Except ClientError α × Link W

/-- `Client.readReply`. -/
def Link.readReply : Op W Reply := fun l =>
  match Ftp.readReply l.unread with
  | .error e => (.error (.text e), l)
  | .ok (r, rest) => (.ok r, { l with unread := rest })

/-- `Client.Do`. -/
def exchange : Op W Reply := fun l =>
  Link.readReply (l.send cfg (Command.wire { name, arg }))

/-- The helpers that want one code and return something of the reply. -/
def askFor (f : Reply → Except ClientError α) : Op W α :=
  fun l =>
    match exchange cfg name arg l with
    | (.error e, l) => (.error e, l)
    | (.ok reply, l) => if reply.code ≠ code then (.error (.reply reply), l) else (f reply, l)

def unwrapQuoted (s : Bytes) : Bytes :=
  let s := trimSpace s
  if hasPrefix s (lit "\"") && (lit "\"").isSuffixOf s && 2 ≤ s.length then (s.drop 1).dropLast
  else s

namespace Client

def pwd : Op W Bytes :=
  askFor cfg (lit "PWD") [] codePathCreated fun r => .ok (unwrapQuoted r.text)

def mkd : Op W Bytes :=
  askFor cfg (lit "MKD") path codePathCreated fun r => .ok (unwrapQuoted r.text)

def mdtm : Op W Bytes :=
  askFor cfg (lit "MDTM") path codeFileStatus fun r => .ok (trimSpace r.text)

def size : Op W Int :=
  askFor cfg (lit "SIZE") path codeFileStatus fun r =>
    (parseInt (trimSpace r.text)).mapError fun _ => .text (lit "strconv.ParseInt")

end Client

/-! ## Data connections -/

/-- The last line of a reply, or its text. -/
def Reply.lastLine : Bytes := r.lines.getLastD r.text

/-- What stands between the first opening and the last closing bracket. -/
def bracketed : Option Bytes :=
  match text.idxOf? 40, lastIndexByte text 41 with
  | some opening, some closing =>
    if closing ≤ opening then none else some ((text.take closing).drop (opening + 1))
  | _, _ => none

def parseEPSVReply : Except Bytes Bytes :=
  let malformed := lit "ftp: malformed EPSV reply " ++ quote r.lastLine
  if r.code ≠ codeEnterEPSV then .error (lit "ftp: expected 229, got " ++ itoa r.code)
  else
    match (bracketed r.lastLine).map (split · 124) with
    | some [a, b, port, _] => if a ≠ [] ∨ b ≠ [] then .error malformed else .ok port
    | some [a, b, _, port, _] => if a ≠ [] ∨ b ≠ [] then .error malformed else .ok port
    | _ => .error malformed

def parsePASVReply : Except Bytes (Bytes × Int64) :=
  let malformed := lit "ftp: malformed PASV reply " ++ quote r.lastLine
  if r.code ≠ codeEnterPASV then .error (lit "ftp: expected 227, got " ++ itoa r.code)
  else
    match (bracketed r.lastLine).map (split · 44) with
    | some [h1, h2, h3, h4, p1, p2] =>
      match atoi (trimSpace p1), atoi (trimSpace p2) with
      | .ok n1, .ok n2 =>
        .ok (join [h1, h2, h3, h4] (lit "."), Int64.ofInt n1 * 256 + Int64.ofInt n2)
      | _, _ => .error malformed
    | _ => .error malformed

namespace Client

variable (c : Client W) (name path : Bytes)

def pasv : Op W (Bytes × Int64) := fun l =>
  match exchange cfg (lit "PASV") [] l with
  | (.error e, l) => (.error e, l)
  | (.ok reply, l) => ((parsePASVReply reply).mapError .text, l)

/-- The port of a `PASV` that stands for an `EPSV`. -/
def pasvPort : Op W Int64 := fun l => ((pasv cfg l).1.map Prod.snd, (pasv cfg l).2)

def epsv : Op W Int64 := fun l =>
  if c.disableEPSV then pasvPort cfg l
  else
    match exchange cfg (lit "EPSV") [] l with
    | (.error e, l) => (.error e, l)
    | (.ok reply, l) =>
      if reply.code = codeCommandNotImpl ∨ reply.code = 500 then pasvPort cfg l
      else
        match parseEPSVReply reply with
        | .error e => (.error (.text e), l)
        | .ok port =>
          ((atoi port).mapError (fun _ => .text (lit "strconv.Atoi")) |>.map Int64.ofInt, l)

/-- `openDataPassive` and `dialDataPassive`: the address of the connection. -/
def dialDataPassive : Op W Bytes := fun l =>
  match c.epsv cfg l with
  | (.error e, l) => (.error e, l)
  | (.ok port, l) =>
    let addr := joinHostPort c.host (formatInt port.toInt)
    match c.dial addr l.server.world with
    | (.error e, world) =>
      (.error (.text (lit "ftp: dial data: " ++ e)), { l with server.world := world })
    | (.ok _, world) => (.ok addr, { l with server.world := world })

/-- The transfers, which differ in the command: open a data connection once the server has accepted
the command. -/
def transfer : Op W Bytes := fun l =>
  match exchange cfg name path l with
  | (.error e, l) => (.error e, l)
  | (.ok reply, l) =>
    if reply.code ≠ codeDataOpen then (.error (.reply reply), l) else c.dialDataPassive cfg l

/-- `Client.Retr`: the connection of the reader. -/
def retr : Op W Bytes := c.transfer cfg (lit "RETR") path

/-- `Client.Stor`: the connection of the writer. -/
def stor : Op W Bytes := c.transfer cfg (lit "STOR") path

end Client

/-! ## Helpers without text -/

variable {cfg} {name arg : Bytes} {l : Link W} {dir : Bytes}

theorem text_exchange {reply : Reply} (h : (exchange cfg name arg l).1 = .ok reply) :
    reply.text = [] := by
  simp only [exchange, Link.readReply] at h
  split at h
  · cases h
  · rename_i hread
    cases h
    exact text_readReply hread

theorem askFor_ok {code : Nat} {f : Reply → Except ClientError α} {a : α}
    (h : (askFor cfg name arg code f l).1 = .ok a) :
    ∃ reply, reply.text = [] ∧ f reply = .ok a := by
  simp only [askFor] at h
  split at h
  · cases h
  · rename_i reply l' hx
    split at h
    · cases h
    · exact ⟨reply, text_exchange (congrArg Prod.fst hx), h⟩

namespace Client

variable {path : Bytes} {l : Link W}

theorem size_error {n : Int} : (size cfg path l).1 ≠ .ok n := by
  intro h
  obtain ⟨reply, htext, hn⟩ := askFor_ok h
  rw [htext] at hn
  cases hn

end Client

end

end Ftp
