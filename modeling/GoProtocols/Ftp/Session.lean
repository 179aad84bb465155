import GoProtocols.Ftp.Fs
import GoProtocols.Ftp.Wire
import GoProtocols.Go.Net

/-!
# The FTP session

The control connection of `ftp/server/session.go`: the session's fields, every command of
`dispatch`, and the loop of `serve`. The authenticator, the filesystem and the network answer from a
world `W` (`Config`). Next to the session the state records what an observer sees: the calls the
session made on the filesystem, the replies it wrote, and what it sent over data connections.
-/

namespace Ftp

open Go

/-- The network as the session uses it. `accept` and `dial` give what the client will send over the
data connection; `write` writes to the control connection. -/
structure Net (W : Type) where
  listen : Bytes → Ask W (Except Bytes Bytes)
  accept : Nat → Ask W (Except Bytes Bytes)
  dial : Bytes → Ask W (Except Bytes Bytes)
  write : Bytes → Ask W (Except Bytes Unit)

structure Config (W : Type) where
  banner : Bytes
  welcomeMessage : Bytes
  passivePortStart : Nat
  passivePortEnd : Nat
  authenticate : Bytes → Bytes → Ask W (Except Bytes User)
  filesystem : Filesystem W
  net : Net W

/-- `passiveListener`: a listener, by its number, or the address of the client. -/
structure PassiveListener where
  ln : Option Nat := none
  remote : Bytes := []

structure Session where
  user : Bytes := []
  auth : User := {}
  logged : Bool := false
  cwd : Bytes := lit "/"
  renameTo : Bytes := []
  rest : Int64 := 0
  type_ : Bytes := lit "A"
  passive : Option PassiveListener := none
  dataTLS : Bool := false

/-- A call of the session on the filesystem. -/
inductive FsCall
  | resolve (u : User) (cwd arg : Bytes)
  | stat (u : User) (path : Bytes)
  | list (u : User) (path : Bytes)
  | mkdir (u : User) (path : Bytes)
  | remove (u : User) (path : Bytes)
  | rename (u : User) (src dst : Bytes)
  | sendFile (u : User) (path : Bytes) (offset : Int64)
  | recvFile (u : User) (path : Bytes)
  | appendFile (u : User) (path : Bytes)

def FsCall.user : FsCall → User
  | .resolve u _ _ | .stat u _ | .list u _ | .mkdir u _ | .remove u _ | .rename u _ _
  | .sendFile u _ _ | .recvFile u _ | .appendFile u _ => u

/-- The resolved paths of the call. -/
def FsCall.paths : FsCall → List Bytes
  | .resolve _ _ _ => []
  | .rename _ src dst => [src, dst]
  | .stat _ path | .list _ path | .mkdir _ path | .remove _ path | .sendFile _ path _
  | .recvFile _ path | .appendFile _ path => [path]

structure State (W : Type) where
  world : W
  session : Session := {}
  calls : List FsCall := []
  replies : List Reply := []
  dataSent : List Bytes := []
  /-- The listeners opened so far; the session closes none of them. -/
  listeners : Nat := 0

/-- Why a command ends without success: `errQuit`, or the error of a write. -/
inductive Stop
  | quit
  | err (text : Bytes)

abbrev Res (W : Type) := State W × Except Stop Unit

/-! ## Commands -/

inductive Verb
  | USER | PASS | QUIT | NOOP | SYST | FEAT | HELP | PWD | CWD | CDUP | TYPE | PASV | EPSV | PORT
  | EPRT | LIST | NLST | RETR | STOR | APPE | DELE | RMD | MKD | RNFR | RNTO | REST | SIZE | MDTM
  | AUTH | PBSZ | PROT | CCC
  /-- Every other name. -/
  | other
  deriving DecidableEq

def verbs : List (Bytes × Verb) :=
  [(lit "USER", .USER), (lit "PASS", .PASS), (lit "QUIT", .QUIT), (lit "NOOP", .NOOP),
    (lit "SYST", .SYST), (lit "FEAT", .FEAT), (lit "HELP", .HELP), (lit "PWD", .PWD),
    (lit "CWD", .CWD), (lit "CDUP", .CDUP), (lit "TYPE", .TYPE), (lit "PASV", .PASV),
    (lit "EPSV", .EPSV), (lit "PORT", .PORT), (lit "EPRT", .EPRT), (lit "LIST", .LIST),
    (lit "NLST", .NLST), (lit "RETR", .RETR), (lit "STOR", .STOR), (lit "APPE", .APPE),
    (lit "DELE", .DELE), (lit "RMD", .RMD), (lit "MKD", .MKD), (lit "RNFR", .RNFR),
    (lit "RNTO", .RNTO), (lit "REST", .REST), (lit "SIZE", .SIZE), (lit "MDTM", .MDTM),
    (lit "AUTH", .AUTH), (lit "PBSZ", .PBSZ), (lit "PROT", .PROT), (lit "CCC", .CCC)]

def verbOf (name : Bytes) : Verb := (verbs.lookup name).getD .other

/-- The commands `dispatch` lets through before login. -/
def Verb.beforeLogin : Verb → Bool
  | .USER | .PASS | .QUIT | .AUTH | .FEAT | .NOOP | .HELP | .SYST | .PBSZ | .PROT | .CCC => true
  | _ => false

section
variable {W : Type} (cfg : Config W) (st : State W) (arg : Bytes) {α : Type}
  (call : User → Bytes → FsCall) (method : User → Bytes → Ask W (Except Bytes α))
  (done : Bytes → α → Reply) (k : Bytes → State W → Res W)

/-- `session.reply`. -/
def State.reply (r : Reply) : Res W :=
  match cfg.net.write r.wire st.world with
  | (.ok _, world) => ({ st with world, replies := st.replies ++ [r] }, .ok ())
  | (.error e, world) => ({ st with world, replies := st.replies ++ [r] }, .error (.err e))

/-- Call the filesystem. -/
def State.ask (st : State W) (c : FsCall) (q : Ask W α) : α × State W :=
  ((q st.world).1, { st with world := (q st.world).2, calls := st.calls ++ [c] })

/-- Resolve the argument of a command and go on with the target. -/
def withTarget : Res W :=
  match st.ask (.resolve st.session.auth st.session.cwd arg)
      (cfg.filesystem.resolve st.session.auth st.session.cwd arg) with
  | (.error e, st) => st.reply cfg (newReply codeFileUnavailable e)
  | (.ok target, st) => k target st

/-! ## Login and directory -/

def handleUSER : Res W :=
  { st with session.user := arg, session.auth := {}, session.logged := false }.reply cfg
    (newReply codeUserOK (lit "Password required"))

def handlePASS : Res W :=
  if st.session.user = [] then
    st.reply cfg (newReply codeNotLoggedInReq (lit "Login with USER first"))
  else
    match cfg.authenticate st.session.user arg st.world with
    | (.error e, world) => { st with world }.reply cfg (newReply 530 e)
    | (.ok u, world) =>
      let msg := if cfg.welcomeMessage = [] then lit "Login successful" else cfg.welcomeMessage
      { st with world, session.auth := u, session.logged := true, session.cwd := lit "/" }.reply
        cfg (newReply codeLoginOK msg)

def cwd2 : Res W :=
  withTarget cfg st arg fun target st =>
    match st.ask (.stat st.session.auth target) (cfg.filesystem.stat st.session.auth target) with
    | (.error e, st) => st.reply cfg (newReply codeFileUnavailable e)
    | (.ok stat, st) =>
      if stat.isDir then
        { st with session.cwd := target }.reply cfg
          (newReply codeRequestedAction (lit "CWD successful"))
      else st.reply cfg (newReply codeFileUnavailable (lit "Not a directory"))

def type2 [UnicodeTables] (st : State W) (arg : Bytes) : Res W :=
  let arg := toUpper arg
  if arg ≠ lit "A" ∧ arg ≠ lit "I" then
    st.reply cfg (newReply codeSyntaxError (lit "Unsupported type"))
  else
    { st with session.type_ := arg }.reply cfg (newReply 200 (lit "Type set to " ++ arg))

def rest2 : Res W :=
  match parseInt (trimSpace arg) with
  | .error _ => st.reply cfg (newReply codeSyntaxError (lit "Bad REST"))
  | .ok off =>
    { st with session.rest := Int64.ofInt off }.reply cfg (newReply 350 (lit "Restart ok"))

def prot [UnicodeTables] (st : State W) (arg : Bytes) : Res W :=
  let up := toUpper arg
  if up = lit "C" then
    { st with session.dataTLS := false }.reply cfg (newReply 200 (lit "PROT " ++ up))
  else if up = lit "P" then
    { st with session.dataTLS := true }.reply cfg (newReply 200 (lit "PROT " ++ up))
  else st.reply cfg (newReply codeSyntaxError (lit "Bad PROT"))

/-! ## Data connections -/

/-- The ports of the configured range, up to the first on which listening succeeds. -/
def listenRange : List Nat → Ask W (Except Bytes Bytes)
  | [], w => (.error (lit "no passive port available"), w)
  | port :: ports, w =>
    match cfg.net.listen (lit "0.0.0.0:" ++ itoa port) w with
    | (.ok addr, w) => (.ok addr, w)
    | (.error _, w) => listenRange ports w

def openPassive : Ask W (Except Bytes Bytes) :=
  if 0 < cfg.passivePortEnd then
    listenRange cfg ((List.range (cfg.passivePortEnd + 1)).filter (cfg.passivePortStart ≤ ·))
  else cfg.net.listen (lit "0.0.0.0:0")

/-- A new passive listener, announced with a reply made from its address. -/
def passiveReply (announce : Bytes → Reply) : Res W :=
  match openPassive cfg st.world with
  | (.error e, world) => { st with world }.reply cfg (newReply codeCantOpenData e)
  | (.ok addr, world) =>
    { st with
      world, listeners := st.listeners + 1
      session.passive := some { ln := some st.listeners } }.reply cfg (announce addr)

/-- `mustAtoi`, on the port of a listener. -/
def mustAtoi (s : Bytes) : Int :=
  match atoi s with
  | .ok n => n
  | .error _ => 0

def pasv : Res W :=
  passiveReply cfg st fun addr =>
    let host := (splitHostPort addr).1
    let port := mustAtoi (splitHostPort addr).2
    newReply codeEnterPASV (lit "Entering Passive Mode (" ++ replaceAll host 46 (lit ",") ++
      lit "," ++ formatInt (port.tdiv 256) ++ lit "," ++ formatInt (port.tmod 256) ++ lit ").")

def epsv : Res W :=
  passiveReply cfg st fun addr =>
    newReply codeEnterEPSV
      (lit "Entering Extended Passive Mode (|||" ++ (splitHostPort addr).2 ++ lit "|).")

def parsePORT : Except Bytes (Bytes × Int64) :=
  match split arg 44 with
  | [h1, h2, h3, h4, p1, p2] =>
    match atoi (trimSpace p1), atoi (trimSpace p2) with
    | .ok n1, .ok n2 =>
      .ok (join [h1, h2, h3, h4] (lit "."), Int64.ofInt n1 * 256 + Int64.ofInt n2)
    | _, _ => .error (lit "bad PORT")
  | _ => .error (lit "bad PORT")

def port (st : State W) (arg : Bytes) : Res W :=
  match parsePORT arg with
  | .error e => st.reply cfg (newReply codeSyntaxError e)
  | .ok (host, port) =>
    { st with session.passive := some { remote := joinHostPort host (formatInt port.toInt) } }.reply
      cfg (newReply 200 (lit "PORT command successful"))

def eprt : Res W :=
  match split arg 124 with
  | [_, host, port, _] =>
    match atoi port with
    | .error _ => st.reply cfg (newReply codeSyntaxError (lit "Bad EPRT port"))
    | .ok port =>
      { st with session.passive := some { remote := joinHostPort host (formatInt port) } }.reply cfg
        (newReply 200 (lit "EPRT command successful"))
  | _ => st.reply cfg (newReply codeSyntaxError (lit "Bad EPRT"))

def acceptData : Except Bytes Bytes × State W :=
  match st.session.passive with
  | none => (.error (lit "no data channel set up"), st)
  | some p =>
    match p.ln with
    | some ln =>
      ((cfg.net.accept ln st.world).1,
        { st with world := (cfg.net.accept ln st.world).2, session.passive := none })
    | none =>
      if p.remote ≠ [] then
        ((cfg.net.dial p.remote st.world).1,
          { st with world := (cfg.net.dial p.remote st.world).2, session.passive := none })
      else (.error (lit "no data channel"), st)

/-- Open the data connection, announce it, and go on with what the client sends over it. -/
def withData : Res W :=
  match acceptData cfg st with
  | (.error e, st) => st.reply cfg (newReply codeCantOpenData e)
  | (.ok data, st) =>
    match st.reply cfg (newReply codeDataOpen (lit "Opening data connection")) with
    | (st, .error e) => (st, .error e)
    | (st, .ok _) => k data st

def formatListEntry (e : Entry) : Bytes :=
  let mode := if e.isDir then lit "drwxr-xr-x" else lit "-rw-r--r--"
  mode ++ lit "   1 " ++ padRight 8 e.owner ++ lit " " ++ padRight 8 e.group ++ lit " " ++
    padLeft 12 (formatInt e.size.toInt) ++ lit " " ++ e.modTime.formatListing ++ lit " " ++ e.name

/-- The listing itself, once the directory is known; errors of writes to the data connection are
dropped. -/
def listTarget (target : Bytes) (st : State W) : Res W :=
  match st.ask (.list st.session.auth target) (cfg.filesystem.list st.session.auth target) with
  | (.error e, st) => st.reply cfg (newReply codeFileUnavailable e)
  | (.ok entries, st) =>
    withData cfg st fun _ st =>
      let listing := entries.flatMap fun e => formatListEntry e ++ lit "\r\n"
      { st with dataSent := st.dataSent ++ [listing] }.reply cfg
        (newReply codeDataClose (lit "Transfer complete"))

def list : Res W :=
  if arg = [] then listTarget cfg st.session.cwd st else withTarget cfg st arg (listTarget cfg)

def retr : Res W :=
  withTarget cfg st arg fun target st =>
    withData cfg st fun _ st =>
      match st.ask (.sendFile st.session.auth target st.session.rest)
          (cfg.filesystem.sendFile st.session.auth target st.session.rest) with
      | ((sent, .error e), st) =>
        (({ st with dataSent := st.dataSent ++ [sent] }.reply cfg (newReply codeConnClosed e)).1,
          .ok ())
      | ((sent, .ok _), st) =>
        { st with dataSent := st.dataSent ++ [sent] }.reply cfg
          (newReply codeDataClose (lit "Transfer complete"))

/-- `stor` and `appe`: the transfers that differ in the method they call. -/
def upload (method : User → Bytes → Bytes → Ask W (Except Bytes Unit)) (st : State W)
    (arg : Bytes) : Res W :=
  withTarget cfg st arg fun target st =>
    withData cfg st fun data st =>
      match st.ask (call st.session.auth target) (method st.session.auth target data) with
      | (.error e, st) => ((st.reply cfg (newReply codeStorageExceeded e)).1, .ok ())
      | (.ok _, st) => st.reply cfg (newReply codeDataClose (lit "Transfer complete"))

def stor : State W → Bytes → Res W := upload cfg .recvFile cfg.filesystem.recvFile

def appe : State W → Bytes → Res W := upload cfg .appendFile cfg.filesystem.appendFile

/-! ## Files -/

/-- The commands that make one call on their target and reply with its answer. -/
def askTarget (st : State W) (arg : Bytes) : Res W :=
  withTarget cfg st arg fun target st =>
    match st.ask (call st.session.auth target) (method st.session.auth target) with
    | (.error e, st) => st.reply cfg (newReply codeFileUnavailable e)
    | (.ok a, st) => st.reply cfg (done target a)

def dele : State W → Bytes → Res W :=
  askTarget cfg .remove cfg.filesystem.remove fun _ _ => newReply 250 (lit "Deleted")

def rmd : State W → Bytes → Res W :=
  askTarget cfg .remove cfg.filesystem.remove fun _ _ => newReply 250 (lit "Removed")

def mkd [UnicodeTables] : State W → Bytes → Res W :=
  askTarget cfg .mkdir cfg.filesystem.mkdir fun target _ =>
    newReply codePathCreated (quote target ++ lit " created")

def size : State W → Bytes → Res W :=
  askTarget cfg .stat cfg.filesystem.stat fun _ st =>
    newReply codeFileStatus (formatInt st.size.toInt)

def mdtm : State W → Bytes → Res W :=
  askTarget cfg .stat cfg.filesystem.stat fun _ st =>
    newReply codeFileStatus st.modTime.utc.formatCompact

def rnfr : Res W :=
  withTarget cfg st arg fun target st =>
    { st with session.renameTo := target }.reply cfg (newReply 350 (lit "RNFR accepted"))

def rnto : Res W :=
  if st.session.renameTo = [] then
    st.reply cfg (newReply codeSyntaxError (lit "Bad sequence"))
  else
    withTarget cfg st arg fun target st =>
      match st.ask (.rename st.session.auth st.session.renameTo target)
          (cfg.filesystem.rename st.session.auth st.session.renameTo target) with
      | (.error e, st) => st.reply cfg (newReply codeFileUnavailable e)
      | (.ok _, st) =>
        { st with session.renameTo := [] }.reply cfg (newReply 250 (lit "Rename ok"))

/-! ## The session -/

def dispatch [UnicodeTables] (st : State W) (c : Command) : Res W :=
  if ¬ st.session.logged ∧ ¬ (verbOf c.name).beforeLogin then
    (st, .error (.err (lit "please log in")))
  else
    match verbOf c.name with
    | .USER => handleUSER cfg st c.arg
    | .PASS => handlePASS cfg st c.arg
    | .QUIT => ((st.reply cfg (newReply codeGoodbye (lit "Goodbye"))).1, .error .quit)
    | .NOOP => st.reply cfg (newReply codeOK (lit "NOOP ok"))
    | .SYST => st.reply cfg (newReply 215 (lit "UNIX Type: L8"))
    | .FEAT => st.reply cfg (newMultiLine 211 [lit "End"])
    | .HELP => st.reply cfg (newReply 214 (lit "Help me help you"))
    | .PWD => st.reply cfg (newReply codePathCreated (quote st.session.cwd))
    | .CWD => cwd2 cfg st c.arg
    | .CDUP => cwd2 cfg st (lit "..")
    | .TYPE => type2 cfg st c.arg
    | .PASV => pasv cfg st
    | .EPSV => epsv cfg st
    | .PORT => port cfg st c.arg
    | .EPRT => eprt cfg st c.arg
    | .LIST | .NLST => list cfg st c.arg
    | .RETR => retr cfg st c.arg
    | .STOR => stor cfg st c.arg
    | .APPE => appe cfg st c.arg
    | .DELE => dele cfg st c.arg
    | .RMD => rmd cfg st c.arg
    | .MKD => mkd cfg st c.arg
    | .RNFR => rnfr cfg st c.arg
    | .RNTO => rnto cfg st c.arg
    | .REST => rest2 cfg st c.arg
    | .SIZE => size cfg st c.arg
    | .MDTM => mdtm cfg st c.arg
    | .AUTH => st.reply cfg (newReply codeCommandNotImpl (lit "AUTH not supported on this server"))
    | .PBSZ => st.reply cfg (newReply 200 (lit "PBSZ set to 0"))
    | .PROT => prot cfg st c.arg
    | .CCC | .other => st.reply cfg (newReply codeCommandNotImpl (lit "Not implemented"))

/-- One round of the loop of `serve`, and whether it goes on. -/
def serveLine [UnicodeTables] (st : State W) (line : Bytes) : State W × Bool :=
  match parse line with
  | .error _ =>
    match st.reply cfg (newReply codeSyntaxError (lit "Syntax error")) with
    | (st, .ok _) => (st, true)
    | (st, .error _) => (st, false)
  | .ok cmd =>
    match dispatch cfg st cmd with
    | (st, .ok _) => (st, true)
    | (st, .error .quit) => (st, false)
    | (st, .error (.err e)) =>
      match st.reply cfg (newReply codeNotLoggedInReq e) with
      | (st, .ok _) => (st, true)
      | (st, .error _) => (st, false)

/-- `serve`, on the complete lines the client sends before the connection ends. -/
def serve [UnicodeTables] (st : State W) : List Bytes → State W
  | [] => st
  | line :: lines =>
    match serveLine cfg st line with
    | (st, true) => serve st lines
    | (st, false) => st

/-- `handleConn`: greet, then serve. -/
def handleConn [UnicodeTables] (world : W) (lines : List Bytes) : State W :=
  match State.reply cfg { world } (newReply codeReady cfg.banner) with
  | (st, .ok _) => serve cfg st lines
  | (st, .error _) => st

end

end Ftp
