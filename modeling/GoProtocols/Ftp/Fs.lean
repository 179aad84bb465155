import GoProtocols.Go.Filepath
import GoProtocols.Go.Time

/-!
# Package `fs`

The filesystem interface of `ftp/server/fs/fs.go` and its OS-backed implementation. A filesystem
answers from a world `W` and may change it; so does the operating system under the OS-backed one
(`Host`). An error is its text. `pathClean` is the string builder of the source, byte for byte.
-/

namespace Ftp

open Go

/-- `auth.User`. -/
structure User where
  name : Bytes := []
  home : Bytes := []
  deriving DecidableEq

structure Entry where
  name : Bytes := []
  size : Int64 := 0
  isDir : Bool := false
  modTime : Time := ⟨0, 0⟩
  owner : Bytes := []
  group : Bytes := []

/-- A computation that reads and changes the world. -/
abbrev Ask (W α : Type) := W → α × W

/-- `fs.Filesystem`. `sendFile` gives the bytes it has written and `recvFile` and `appendFile` take
the bytes they can read. -/
structure Filesystem (W : Type) where
  resolve : User → Bytes → Bytes → Ask W (Except Bytes Bytes)
  stat : User → Bytes → Ask W (Except Bytes Entry)
  list : User → Bytes → Ask W (Except Bytes (List Entry))
  mkdir : User → Bytes → Ask W (Except Bytes Unit)
  remove : User → Bytes → Ask W (Except Bytes Unit)
  rename : User → Bytes → Bytes → Ask W (Except Bytes Unit)
  sendFile : User → Bytes → Int64 → Ask W (Bytes × Except Bytes Unit)
  recvFile : User → Bytes → Bytes → Ask W (Except Bytes Unit)
  appendFile : User → Bytes → Bytes → Ask W (Except Bytes Unit)

/-! ## Paths -/

/-- One segment of `pathClean`; `out` is the string built so far. -/
def pathCleanStep (out seg : Bytes) : Bytes :=
  if seg = [] ∨ seg = lit "." then out
  else if seg = lit ".." then
    match lastIndexByte out 47 with
    | some i => out.take i
    | none => out
  else out ++ lit "/" ++ seg

def pathClean (p : Bytes) : Bytes :=
  let out := (split p 47).foldl pathCleanStep []
  if out = [] then lit "/" else out

/-- `OS`: the OS-backed filesystem. -/
structure OS where
  root : Bytes

/-- `NewOS`, with the answer of `os.Getwd`. -/
def newOS (getwd : Except Bytes Bytes) (root : Bytes) : OS where
  root :=
    match Filepath.abs getwd root with
    | .ok abs => abs
    | .error _ => root

def OS.full (o : OS) (u : User) (p : Bytes) : Bytes :=
  if u.home ≠ [] then Filepath.join [o.root, u.home, trimPrefix p (lit "/")]
  else Filepath.join [o.root, trimPrefix p (lit "/")]

def OS.resolve (cwd arg : Bytes) : Except Bytes Bytes :=
  if arg = [] then .ok cwd
  else
    let arg := if hasPrefix arg (lit "/") then arg else cwd ++ lit "/" ++ arg
    let clean := pathClean arg
    if hasPrefix clean (lit "/") then .ok clean else .error (lit "bad path")

/-! ## The OS-backed filesystem -/

/-- The operating system, by host path. `copyOut` is `Seek`, if the offset is positive, and
`io.Copy` from the file just opened, `copyIn` is `io.Copy` into it. -/
structure Host (W : Type) where
  stat : Bytes → Ask W (Except Bytes Entry)
  readdir : Bytes → Ask W (Except Bytes (List Entry))
  mkdirAll : Bytes → Ask W (Except Bytes Unit)
  removeAll : Bytes → Ask W (Except Bytes Unit)
  rename : Bytes → Bytes → Ask W (Except Bytes Unit)
  openRead : Bytes → Ask W (Except Bytes Unit)
  create : Bytes → Ask W (Except Bytes Unit)
  openAppend : Bytes → Ask W (Except Bytes Unit)
  copyOut : Bytes → Int64 → Ask W (Bytes × Except Bytes Unit)
  copyIn : Bytes → Bytes → Ask W (Except Bytes Unit)

/-- `pathError`. -/
def pathError {α : Type} (op path : Bytes) (r : Except Bytes α) : Except Bytes α :=
  r.mapError fun e => op ++ lit " " ++ path ++ lit ": " ++ e

/-- The answer of the world, changed by `f`. -/
def Ask.map {W α β : Type} (f : α → β) (x : Ask W α) : Ask W β := fun w => (f (x w).1, (x w).2)

/-- The methods of `OS`. -/
def OS.filesystem {W : Type} (o : OS) (host : Host W) : Filesystem W where
  resolve _ cwd arg w := (OS.resolve cwd arg, w)
  stat u p := Ask.map (pathError (lit "stat") p) (host.stat (o.full u p))
  list u p := Ask.map (pathError (lit "list") p) (host.readdir (o.full u p))
  mkdir u p := Ask.map (pathError (lit "mkdir") p) (host.mkdirAll (o.full u p))
  remove u p := Ask.map (pathError (lit "remove") p) (host.removeAll (o.full u p))
  rename u src dst :=
    Ask.map (pathError (lit "rename") (src ++ lit "->" ++ dst))
      (host.rename (o.full u src) (o.full u dst))
  sendFile u p offset w :=
    match host.openRead (o.full u p) w with
    | (.error e, w) => (([], pathError (lit "retr") p (.error e)), w)
    | (.ok _, w) => host.copyOut (o.full u p) offset w
  recvFile u p data w :=
    match host.create (o.full u p) w with
    | (.error e, w) => (pathError (lit "stor") p (.error e), w)
    | (.ok _, w) => host.copyIn (o.full u p) data w
  appendFile u p data w :=
    match host.openAppend (o.full u p) w with
    | (.error e, w) => (pathError (lit "appe") p (.error e), w)
    | (.ok _, w) => host.copyIn (o.full u p) data w

end Ftp
