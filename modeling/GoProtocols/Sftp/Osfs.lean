import GoProtocols.Go.Filepath

/-!
# Package `osfs`

The OS-backed SFTP backend of `sftp/server/backend/osfs/osfs.go`: which call of package `os` each
method makes, and on which host path. The server hands the client's path string to the backend as it
is. `Read`, `Write` and `Close` work on an open file and take no path.
-/

namespace Osfs

open Go

/-- The backend; its table of open files is not used to compute host paths. -/
structure FS where
  root : Bytes

/-- `New`, with the answer of `os.Getwd`. -/
def new (getwd : Except Bytes Bytes) (root : Bytes) : FS where
  root :=
    match Filepath.abs getwd root with
    | .ok abs => abs
    | .error _ => root

def FS.join (f : FS) (path : Bytes) : Bytes :=
  Filepath.join [f.root, trimPrefix path (lit "/")]

/-- The methods of `server.Backend` that take a path. `OPENDIR` calls `Readdir`, as does
`READDIR`. -/
inductive Request
  | stat (path : Bytes)
  | lstat (path : Bytes)
  | open (path : Bytes) (flags : UInt32)
  | readdir (path : Bytes)
  | mkdir (path : Bytes)
  | rmdir (path : Bytes)
  | remove (path : Bytes)
  | rename (src dst : Bytes)

/-- The paths the client sent. -/
def Request.paths : Request → List Bytes
  | .stat path | .lstat path | .open path _ | .readdir path | .mkdir path | .rmdir path
  | .remove path => [path]
  | .rename src dst => [src, dst]

/-- A call of package `os`. -/
inductive HostCall
  | stat (name : Bytes)
  | lstat (name : Bytes)
  | openFile (name : Bytes) (flag : UInt32) (perm : UInt32)
  | readDir (name : Bytes)
  | mkdirAll (path : Bytes) (perm : UInt32)
  | removeAll (path : Bytes)
  | remove (name : Bytes)
  | rename (oldpath newpath : Bytes)

/-- The host paths of the call. -/
def HostCall.paths : HostCall → List Bytes
  | .stat p | .lstat p | .openFile p _ _ | .readDir p | .mkdirAll p _ | .removeAll p
  | .remove p => [p]
  | .rename p q => [p, q]

/-- The flags of `os.OpenFile` (on Linux) for those of the `OPEN` message. -/
def openFlags (flags : UInt32) : UInt32 :=
  let has := fun bit : UInt32 => flags &&& bit ≠ 0
  -- `O_RDONLY` is 0, `O_WRONLY` 1 and `O_RDWR` 2
  let access : UInt32 := if has 1 ∧ has 2 then 2 else if has 2 then 1 else 0
  access ||| (if has 4 then 0x400 else 0) ||| (if has 8 then 0x40 else 0) |||
    (if has 16 then 0x200 else 0) ||| (if has 32 then 0x80 else 0)

def FS.hostCall (f : FS) : Request → HostCall
  | .stat path => .stat (f.join path)
  | .lstat path => .lstat (f.join path)
  | .open path flags => .openFile (f.join path) (openFlags flags) 0o644
  | .readdir path => .readDir (f.join path)
  | .mkdir path => .mkdirAll (f.join path) 0o755
  | .rmdir path => .removeAll (f.join path)
  | .remove path => .remove (f.join path)
  | .rename src dst => .rename (f.join src) (f.join dst)

end Osfs
