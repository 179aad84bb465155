import GoProtocols.Go.Strconv
import GoProtocols.Go.Unicode

/-!
# Package `ftp`: commands and replies

The control channel of `ftp/ftp/ftp.go`: a command as the server parses it from a line, and a reply
as it writes it.
-/

namespace Ftp

open Go

structure Reply where
  code : Nat
  text : Bytes := []
  lines : List Bytes := []
  deriving DecidableEq

def newReply (code : Nat) (text : Bytes) : Reply := { code, text }

def newMultiLine (code : Nat) (lines : List Bytes) : Reply := { code, lines }

/-- The lines of a multi-line reply; only the last has a space after the code. -/
def multiLines (code : Nat) : List Bytes → Bytes
  | [] => []
  | [l] => itoa code ++ lit " " ++ l ++ lit "\r\n"
  | l :: ls => itoa code ++ lit "-" ++ l ++ lit "\r\n" ++ multiLines code ls

/-- `Reply.String`: the wire form. -/
def Reply.wire (r : Reply) : Bytes :=
  if r.lines = [] then itoa r.code ++ lit " " ++ r.text ++ lit "\r\n"
  else multiLines r.code r.lines

structure Command where
  name : Bytes
  arg : Bytes := []
  deriving DecidableEq

/-- `Parse`. -/
def parse [UnicodeTables] (line : Bytes) : Except Bytes Command :=
  let line := trimRight line (lit "\r\n")
  if line = [] then .error (lit "ftp: empty command")
  else
    match cut line 32 with
    | some (name, arg) => .ok { name := toUpper name, arg }
    | none => .ok { name := toUpper line }

/-! ## Reply codes -/

def codeReady : Nat := 220
def codeGoodbye : Nat := 221
def codeUserOK : Nat := 331
def codeLoginOK : Nat := 230
def codeRequestedAction : Nat := 250
def codePathCreated : Nat := 257
def codeOK : Nat := 200
def codeCommandNotImpl : Nat := 502
def codeFileStatus : Nat := 213
def codeDataOpen : Nat := 150
def codeDataClose : Nat := 226
def codeEnterPASV : Nat := 227
def codeEnterEPSV : Nat := 229
def codeCantOpenData : Nat := 425
def codeConnClosed : Nat := 426
def codeSyntaxError : Nat := 500
def codeNotLoggedInReq : Nat := 530
def codeFileUnavailable : Nat := 550
def codeStorageExceeded : Nat := 552

end Ftp
