import GoProtocols.Go.Map
import GoProtocols.Go.Unicode

/-!
# Messages

`irc/irc/message.go`: the message type, `Parse` and `Format`. A `nil` tag map and an empty one are
the same here; nothing in the repository tells them apart.
-/

namespace Irc

open Go

abbrev Tags := Map Bytes Bytes

structure Prefix where
  nick : Bytes := []
  user : Bytes := []
  host : Bytes := []
  deriving DecidableEq

/-- `Prefix.IsServer`. -/
def Prefix.isServer (p : Prefix) : Bool := p.user = [] ∧ p.host = []

/-- `Prefix.String`. -/
def Prefix.string (p : Prefix) : Bytes :=
  if p.isServer then p.nick
  else if p.host ≠ [] then p.nick ++ lit "!" ++ p.user ++ lit "@" ++ p.host
  else p.nick

structure Message where
  tags : Tags := ∅
  /-- The field `Prefix` of the source. -/
  source : Option Prefix := none
  command : Bytes
  params : List Bytes := []

variable (tags : List (Sigma fun _ : Bytes => Bytes)) (m : Message) (s : Bytes)

/-- `Message.Param`: empty if there is no such parameter. -/
def Message.param (i : Nat) : Bytes := m.params.getD i []

def Message.setTag (tag value : Bytes) : Message :=
  { m with tags := m.tags.insert tag value }

/-! ## Parsing -/

/-- The longest lines a client may send: 4094 bytes of tags, 510 bytes without them. -/
def inputTooLong (raw : Bytes) : Bool :=
  let raw := trimRight raw (lit "\r\n")
  if hasPrefix raw (lit "@") then
    match cut raw 32 with
    | none => 4094 < raw.length - 1
    | some (before, after) => 4094 < before.length - 1 || 510 < after.length
  else 510 < raw.length

/-- The byte that a backslash and `c` stand for in a tag value. -/
def unescapeByte (c : UInt8) : UInt8 :=
  if c = 58 then 59 else if c = 115 then 32 else if c = 114 then 13 else if c = 110 then 10 else c

def unescapeTagValue : Bytes → Bytes
  | [] => []
  | [b] => if b = 92 then [] else [b]
  | b :: c :: s =>
    if b = 92 then unescapeByte c :: unescapeTagValue s else b :: unescapeTagValue (c :: s)

def parseTag (tags : Tags) (part : Bytes) : Tags :=
  if part = [] then tags
  else
    match cut part 61 with
    | some (key, value) => tags.insert key (unescapeTagValue value)
    | none => tags.insert part []

def parseTags : Tags := (split s 59).foldl parseTag ∅

def parsePrefix : Prefix :=
  let (s, host) := (cut s 64).getD (s, [])
  let (nick, user) := (cut s 33).getD (s, [])
  { nick, user, host }

/-- The loop over the words of a line: a word that begins with a colon is the rest of the line. Each
round takes a byte at least, so that the length of the line is fuel enough. -/
def parseParams : Nat → Bytes → List Bytes
  | 0, _ => []
  | fuel + 1, raw =>
    if raw = [] then []
    else if hasPrefix raw (lit ":") then [raw.drop 1]
    else
      match cut raw 32 with
      | none => [raw]
      | some (word, rest) => word :: parseParams fuel (trimLeft rest (lit " "))

/-- Take a word with the given first byte off the line, with the blanks after it. -/
def parseLead (mark : UInt8) (what raw : Bytes) : Except Bytes (Option Bytes × Bytes) :=
  if raw.head? = some mark then
    match cut raw 32 with
    | none => .error (lit "irc: malformed message: no space after " ++ what)
    | some (word, rest) => .ok (some (word.drop 1), trimLeft rest (lit " "))
  else .ok (none, raw)

/-- `Parse`. -/
def parse [UnicodeTables] (raw : Bytes) : Except Bytes Message := do
  let raw := trimRight raw (lit "\r\n")
  if raw = [] then throw (lit "irc: empty message")
  let (tags, raw) ← parseLead 64 (lit "tags") raw
  let (source, raw) ← parseLead 58 (lit "prefix") raw
  if raw = [] then throw (lit "irc: empty command")
  match parseParams raw.length raw with
  | [] => throw (lit "irc: missing command")
  | command :: params =>
    pure { tags := (tags.map parseTags).getD ∅, source := source.map parsePrefix
           command := toUpper command, params }

/-- The message of a line, if it is one that is handled. -/
def lineMessage [UnicodeTables] (raw : Bytes) : Option Message :=
  if inputTooLong raw then none else (parse raw).toOption

/-! ## Formatting -/

def escapeByte (b : UInt8) : Bytes :=
  if b = 59 then lit "\\:" else if b = 32 then lit "\\s" else if b = 92 then lit "\\\\"
  else if b = 13 then lit "\\r" else if b = 10 then lit "\\n" else [b]

def escapeTagValue : Bytes := s.flatMap escapeByte

def formatTag (t : Sigma fun _ : Bytes => Bytes) : Bytes :=
  t.1 ++ if t.2 ≠ [] then lit "=" ++ escapeTagValue t.2 else []

/-- The tags as they are visited, those of the server before the client-only ones. -/
def formatTags : Bytes :=
  let clientOnly := fun t : Sigma fun _ : Bytes => Bytes => hasPrefix t.1 (lit "+")
  if tags = [] then []
  else
    lit "@" ++ join ((tags.filter (!clientOnly ·) ++ tags.filter clientOnly).map formatTag)
      (lit ";") ++ lit " "

/-- The last parameter takes a colon if it has a blank or a colon in it, or is empty. -/
def formatParams : List Bytes → Bytes
  | [] => []
  | [p] => lit " " ++ (if containsAny p (lit " :") ∨ p = [] then lit ":" else []) ++ p
  | p :: ps => lit " " ++ p ++ formatParams ps

/-- `Format`, with the tags in the order in which their map is visited. -/
def format : Bytes :=
  formatTags tags ++ (m.source.map fun p => lit ":" ++ p.string ++ lit " ").getD [] ++ m.command ++
    formatParams m.params

end Irc
