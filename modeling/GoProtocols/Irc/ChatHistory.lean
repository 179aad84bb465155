import GoProtocols.Irc.Message
import GoProtocols.Irc.Names

/-!
# Chat history

`irc/irc/chathistory.go`: which of the stored messages a `CHATHISTORY` request selects. All that is
looked at is the time and the message of an entry (`HistoryEntry`). An entry of the server holds a
message whose command is a verb, as everything that is stored or listed there is.
-/

namespace Irc

open Go

/-- `ChatHistoryEntry`, also `historyEntry` of the server. -/
structure ChatHistoryEntry where
  time : Time
  msg : Message
  verb : Verb
  command_eq : msg.command = verb.name

/-- The fields of `ChatHistoryEntry` in the source. -/
class HistoryEntry (α : Type) where
  time : α → Time
  msg : α → Message

instance : HistoryEntry ChatHistoryEntry := ⟨ChatHistoryEntry.time, ChatHistoryEntry.msg⟩

/-- `messageReference`, where it was found. -/
structure MessageReference where
  time : Time
  msgid : Bytes := []
  index : Nat := 0

def msgidTag (m : Message) : Bytes := (m.tags.lookup (lit "msgid")).getD []

/-- Why nothing is selected: an error, or an index out of range. -/
inductive SelectFault
  | error (text : Bytes)
  | panic
  deriving DecidableEq

section
variable {α : Type} (entries : List α) (limit : Nat)

def filterHistory (keep : α → Nat → Bool) : List α :=
  (entries.zipIdx.filter fun e => keep e.1 e.2).map Prod.fst

/-- The last entries, and whether these are all. -/
def latest : List α × Bool :=
  (entries.drop (entries.length - limit), entries.length ≤ limit)

/-- The first entries, and whether these are all. -/
def earliest : List α × Bool :=
  (entries.take limit, entries.length ≤ limit)

variable [HistoryEntry α] (entries : List α) (entry : α) (index : Nat) (ref : MessageReference)

/-- `parseMessageReference`: an error, or the reference if there is one. -/
def parseMessageReference (selector : Bytes) :
    Except Bytes (Option MessageReference) :=
  if hasPrefix selector (lit "timestamp=") then
    match parseServerTime (trimPrefix selector (lit "timestamp=")) with
    | none => .error (lit "invalid timestamp")
    | some time => .ok (some { time })
  else if hasPrefix selector (lit "msgid=") then
    let id := trimPrefix selector (lit "msgid=")
    if id = [] then .error (lit "invalid message ID")
    else
      .ok ((entries.zipIdx.find? fun e => msgidTag (HistoryEntry.msg e.1) = id).map fun e =>
        ⟨HistoryEntry.time e.1, id, e.2⟩)
  else .error (lit "unsupported message reference")

def beforeReference : Bool :=
  if ref.msgid ≠ [] then index < ref.index else (HistoryEntry.time entry).nanos < ref.time.nanos

def afterReference : Bool :=
  if ref.msgid ≠ [] then ref.index < index else ref.time.nanos < (HistoryEntry.time entry).nanos

def around (limit : Nat) : List α × Bool :=
  let before := filterHistory entries fun e i => beforeReference e i ref
  let after := filterHistory entries fun e i => afterReference e i ref
  let left := min before.length (limit / 2)
  let right := min after.length (limit - left)
  let left := min before.length (limit - right)
  (before.drop (before.length - left) ++ after.take right, before.length + after.length ≤ limit)

def between (first second : MessageReference) (limit : Nat) :
    List α × Bool :=
  let forward := first.time.nanos < second.time.nanos ∨
    first.time.nanos = second.time.nanos ∧ first.msgid ≠ [] ∧ second.msgid ≠ [] ∧
      first.index < second.index
  if forward then
    earliest (filterHistory entries fun e i =>
      afterReference e i first && beforeReference e i second) limit
  else
    latest (filterHistory entries fun e i =>
      beforeReference e i first && afterReference e i second) limit

/-- `SelectChatHistory`: the entries selected and whether there are no more. -/
def selectChatHistory [UnicodeTables] (entries : List α) (subcommand : Bytes)
    (selectors : List Bytes) (limit : Int) : Except SelectFault (List α × Bool) := do
  if limit ≤ 0 then throw (.error (lit "invalid limit"))
  let n := limit.toNat
  let subcommand := toUpper subcommand
  if selectors.length ≠ 1 ∧ (subcommand ≠ lit "BETWEEN" ∨ selectors.length ≠ 2) then
    throw (.error (lit "invalid selectors"))
  let selector := selectors.getD 0 []
  if subcommand = lit "LATEST" ∧ selector = lit "*" then return latest entries n
  if selector = lit "*" then throw (.error (lit "invalid selector"))
  match ← (parseMessageReference entries selector).mapError .error with
  | none => return ([], true)
  | some first =>
    if subcommand = lit "LATEST" then
      return latest (filterHistory entries fun e i => afterReference e i first) n
    else if subcommand = lit "AFTER" then
      return earliest (filterHistory entries fun e i => afterReference e i first) n
    else if subcommand = lit "BEFORE" then
      return latest (filterHistory entries fun e i => beforeReference e i first) n
    else if subcommand = lit "AROUND" then return around entries first n
    else if subcommand = lit "BETWEEN" then
      -- a single selector has passed the check above, and there is no second one to read
      match selectors[1]? with
      | none => throw .panic
      | some selector =>
        match ← (parseMessageReference entries selector).mapError .error with
        | none => return ([], true)
        | some second => return between entries first second n
    else throw (.error (lit "unknown subcommand"))

end

end Irc
