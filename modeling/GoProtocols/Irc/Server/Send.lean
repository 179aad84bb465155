import GoProtocols.Go.Fmt
import GoProtocols.Irc.Server.State

/-!
# Sending

`Session.Send` and what it is used by: numeric replies, broadcasts, the capture of the answers to a
labeled command, and the lists that are split over several lines.
-/

namespace Irc

open Go Prog

/-- `serverTime`. -/
def serverTime (t : Time) : Bytes := t.utc.formatServer

section
variable [UnicodeTables] (s : SessionId) (u : Session) (msg : Message) (verb : Verb)
  (n : Numeric) (params : List Bytes)

/-! ## One message -/

/-- The capability that lets a session see a tag. -/
def tagCapability (tag : Bytes) : Capability :=
  if tag = lit "time" then .serverTime
  else if tag = lit "batch" then .batch
  else if tag = lit "account" then .accountTag
  else if tag = lit "label" then .labeledResponse
  else if tag = lit "draft/chathistory-end" then .chatHistory
  else .messageTags

/-- Add the time, for a session that asked for it, unless the message has one. -/
def stampTime : M Message :=
  if u.capEnabled .serverTime ∧ msg.tags.lookup (lit "time") = none then do
    return msg.setTag (lit "time") (serverTime (← now))
  else return msg

/-- Add the account of the source, for a session that asked for it, unless the message has one. -/
def stampAccount (srv : Server) (u : Session) (msg : Message) : Message :=
  if u.capEnabled .accountTag then
    match msg.source with
    | none => msg
    | some source =>
      if source.user = [] then msg
      else
        match srv.getSession source.nick with
        | none => msg
        | some t =>
          let account := (srv.session t).account
          if account ≠ [] ∧ msg.tags.lookup (lit "account") = none then
            msg.setTag (lit "account") account
          else msg
  else msg

/-- Delete the tags that the session did not ask for. -/
def dropTags : Message :=
  { msg with
    tags := msg.tags.entries.foldl (fun tags t =>
      if u.capEnabled (tagCapability t.1) then tags else tags.erase t.1) msg.tags }

/-- The message as session `s` is to see it. -/
def prepare : M Message := do
  let srv ← server
  let u := srv.session s
  if msg.tags.entries = [] ∧ ¬ u.capEnabled .serverTime ∧ ¬ u.capEnabled .accountTag then
    return msg
  let out ← stampTime u msg
  return dropTags u (stampAccount srv u out)

/-- Put a message where it belongs: among the answers that are captured, or into the queue. -/
def Output.deliver (o : Output) (out : Outbound) : Output :=
  match o.response with
  | some messages =>
    if o.captureImmediate then { o with responseImmediate := o.responseImmediate ++ [out.msg] }
    else { o with response := some (messages ++ [out.msg]) }
  | none => { o with writeQueue := o.writeQueue ++ [out] }

/-- A message with its line. -/
def render : M Outbound := do
  let tags ← rangeOver Sigma.fst msg.tags.entries
  return ⟨msg, format tags msg ++ lit "\r\n"⟩

/-- `Session.Send`. -/
def send : M Unit := do
  let srv ← server
  if msg.command = Verb.TAGMSG.name ∧ ¬ (srv.session s).capEnabled .messageTags then return
  let out ← prepare s msg
  let line ← render out
  updateOutput s fun o => o.deliver line

/-- `Session.sendImmediate`. -/
def sendImmediate : M Unit := do
  updateOutput s fun o => { o with captureImmediate := true }
  send s msg
  updateOutput s fun o => { o with captureImmediate := false }

/-- A message of the server itself. -/
def sendServer : M Unit := do
  let cfg ← config
  send s { source := some { nick := cfg.name }, command := verb.name, params }

/-- The nick a reply is addressed to. -/
def Session.target : Bytes := if u.nick = [] then lit "*" else u.nick

/-- `Session.SendNumeric`. -/
def sendNumeric : M Unit := do
  let cfg ← config
  let srv ← server
  send s { source := some { nick := cfg.name }, command := n.string
           params := (srv.session s).target :: params }

/-- `Channel.Broadcast`. -/
def broadcast (ch : Channel) (msg : Message) (exclude : Option SessionId) : M Unit := do
  let members ← ch.memberList
  members.forM fun m => when (some m.session ≠ exclude) (send m.session msg)

/-! ## Labeled responses -/

/-- `Session.beginResponse`. -/
def beginResponse (label : Bytes) : M Unit :=
  updateOutput s fun o =>
    { o with responseLabel := label, response := some [], responseImmediate := [] }

/-- `Session.responseMessage`. -/
def responseMessage : M Message := do
  let srv ← server
  if ¬ (srv.session s).capEnabled .serverTime then return msg
  return msg.setTag (lit "time") (serverTime (← now))

/-- A message of the server that frames a response. -/
def frameMessage (tags : Tags) : M Message := do
  let cfg ← config
  responseMessage s
    { tags, source := some { nick := cfg.name }, command := verb.name, params }

/-- The framing of the captured messages: one is labeled itself, as is a batch that they already
form; others are put into a batch. -/
def frameResponse (label : Bytes) : List Message → M (List Message)
  | [] => do
    return [← frameMessage s .ACK [] (Map.ofList [(lit "label", label)])]
  | [msg] => return [msg.setTag (lit "label") label]
  | msg :: messages =>
    if msg.command = Verb.BATCH.name ∧ hasPrefix (msg.param 0) (lit "+") then
      return msg.setTag (lit "label") label :: messages
    else do
      let batchID ← randText
      let first ← frameMessage s .BATCH [lit "+" ++ batchID, lit "labeled-response"]
        (Map.ofList [(lit "label", label)])
      let last ← frameMessage s .BATCH [lit "-" ++ batchID] ∅
      return first :: (msg :: messages).map (·.setTag (lit "batch") batchID) ++ [last]

/-- `Session.finishResponse`. -/
def finishResponse : M (List Message) := do
  let o ← output s
  updateOutput s fun o => { o with responseLabel := [], response := none, responseImmediate := [] }
  let framed ← frameResponse s o.responseLabel (o.response.getD [])
  return o.responseImmediate ++ framed

/-- `Session.sendPrepared`. -/
def sendPrepared (messages : List Message) : M Unit :=
  messages.forM fun msg => do
    let line ← render msg
    updateOutput s fun o => { o with writeQueue := o.writeQueue ++ [line] }

/-- `Server.checkPassword`. Around the check the response is suspended and the lock is released;
with commands run one at a time nothing happens in between. -/
def checkPassword (hash password : Bytes) : M Bool := do
  let o ← output s
  let w ← world
  if o.response = none then return w.bcryptCheck hash password
  updateOutput s fun o => { o with responseLabel := [], response := none, responseImmediate := [] }
  let ok := w.bcryptCheck hash password
  updateOutput s fun o' =>
    { o' with responseLabel := o.responseLabel, response := o.response,
              responseImmediate := o.responseImmediate }
  return ok

/-! ## Lists over several lines -/

/-- How many of the values fit into `max` bytes, each with a separator. -/
def fitting (max : Nat) : Nat → List Bytes → Nat
  | _, [] => 0
  | size, v :: values =>
    if size + v.length + 1 ≤ max then fitting max (size + v.length + 1) values + 1 else 0

/-- Cut a list into lines of at most `max` bytes; a longer value has a line of its own. Every line
takes a value at least, so that the length of the list is fuel enough. -/
def chunks (max : Nat) : Nat → List Bytes → List (List Bytes)
  | 0, _ => []
  | fuel + 1, values =>
    if values = [] then []
    else
      let n := Nat.max 1 (fitting max 0 values)
      values.take n :: chunks max fuel (values.drop n)

/-- `Server.sendMonitorList`. -/
def sendMonitorList (values : List Bytes) : M Unit :=
  (chunks 350 values.length values).forM fun line => sendNumeric s n [join line (lit ",")]

/-- `Server.sendCAP`. -/
def sendCAP (subCmd value : Bytes) : M Unit := do
  let srv ← server
  sendServer s .CAP [(srv.session s).target, subCmd, value]

/-- The lines of a capability list: all but the last are marked. -/
def sendCAPLines (s : SessionId) (subCmd : Bytes) : List (List Bytes) → M Unit
  | [] => return
  | [line] => sendCAP s subCmd (join line (lit " "))
  | line :: lines => do
    let srv ← server
    sendServer s .CAP [(srv.session s).target, subCmd, lit "*", join line (lit " ")]
    sendCAPLines s subCmd lines

/-- `Server.sendCAPList`. -/
def sendCAPList (subCmd : Bytes) (caps : List Bytes) : M Unit :=
  if caps = [] then sendCAP s subCmd []
  else sendCAPLines s subCmd (chunks 400 caps.length caps)

/-- The loop of `sendNames`: a line is sent when the next name no longer fits. -/
def nameLines (line : List Bytes) (lineLen : Nat) : List Bytes → List (List Bytes)
  | [] => if line = [] then [] else [line]
  | n :: names =>
    if 400 < lineLen + n.length + 1 ∧ line ≠ [] then line :: nameLines [n] (n.length + 1) names
    else nameLines (line ++ [n]) (lineLen + n.length + 1) names

end

end Irc
