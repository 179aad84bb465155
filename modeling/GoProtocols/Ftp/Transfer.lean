import GoProtocols.Ftp.Client
import GoProtocols.Ftp.Proof.Sandbox

/-!
# Transfers between the client and the server

The client sends `RETR` or `STOR`, waits for the server to accept it and only then asks for a data
connection. The server opens the data connection before it accepts the command, and announces how
the transfer ended before it reads the next command. So the client is refused, or it takes the end of
the transfer for the answer to `EPSV` or `PASV`: `not_obtains_transfer`, in every state of the
session, for every filesystem and every network.

* `serveLine_answers`: how the replies to `RETR` and `STOR` begin.
* `dialDataPassive_error`: the client fails when it reads the end of a transfer there.
-/

namespace Ftp

open Go List

variable {code : Nat} {arg name r text : Bytes}

variable {W : Type} {cfg : Config W} {l : Link W} {st : State W} {k : Bytes → State W → Res W}
  {c : Command}

/-! ## The replies to a transfer -/

def opening : Reply := newReply codeDataOpen (lit "Opening data connection")

/-- How the replies to a transfer begin: it is refused, or it is announced and has ended. -/
inductive Answers : List Reply → Prop
  | refused {code : Nat} (h : code ∈ [425, 530, 550]) (text : Bytes) (rest : List Reply) :
      Answers (newReply code text :: rest)
  | ended {code : Nat} (h : code ∈ [226, 426, 530, 552]) (text : Bytes) (rest : List Reply) :
      Answers (opening :: newReply code text :: rest)

/-- A command has answered, or it has failed before that and `serve` answers with the error. -/
def Answered (st : State W) (r : Res W) : Prop :=
  ∃ new, r.1.replies = st.replies ++ new ∧
    (Answers new ∨ (new = [] ∨ new = [opening]) ∧ ∃ e, r.2 = .error (.err e))

theorem reply_error {st' : State W} {r : Reply} {e : Stop} (h : st.reply cfg r = (st', .error e)) :
    ∃ text, e = .err text := by
  unfold State.reply at h
  split at h
  · cases h
  · rename_i text _ _
    exact ⟨text, by cases h; rfl⟩

theorem answered_refused (cfg : Config W) (h : code ∈ [425, 530, 550]) (st : State W)
    (text : Bytes) : Answered st (st.reply cfg (newReply code text)) :=
  ⟨[newReply code text], replies_reply cfg st _, .inl (.refused h text [])⟩

theorem withTarget_answered
    (hk : ∀ target st', st'.replies = st.replies → Answered st' (k target st')) :
    Answered st (withTarget cfg st arg k) := by
  unfold withTarget
  split
  · rename_i e st' hask
    have hst : st'.replies = st.replies := congrArg (·.2.replies) hask.symm
    obtain ⟨new, hnew, h⟩ := answered_refused cfg (show 550 ∈ _ by decide) st' e
    exact ⟨new, hst ▸ hnew, h⟩
  · rename_i target st' hask
    have hst : st'.replies = st.replies := congrArg (·.2.replies) hask.symm
    obtain ⟨new, hnew, h⟩ := hk target st' hst
    exact ⟨new, hst ▸ hnew, h⟩

theorem replies_acceptData (cfg : Config W) (st : State W) :
    (acceptData cfg st).2.replies = st.replies := by
  unfold acceptData
  split
  · rfl
  · split
    · rfl
    · split <;> rfl

theorem withData_answered
    (hk : ∀ data st', ∃ code ∈ [226, 426, 530, 552], ∃ text,
      (k data st').1.replies = st'.replies ++ [newReply code text]) :
    Answered st (withData cfg st k) := by
  have haccept := replies_acceptData cfg st
  unfold withData
  split
  · rename_i e st' hdata
    rw [hdata] at haccept
    obtain ⟨new, hnew, h⟩ := answered_refused cfg (show 425 ∈ _ by decide) st' e
    exact ⟨new, haccept ▸ hnew, h⟩
  · rename_i data st' hdata
    rw [hdata] at haccept
    have hopen := replies_reply cfg st' opening
    rw [show st'.replies = st.replies from haccept] at hopen
    split
    · rename_i st'' e hreply
      obtain ⟨text, rfl⟩ := reply_error hreply
      exact ⟨[opening], (congrArg (·.1.replies) hreply).symm.trans hopen, .inr ⟨.inr rfl, text, rfl⟩⟩
    · rename_i st'' u hreply
      obtain ⟨code, hcode, text, hlast⟩ := hk data st''
      refine ⟨[opening, newReply code text], ?_, .inl (.ended hcode text [])⟩
      rw [hlast, ← (congrArg (·.1.replies) hreply).trans rfl]
      exact (congrArg (· ++ [newReply code text]) hopen).trans (by simp)

variable (st)

theorem retr_answered (arg : Bytes) : Answered st (retr cfg st arg) :=
  withTarget_answered fun target st' _ => withData_answered fun data st' => by
    split
    · rename_i sent e st'' hask
      refine ⟨426, by decide, e, ?_⟩
      rw [show st'.replies = st''.replies from congrArg (·.2.replies) hask]
      exact replies_reply cfg _ _
    · rename_i sent u st'' hask
      refine ⟨226, by decide, lit "Transfer complete", ?_⟩
      rw [show st'.replies = st''.replies from congrArg (·.2.replies) hask]
      exact replies_reply cfg _ _

theorem upload_answered {call : User → Bytes → FsCall}
    {method : User → Bytes → Bytes → Ask W (Except Bytes Unit)} (arg : Bytes) :
    Answered st (upload cfg call method st arg) :=
  withTarget_answered fun target st' _ => withData_answered fun data st' => by
    split
    · rename_i e st'' hask
      refine ⟨552, by decide, e, ?_⟩
      rw [show st'.replies = st''.replies from congrArg (·.2.replies) hask]
      exact replies_reply cfg _ _
    · rename_i u st'' hask
      refine ⟨226, by decide, lit "Transfer complete", ?_⟩
      rw [show st'.replies = st''.replies from congrArg (·.2.replies) hask]
      exact replies_reply cfg _ _

/-! ## The line of a command -/

/-- A command ends its first line, even if its argument has breaks. -/
theorem wire_eq_line (name arg : Bytes) :
    (∃ r, Command.wire { name, arg } = (name ++ [13]) ++ 10 :: r) ∨
      ∃ p r, 10 ∉ p ∧ Command.wire { name, arg } = (name ++ 32 :: p) ++ 10 :: r := by
  unfold Command.wire
  split
  · exact .inl ⟨[], by simp [show lit "\r\n" = [13, 10] by decide]⟩
  · refine .inr ?_
    cases hcut : cut (arg ++ [13, 10]) 10 with
    | none => exact absurd (cut_eq_none.1 hcut) (by simp)
    | some q =>
      obtain ⟨hp, hr⟩ := cut_eq_some.1 (show cut _ 10 = some (q.1, q.2) from hcut)
      refine ⟨q.1, q.2, hp, ?_⟩
      have hline : (name ++ 32 :: q.1) ++ 10 :: q.2 = name ++ 32 :: (arg ++ [13, 10]) := by
        rw [hr]
        simp
      rw [hline]
      simp [show lit "\r\n" = [13, 10] by decide, show lit " " = [32] by decide]

theorem completeLines_of_line {w : Bytes} (h : 10 ∉ w) (r : Bytes) :
    ∃ lines, completeLines (w ++ 10 :: r).length (w ++ 10 :: r) = (w ++ [10]) :: lines := by
  have hlen : (w ++ 10 :: r).length = (w.length + r.length) + 1 := by simp; omega
  rw [hlen, completeLines, readString_append h]
  exact ⟨_, rfl⟩

/-! ## The loop -/

section
variable [UnicodeTables]

theorem dispatch_answered (cfg : Config W) (h : verbOf c.name = .RETR ∨ verbOf c.name = .STOR)
    (st : State W) : Answered st (dispatch cfg st c) := by
  unfold dispatch
  split
  · exact ⟨[], by simp, .inr ⟨.inl rfl, _, rfl⟩⟩
  · rcases h with h | h <;> simp only [h]
    · exact retr_answered st c.arg
    · exact upload_answered st c.arg

theorem serveLine_answers (cfg : Config W) {line : Bytes} (hparse : parse line = .ok c)
    (h : verbOf c.name = .RETR ∨ verbOf c.name = .STOR) (st : State W) :
    ∃ new, (serveLine cfg st line).1.replies = st.replies ++ new ∧ Answers new := by
  obtain ⟨new, hnew, hans⟩ := dispatch_answered cfg h st
  simp only [serveLine, hparse]
  split
  · rename_i st' u hd
    rw [hd] at hnew hans
    rcases hans with hans | ⟨-, e, he⟩
    · exact ⟨new, hnew, hans⟩
    · cases he
  · rename_i st' hd
    rw [hd] at hnew hans
    rcases hans with hans | ⟨-, e, he⟩
    · exact ⟨new, hnew, hans⟩
    · cases he
  · rename_i st' e hd
    rw [hd] at hnew hans
    have hreply := replies_reply cfg st' (newReply codeNotLoggedInReq e)
    rw [show st'.replies = st.replies ++ new from hnew, append_assoc] at hreply
    refine ⟨new ++ [newReply codeNotLoggedInReq e], ?_, ?_⟩
    · rw [← hreply]
      split <;> rename_i hr <;> rw [hr]
    · rcases hans with hans | ⟨rfl | rfl, -⟩
      · cases hans with
        | refused h text rest => exact .refused h text _
        | ended h text rest => exact .ended h text _
      · exact .refused (by decide) e []
      · exact .ended (by decide) e []

/-! ## Sending a command -/

theorem unread_deliver (cfg : Config W) (l : Link W) (line : Bytes) :
    ∃ more, (l.deliver cfg line).unread = l.unread ++ more := by
  unfold Link.deliver
  split
  · exact ⟨_, rfl⟩
  · exact ⟨[], by simp⟩

theorem unread_foldl (cfg : Config W) (l : Link W) (lines : List Bytes) :
    ∃ more, (lines.foldl (Link.deliver cfg) l).unread = l.unread ++ more := by
  induction lines generalizing l with
  | nil => exact ⟨[], by simp⟩
  | cons line lines ih =>
    obtain ⟨more, hmore⟩ := ih (l.deliver cfg line)
    obtain ⟨here, hhere⟩ := unread_deliver cfg l line
    exact ⟨here ++ more, by rw [foldl_cons, hmore, hhere, append_assoc]⟩

theorem unread_send (cfg : Config W) (l : Link W) (text : Bytes) :
    ∃ more, (l.send cfg text).unread = l.unread ++ more :=
  unread_foldl cfg l _

theorem completeLines_wire (hname : ∀ b ∈ name, b ≠ 32 ∧ b ∉ lit "\r\n")
    (hne : name ≠ []) (arg : Bytes) :
    ∃ line lines c, completeLines (Command.wire { name, arg }).length (Command.wire { name, arg }) =
      line :: lines ∧ parse line = .ok c ∧ c.name = toUpper name := by
  have hblank : 32 ∉ name := fun h => (hname 32 h).1 rfl
  have hbreak : 10 ∉ name := fun h => (hname 10 h).2 (by decide)
  rcases wire_eq_line name arg with ⟨r, hr⟩ | ⟨p, r, hp, hr⟩
  · obtain ⟨lines, hlines⟩ := completeLines_of_line (w := name ++ [13]) (by simp [hbreak]) r
    have htrim : trimRight (name ++ [13] ++ [10]) (lit "\r\n") = name := by
      rw [trimRight_concat (by decide), trimRight_concat (by decide)]
      exact trimRight_of_last fun b hb => (hname b (mem_of_getLast? hb)).2
    refine ⟨_, lines, { name := toUpper name }, by rw [hr, hlines], ?_, rfl⟩
    simp only [parse, htrim, if_neg hne, cut_eq_none.2 hblank]
  · obtain ⟨lines, hlines⟩ := completeLines_of_line (w := name ++ 32 :: p) (by simp [hbreak, hp]) r
    refine ⟨_, lines, { name := toUpper name, arg := trimRight (p ++ [10]) (lit "\r\n") },
      by rw [hr, hlines], ?_, rfl⟩
    have htrim : trimRight (name ++ 32 :: p ++ [10]) (lit "\r\n") =
        name ++ 32 :: trimRight (p ++ [10]) (lit "\r\n") := by
      rw [append_assoc, cons_append]
      exact trimRight_append (by decide) name _
    simp only [parse, htrim, cut_append hblank]
    simp

theorem unread_transfer (hname : name = lit "RETR" ∨ name = lit "STOR")
    (cfg : Config W) (st : State W) (path : Bytes) :
    ∃ new more, Answers new ∧
      (Link.send cfg { server := st } (Command.wire { name, arg := path })).unread =
        new.flatMap Reply.wire ++ more := by
  have hbytes : ∀ b ∈ name, b ≠ 32 ∧ b ∉ lit "\r\n" := by
    rcases hname with rfl | rfl <;> decide +kernel
  have hne : name ≠ [] := by rcases hname with rfl | rfl <;> decide
  obtain ⟨line, lines, c, hlines, hparse, hc⟩ := completeLines_wire hbytes hne path
  have hverb : verbOf c.name = .RETR ∨ verbOf c.name = .STOR := by
    rw [hc]
    rcases hname with rfl | rfl
    · exact .inl rfl
    · exact .inr rfl
  obtain ⟨new, hnew, hans⟩ := serveLine_answers cfg hparse hverb st
  have hfirst : (Link.deliver cfg { server := st } line).unread = new.flatMap Reply.wire := by
    simp [Link.deliver, hnew]
  obtain ⟨more, hmore⟩ := unread_foldl cfg (Link.deliver cfg { server := st } line) lines
  refine ⟨new, more, hans, ?_⟩
  rw [Link.send, hlines, foldl_cons, hmore, hfirst]

/-! ## Reading the answer -/

theorem exchange_code (h : 100 ≤ code ∧ code ≤ 999)
    (hl : (l.send cfg (Command.wire { name, arg })).unread = (newReply code text).wire ++ r) :
    ∃ reply l', exchange cfg name arg l = (.ok reply, l') ∧ reply.code = code := by
  obtain ⟨line, r', hread⟩ := readReply_code h text r
  refine ⟨{ code, lines := [line] }, { l.send cfg (Command.wire { name, arg }) with unread := r' },
    ?_, rfl⟩
  simp only [exchange, Link.readReply, hl, hread]

theorem exchange_opening
    (hl : (l.send cfg (Command.wire { name, arg })).unread = opening.wire ++ r) :
    ∃ reply l', exchange cfg name arg l = (.ok reply, l') ∧ l'.unread = r := by
  have hread : readReply (opening.wire ++ r) =
      .ok ({ code := codeDataOpen, lines := [lit "Opening data connection"] }, r) :=
    readReply_wire (by decide) (by decide) r
  refine ⟨{ code := codeDataOpen, lines := [lit "Opening data connection"] },
    { l.send cfg (Command.wire { name, arg }) with unread := r }, ?_, rfl⟩
  simp only [exchange, Link.readReply, hl, hread]

/-- What a client asks for next gets the reply that it has not read. -/
theorem exchange_unread (h : 100 ≤ code ∧ code ≤ 999)
    (hl : l.unread = (newReply code text).wire ++ r) (cfg : Config W) (name arg : Bytes) :
    ∃ reply l', exchange cfg name arg l = (.ok reply, l') ∧ reply.code = code := by
  obtain ⟨more, hmore⟩ := unread_send cfg l (Command.wire { name, arg })
  exact exchange_code h (by rw [hmore, hl, append_assoc])

/-- The end of a transfer is no answer to `PASV`. -/
theorem pasv_error (h : code ∈ [226, 426, 530, 552])
    (hl : l.unread = (newReply code text).wire ++ r) (cfg : Config W) :
    ∃ e l', Client.pasv cfg l = (.error e, l') := by
  have hcode : (100 ≤ code ∧ code ≤ 999) ∧ code ≠ codeEnterPASV := by
    revert h
    simp only [mem_cons, not_mem_nil, or_false]
    rintro (rfl | rfl | rfl | rfl) <;> decide
  obtain ⟨reply, l', hx, hreply⟩ := exchange_unread hcode.1 hl cfg (lit "PASV") []
  have hparse : parsePASVReply reply = .error (lit "ftp: expected 227, got " ++ itoa reply.code) :=
    if_pos (hreply ▸ hcode.2)
  refine ⟨.text (lit "ftp: expected 227, got " ++ itoa reply.code), l', ?_⟩
  simp only [Client.pasv, hx, hparse, Except.mapError]

theorem epsv_error (h : code ∈ [226, 426, 530, 552])
    (hl : l.unread = (newReply code text).wire ++ r) (cfg : Config W) (c : Client W) :
    ∃ e l', c.epsv cfg l = (.error e, l') := by
  have hcode : (100 ≤ code ∧ code ≤ 999) ∧ code ≠ codeEnterEPSV ∧
      ¬ (code = codeCommandNotImpl ∨ code = 500) := by
    revert h
    simp only [mem_cons, not_mem_nil, or_false]
    rintro (rfl | rfl | rfl | rfl) <;> decide
  unfold Client.epsv
  split
  · obtain ⟨e, l', hpasv⟩ := pasv_error h hl cfg
    exact ⟨e, l', by rw [Client.pasvPort, hpasv]; rfl⟩
  · obtain ⟨reply, l', hx, hreply⟩ := exchange_unread hcode.1 hl cfg (lit "EPSV") []
    have hparse : parseEPSVReply reply = .error (lit "ftp: expected 229, got " ++ itoa reply.code) :=
      if_pos (hreply ▸ hcode.2.1)
    refine ⟨.text (lit "ftp: expected 229, got " ++ itoa reply.code), l', ?_⟩
    rw [hx]
    simp only [if_neg (hreply ▸ hcode.2.2), hparse]

theorem dialDataPassive_error (h : code ∈ [226, 426, 530, 552])
    (hl : l.unread = (newReply code text).wire ++ r) (cfg : Config W) (c : Client W) :
    ∃ e l', c.dialDataPassive cfg l = (.error e, l') := by
  obtain ⟨e, l', hepsv⟩ := epsv_error h hl cfg c
  exact ⟨e, l', by simp only [Client.dialDataPassive, hepsv]⟩

/-! ## No transfer -/

def Obtains (r : Except ClientError Bytes × Link W) : Prop := ∃ conn, r.1 = .ok conn

theorem transfer_error (hname : name = lit "RETR" ∨ name = lit "STOR")
    (cfg : Config W) (c : Client W) (st : State W) (path : Bytes) :
    ¬ Obtains (c.transfer cfg name path { server := st }) := by
  rintro ⟨conn, hconn⟩
  obtain ⟨new, more, hans, hunread⟩ := unread_transfer hname cfg st path
  cases hans with
  | @refused code h text rest =>
    -- the first reply is not the one the client wants
    have hcode : (100 ≤ code ∧ code ≤ 999) ∧ code ≠ codeDataOpen := by
      revert h
      simp only [mem_cons, not_mem_nil, or_false]
      rintro (rfl | rfl | rfl) <;> decide
    rw [flatMap_cons, append_assoc] at hunread
    obtain ⟨reply, l', hx, hreply⟩ := exchange_code hcode.1 hunread
    rw [Client.transfer, hx] at hconn
    simp only [if_pos (hreply ▸ hcode.2 : reply.code ≠ codeDataOpen)] at hconn
    cases hconn
  | ended h text rest =>
    -- the second reply is there before the client asks for a data connection
    rw [flatMap_cons, append_assoc] at hunread
    obtain ⟨reply, l', hx, hrest⟩ := exchange_opening hunread
    rw [flatMap_cons, append_assoc] at hrest
    obtain ⟨e, l'', hdial⟩ := dialDataPassive_error h hrest cfg c
    rw [Client.transfer, hx] at hconn
    simp only [hdial] at hconn
    split at hconn <;> cases hconn

/-- **The client never gets a data connection from the server**, neither to read a file nor to write
one. -/
theorem not_obtains_transfer (cfg : Config W) (c : Client W) (st : State W) (path : Bytes) :
    ¬ Obtains (c.retr cfg path { server := st }) ∧ ¬ Obtains (c.stor cfg path { server := st }) :=
  ⟨transfer_error (.inl rfl) cfg c st path, transfer_error (.inr rfl) cfg c st path⟩

end

section
attribute [local instance] asciiTables

/-- A server with one file and a network on which every connection succeeds. -/
def fileConfig : Config Unit :=
  { openConfig with
    filesystem := (newOS (.error []) (lit "/srv")).filesystem
      { openHost with copyOut := fun _ _ w => ((lit "content", .ok ()), w) }
    net :=
      { listen := fun _ w => (.ok (lit "0.0.0.0:5000"), w), accept := fun _ w => (.ok [], w)
        dial := fun _ w => (.ok [], w), write := fun _ w => (.ok (), w) } }

def loggedIn : State Unit :=
  (serveLine fileConfig (serveLine fileConfig { world := () } (lit "USER u\r\n")).1
    (lit "PASS p\r\n")).1

/-- The server refuses the file to a client that has logged in: it has no data connection yet. -/
theorem not_obtains_logged_in :
    loggedIn.session.logged = true ∧
      (OS.resolve loggedIn.session.cwd (lit "file")) = .ok (lit "/file") ∧
      (fileConfig.filesystem.sendFile loggedIn.session.auth (lit "/file") 0 ()).1 =
        (lit "content", .ok ()) ∧
      (Client.retr fileConfig { host := lit "127.0.0.1", dial := fun _ w => (.ok (), w) }
        (lit "file") { server := loggedIn }).1 =
          .error (.reply { code := codeCantOpenData, lines := [lit "no data channel set up"] }) :=
  ⟨by decide +kernel, by decide +kernel, by decide +kernel, by decide +kernel⟩

end

end Ftp
