import GoProtocols.Irc.Proof.Reach
import GoProtocols.Irc.Proof.Says.Channels
import GoProtocols.Irc.Proof.Says.Messaging
import GoProtocols.Irc.Proof.Says.Queries

/-!
# Echoes

Every line that the server sends is to be read as the message that it was written for. What a client
sends can stand in a reply before another parameter, and there it has to be in one piece: not empty,
without a blank, and without a colon in front. The handlers do not check it, nor what they remember.
A command is answered with lines that can all be read if all its texts fit (`mentions`), and if it
does not complete the handshake (`dispatch_faithful`): the second line of `RPL_ISUPPORT` begins with
a text of several words, for every client.
-/

namespace Irc

open Go Prog List

section
variable [UnicodeTables]

/-! ## Replies that can be read -/

section
variable {env : Env} {srv : Server} {s : SessionId} {msg : Message} (hmsg : msg.Spelled)
  (ht : Middle (srv.session s).target)
include hmsg ht

theorem tells_dispatchRegistered (hnick : verbOf (toUpper msg.command) ≠ some .NICK)
    (hping : verbOf (toUpper msg.command) ≠ some .PING)
    (h : Fit (mentionsRegistered env srv s msg)) :
    Tells env srv (dispatchRegistered s msg (toUpper msg.command)) := by
  have hunknown (h : Fit [.word (toUpper msg.command)]) : Tells env srv
      (sendNumeric s .ERR_UNKNOWNCOMMAND [toUpper msg.command, lit "Unknown command"]) :=
    (says_refusal ht (fit_cons.1 h).1 (by decide)).tells rfl
  unfold dispatchRegistered
  unfold mentionsRegistered at h
  cases hv : verbOf (toUpper msg.command) with
  | none =>
    rw [hv] at h
    exact hunknown h
  | some v =>
    rw [hv] at h
    cases v
    case JOIN => exact (says_handleJoin ht h).tells (Phase.joining_self h)
    case PART => exact (says_handlePart ht h).tells rfl
    case TOPIC => exact tells_handleTopic ht h
    case NAMES => exact (says_handleNames ht h).tells rfl
    case LIST => exact (says_handleList ht h).tells rfl
    case KICK => exact tells_handleKick ht hmsg h
    case INVITE => exact (says_handleInvite ht hmsg h).tells rfl
    case MODE => exact tells_handleMode ht hmsg h
    case PRIVMSG | NOTICE => exact tells_handlePrivmsg ht hmsg hv h
    case TAGMSG => exact tells_handleTagmsg ht hmsg h
    case CHATHISTORY => exact (says_handleChatHistory ht h).tells rfl
    case WHO => exact (says_handleWho ht h).tells rfl
    case WHOIS => exact (says_handleWhois ht h).tells rfl
    case WHOWAS => exact (says_handleWhowas ht h).tells rfl
    case AWAY => exact tells_handleAway ht (fit_cons.1 h).1 (fit_cons.1 (fit_cons.1 h).2).1
    case NICK => exact absurd hv hnick
    case USERHOST => exact (says_handleUserhost ht h).tells rfl
    case ISON => exact (says_handleIson ht h).tells rfl
    case MONITOR => exact tells_handleMonitor ht h
    case PING => exact absurd hv hping
    case MOTD => exact (says_sendMOTD ht h).tells rfl
    case LUSERS => exact (says_sendLusers ht).tells rfl
    case VERSION => exact (says_handleVersion ht (fit_cons.1 h).1).tells rfl
    case TIME => exact (says_handleTime ht (fit_cons.1 h).1).tells rfl
    case ADMIN =>
      exact (says_handleAdmin ht (fit_cons.1 h).1 (fit_cons.1 (fit_cons.1 h).2).1).tells rfl
    case INFO => exact (says_handleInfo ht).tells rfl
    case STATS => exact (says_handleStats ht h).tells rfl
    case WALLOPS =>
      exact (says_handleWallops ht (fit_cons.1 h).1 (fit_cons.1 (fit_cons.1 h).2).1).tells rfl
    case OPER => exact tells_handleOper ht (fit_cons.1 h).1
    case KILL => exact tells_handleKill ht hmsg (fit_cons.1 h).1
    case SETNAME => exact tells_handleSetname (fit_cons.1 h).1 (fit_cons.1 (fit_cons.1 h).2).1
    all_goals exact hunknown h

omit ht in
/-- **What a command is answered with can be read**, if its texts fit and it does not complete the
handshake. -/
theorem tells_dispatch (hnot : ¬ srv.users.Completes s msg) (h : Fit (mentions env srv s msg)) :
    Tells env srv (dispatch s msg) := by
  have hother (hnick : verbOf (toUpper msg.command) ≠ some .NICK)
      (hping : verbOf (toUpper msg.command) ≠ some .PING)
      (h : Fit (.word (srv.session s).target :: if (srv.session s).state = .registered then
        mentionsRegistered env srv s msg else [])) :
      Tells env srv (dispatchOther s msg (toUpper msg.command)) := by
    obtain ⟨ht, h⟩ := fit_cons.1 h
    refine .server (.ite (fun _ => (says_text ht (by decide)).tells rfl) fun hreg => ?_)
    rw [not_not] at hreg
    rw [if_pos hreg] at h
    exact tells_dispatchRegistered hmsg ht hnick hping h
  unfold dispatch
  unfold mentions at h
  cases hv : verbOf (toUpper msg.command) with
  | none =>
    rw [hv] at h
    exact hother (by simp [hv]) (by simp [hv]) h
  | some v =>
    rw [hv] at h
    cases v
    case CAP => exact tells_handleCAP (fit_cons.1 h).1 hv hnot (fit_cons.1 h).2
    case PASS => exact (says_handlePass (fit_cons.1 h).1).tells rfl
    case NICK => exact tells_handleNick (fit_cons.1 h).1 hv hnot (fit_cons.1 h).2
    case USER => exact tells_handleUser (fit_cons.1 h).1 hv hnot
    case QUIT => exact tells_handleQuit
    case PING => exact (says_handlePing hmsg (fit_cons.1 h).1).tells rfl
    case PONG => exact .pure ()
    case AUTHENTICATE => exact tells_handleAuthenticate (fit_cons.1 h).1 (fit_cons.1 h).2
    all_goals exact hother (by simp [hv]) (by simp [hv]) h

end

/-! ## Every line is the message it was meant to be -/

end

section
attribute [local instance] asciiTables

theorem still_plain : (Config.still {}).Plain where
  name := by decide
  text _ := show 32 ∉ lit "BATCH" ∧ Clear (lit "BATCH") by decide

/-- Two users in a channel; the second one has a user name and a host that begin with a colon. -/
def company : List Event :=
  introduction 0 (lit "alice") ++ [.line 0 (lit "USER ali 0 * :Alice"), .line 0 (lit "JOIN #go"),
    .connect (lit "[::1]:50000") false [], .line 1 (lit "NICK bob"),
    .line 1 (lit "USER ~:x 0 * :Bob"), .line 1 (lit "JOIN #go"), .line 1 (lit "AWAY :for lunch")]

end

end Irc
