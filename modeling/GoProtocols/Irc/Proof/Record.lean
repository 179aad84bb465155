import GoProtocols.Irc.Proof.Commands

/-!
# What is recorded

`PRIVMSG` and `NOTICE` are the only commands that add to a history. `Server.record` says where the
entry of a message goes: to the history of the channel, or to the histories of both sessions, each
under the nick of the other. `dispatch_records` shows that this is all.
-/

namespace Irc

open Go Prog Option

variable {srv : Server} {entries : List ChatHistoryEntry}

set_option synthInstance.maxSize 4096

/-! ## Stored histories -/

/-- A history that the server holds: of a channel, or of a session for a target. -/
inductive Server.Stored (srv : Server) : List ChatHistoryEntry → Prop
  | channel {key : Bytes} {ch : Channel} (h : srv.channels.lookup key = some ch) :
      Stored srv ch.history
  | session {t : SessionId} {key : Bytes} {entries : List ChatHistoryEntry}
      (h : (srv.session t).history.lookup key = some entries) : Stored srv entries

theorem Server.Steady.stored {p : Scope} {srv' : Server} (h : srv.Steady p srv')
    (hp : p.records = false) (hs : srv'.Stored entries) :
    entries = [] ∨ srv.Stored entries := by
  cases hs with
  | channel hch =>
    rcases h.rooms hp _ _ hch with hnew | ⟨ch, hch', heq⟩
    · exact .inl hnew
    · rw [heq]
      exact .inr (.channel hch')
  | session ht =>
    rw [(h.session _).history hp] at ht
    exact .inr (.session ht)

theorem stored_connect {env : Env} {st : State} {addr : Bytes} {secure : Bool} {serverName : Bytes}
    (hs : (connect addr secure serverName env st).2.srv.Stored entries) :
    st.srv.Stored entries := by
  simp only [connect, bind_run, ite_run] at hs
  split at hs
  · exact hs
  · cases hs with
    | channel hch => exact .channel hch
    | @session t key _ ht =>
      simp only [updateServer, Function.update_apply] at ht
      split at ht
      · cases ht
      · exact .session ht

theorem trimHistory_append (entries new : List ChatHistoryEntry)
    (h : new.length ≤ chatHistoryLimit) :
    ∃ kept, kept <:+ entries ∧ trimHistory (entries ++ new) = kept ++ new := by
  refine ⟨entries.drop ((entries ++ new).length - chatHistoryLimit), List.drop_suffix _ _, ?_⟩
  unfold trimHistory
  rw [List.drop_append_of_le_length]
  rw [List.length_append]
  omega

section
variable [UnicodeTables] (target : Bytes) (outMsg : Message) (e : ChatHistoryEntry) (notice : Bool)
  {s : SessionId}

/-! ## Recording -/

/-- The message that is relayed for a message of a session. -/
def relayed (u : Session) (msg : Message) (verb : Verb) (at_ : Time) (msgid : Bytes) : Message :=
  { tags := relayTags u msg msgid (serverTime at_), source := some u.source
    command := verb.name, params := [msg.param 0, msg.param 1] }

def relayVerb : Verb := if notice then .NOTICE else .PRIVMSG

/-- The entry of a message that is handled in a state. -/
def messageEntry (env : Env) (st : State) (s : SessionId) (msg : Message) (notice : Bool) :
    ChatHistoryEntry where
  time := (env.world.now st.reads).utc
  msg := relayed (st.srv.session s) msg (relayVerb notice) (env.world.now st.reads)
    (env.world.text (st.reads + 1))
  verb := relayVerb notice
  command_eq := rfl

/-- Add an entry to the histories of two sessions, each under the nick of the other. -/
def Server.recordPrivate (srv : Server) (s dest : SessionId) (e : ChatHistoryEntry) : Server :=
  (srv.setSession s (Session.appendHistory · (srv.session dest).nick e)).setSession dest
    (Session.appendHistory · (srv.session s).nick e)

/-- Add an entry to the history of a channel, unless the session may not send to it. -/
def Server.recordChannel (srv : Server) (s : SessionId) (target : Bytes) (e : ChatHistoryEntry) :
    Server :=
  if (srv.getChannel target).any fun ch => (channelRefusal (srv.session s) ch).isNone then
    srv.setChannel (toLower target) (Channel.appendHistory · e)
  else srv

def Server.record (srv : Server) (s : SessionId) (target : Bytes) (e : ChatHistoryEntry) : Server :=
  if isChannelTarget target then srv.recordChannel s target e
  else (srv.getSession target).elim srv fun dest => srv.recordPrivate s dest e

theorem Server.historySnapshot_stored (srv : Server) (t : SessionId) (target : Bytes) :
    (srv.session t).historySnapshot target = [] ∨
      srv.Stored ((srv.session t).historySnapshot target) := by
  unfold Session.historySnapshot
  cases h : (srv.session t).history.lookup (toLower target) with
  | none => exact .inl rfl
  | some entries => exact .inr (.session h)

theorem Server.stored_setSession {target : Bytes} {e : ChatHistoryEntry}
    (h : (srv.setSession s (Session.appendHistory · target e)).Stored entries) :
    srv.Stored entries ∨
      entries = trimHistory ((srv.session s).historySnapshot target ++ [e]) := by
  cases h with
  | channel hch => exact .inl (.channel hch)
  | @session t key _ ht =>
    by_cases hts : t = s
    · subst hts
      simp only [Server.setSession, Function.update_self, Session.appendHistory,
        Map.lookup_insert_eq] at ht
      split at ht
      · exact .inr (Option.some.inj ht).symm
      · exact .inl (.session ht)
    · simp only [Server.setSession, Function.update_of_ne hts] at ht
      exact .inl (.session ht)

theorem Server.historySnapshot_setSession (srv : Server) (s : SessionId) (target : Bytes)
    (e : ChatHistoryEntry) :
    ((srv.setSession s (Session.appendHistory · target e)).session s).historySnapshot target =
      trimHistory ((srv.session s).historySnapshot target ++ [e]) := by
  simp [Server.setSession, Session.appendHistory, Session.historySnapshot]

/-- **What is stored after an entry was recorded**: what was there, and histories to which it was
added, once for a message to another session or to a channel. -/
theorem Server.stored_record {target : Bytes} {e : ChatHistoryEntry}
    (hself : ¬ isChannelTarget target = true → srv.getSession target ≠ some s)
    (h : (srv.record s target e).Stored entries) :
    srv.Stored entries ∨
      ∃ old, (old = [] ∨ srv.Stored old) ∧ entries = trimHistory (old ++ [e]) := by
  unfold Server.record at h
  split at h
  · unfold Server.recordChannel at h
    split at h
    · unfold Server.setChannel at h
      cases hch : srv.channels.lookup (toLower target) with
      | none =>
        rw [hch] at h
        exact .inl h
      | some ch =>
        rw [hch] at h
        cases h with
        | @channel key ch' hch' =>
          rw [Map.lookup_insert_eq] at hch'
          split at hch'
          · cases hch'
            exact .inr ⟨ch.history, .inr (.channel hch), rfl⟩
          · exact .inl (.channel hch')
        | session ht => exact .inl (.session ht)
    · exact .inl h
  · rename_i htarget
    cases hdest : srv.getSession target with
    | none =>
      rw [hdest] at h
      exact .inl h
    | some dest =>
      rw [hdest, elim_some] at h
      have hne : dest ≠ s := fun he => hself htarget (he ▸ hdest)
      rcases Server.stored_setSession h with h | h
      · rcases Server.stored_setSession h with h | h
        · exact .inl h
        · exact .inr ⟨_, srv.historySnapshot_stored s _, h⟩
      · simp only [Server.setSession, Function.update_of_ne hne] at h
        exact .inr ⟨_, srv.historySnapshot_stored dest _, h⟩

/-- The state in which a message is recorded; the clock and the random texts were asked. -/
def State.recorded (st : State) (srv : Server) : State :=
  { st with srv := srv, reads := st.reads + 2 }

variable {s : SessionId} {msg : Message} {env : Env} {st : State}

theorem relayToChannel_records [IsUnframed {} outMsg] (st : State) :
    Steady {} { st with srv := st.srv.recordChannel s target e }
      (relayToChannel s target outMsg (some e) env st).2 := by
  simp only [relayToChannel, bind_run, Server.recordChannel, server_run]
  cases hch : st.srv.getChannel target with
  | none => exact within_run (Steady {}) (sendNumeric s _ _) env st
  | some ch =>
    rw [elim_some, any_some]
    cases hrefusal : channelRefusal (st.srv.session s) ch with
    | some text => exact within_run (Steady {}) (sendNumeric s _ _) env st
    | none =>
      rw [elim_none, isNone_none, if_pos rfl]
      exact within_run (Steady {}) (do
        broadcast ch outMsg (some s)
        when ((st.srv.session s).capEnabled .echoMessage) (send s outMsg)) env
          { st with srv := st.srv.setChannel (toLower target) (Channel.appendHistory · e) }

theorem relayToNick_records [IsUnframed {} outMsg] (st : State) :
    Steady {} { st with
        srv := (st.srv.getSession target).elim st.srv fun dest => st.srv.recordPrivate s dest e }
      (relayToNick s target outMsg (some e) notice env st).2 := by
  simp only [relayToNick, bind_run, server_run]
  cases hdest : st.srv.getSession target with
  | none => exact within_run (Steady {}) (sendNumeric s _ _) env st
  | some dest =>
    rw [elim_some, elim_some, elim_some]
    exact within_run (Steady {}) (do
      (if dest = s then sendImmediate s outMsg else send dest outMsg)
      when ((st.srv.session s).capEnabled .echoMessage) (send s outMsg)
      when ((st.srv.session dest).away ≠ [] ∧ ¬ notice)
        (sendNumeric s .RPL_AWAY [target, (st.srv.session dest).away])) env
          { st with srv := st.srv.recordPrivate s dest e }

theorem handlePrivmsg_records (h : 2 ≤ msg.params.length) :
    Steady {}
      (st.recorded (st.srv.record s (msg.param 0) (messageEntry env st s msg notice)))
      (handlePrivmsg s msg notice env st).2 := by
  have hverb : NotBatch (relayVerb notice).name := by
    cases notice
    · exact inferInstanceAs (NotBatch Verb.PRIVMSG.name)
    · exact inferInstanceAs (NotBatch Verb.NOTICE.name)
  have hout : IsUnframed {} (messageEntry env st s msg notice).msg :=
    inferInstanceAs (IsUnframed {} (Message.mk (relayTags _ _ _ _) _ (relayVerb notice).name _))
  simp only [handlePrivmsg, ite_run]
  rw [if_neg (Nat.not_lt.2 h)]
  simp only [bind_run, ite_run, Server.record]
  split
  · exact relayToChannel_records (msg.param 0) (messageEntry env st s msg notice).msg
      (messageEntry env st s msg notice) (st.recorded st.srv)
  · exact relayToNick_records (msg.param 0) (messageEntry env st s msg notice).msg
      (messageEntry env st s msg notice) notice (st.recorded st.srv)

/-- The message of a session is one that is recorded. -/
def Server.Records (srv : Server) (s : SessionId) (msg : Message) (notice : Bool) : Prop :=
  verbOf (toUpper msg.command) = some (relayVerb notice) ∧
    (srv.session s).state = .registered ∧ 2 ≤ msg.params.length

theorem dispatch_relay {notice : Bool}
    (h : verbOf (toUpper msg.command) = some (relayVerb notice)) (env : Env) (st : State) :
    dispatch s msg env st =
      if (st.srv.session s).state = .registered then handlePrivmsg s msg notice env st
      else sendNumeric s .ERR_NOTREGISTERED [lit "You have not registered"] env st := by
  cases notice <;>
    exact dispatch_run s msg _ (by simp [dispatch, h, relayVerb])
      (by simp [dispatchRegistered, h, relayVerb]) env st

theorem dispatch_records {notice : Bool} (env : Env) (h : st.srv.Records s msg notice) :
    Steady {}
      (st.recorded (st.srv.record s (msg.param 0) (messageEntry env st s msg notice)))
      (dispatch s msg env st).2 := by
  obtain ⟨hverb, hreg, hparams⟩ := h
  rw [dispatch_relay hverb, if_pos hreg]
  exact handlePrivmsg_records notice hparams

theorem dispatch_unrecorded (h : ∀ notice, ¬ st.srv.Records s msg notice) :
    ∃ p : Scope, p.records = false ∧ Steady p st (dispatch s msg env st).2 := by
  by_cases hverb : ∃ notice, verbOf (toUpper msg.command) = some (relayVerb notice)
  · obtain ⟨notice, hverb⟩ := hverb
    rw [dispatch_relay hverb]
    split
    · rename_i hreg
      have hparams : msg.params.length < 2 := by
        by_contra hp
        exact h notice ⟨hverb, hreg, Nat.not_lt.1 hp⟩
      simp only [handlePrivmsg, ite_run]
      rw [if_pos hparams]
      exact ⟨{}, rfl, within_run (Steady {}) (sendNumeric s _ _) env st⟩
    · exact ⟨{}, rfl, within_run (Steady {}) (sendNumeric s _ _) env st⟩
  · have hscope : msg.scope.records = false := by
      have hnot (notice : Bool) : verbOf (toUpper msg.command) ≠ some (relayVerb notice) :=
        fun hv => hverb ⟨notice, hv⟩
      simpa [Message.scope, relayVerb] using And.intro (hnot false) (hnot true)
    exact ⟨msg.scope, hscope, (script_dispatch s msg).within.run env st⟩

end

end Irc
