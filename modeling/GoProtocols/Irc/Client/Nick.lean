import GoProtocols.Irc.Client.Negotiation

/-!
# A nick that is in use

When the server refuses the nick (433), `handleNickInUse` asks for the nick with `_` at its end, but
the client goes on with the nick it has: `nicks_sent` says what it asks for in a conversation
without a welcome and a change of nick, and by `nicks_nodup_iff` it asks for a refused nick again
when it is refused twice.
-/

namespace Irc

open Go List

/-- The nicks that messages ask for. -/
def nicks (msgs : List Message) : List Bytes :=
  (msgs.filter fun m => m.command = Verb.NICK.name).map (·.param 0)

theorem nicks_append (l₁ l₂ : List Message) : nicks (l₁ ++ l₂) = nicks l₁ ++ nicks l₂ := by
  simp [nicks]

theorem nicks_eq_nil {msgs : List Message} (h : ∀ m ∈ msgs, m.command ≠ Verb.NICK.name) :
    nicks msgs = [] := by
  simpa [nicks] using h

section
variable [UnicodeTables] {μ : Type} (cfg : ClientConfig μ) {msgs : List Message}

namespace Connection

variable (cfg : ClientConfig μ) {c : Connection μ} {msg : Message}

/-- A handler that leaves the nick as it is, and asks for none. -/
def Silent (c : Connection μ) (r : Connection μ × List Message) : Prop :=
  r.1.nick = c.nick ∧ ∀ m ∈ r.2, m.command ≠ Verb.NICK.name

theorem silent_handleCAP : c.Silent (c.handleCAP cfg msg) := by
  have hCAP : Verb.CAP.name ≠ Verb.NICK.name := by decide
  have hAUTH : Verb.AUTHENTICATE.name ≠ Verb.NICK.name := by decide
  unfold handleCAP handleLS handleACK handleNAK handleNEW handleDEL startSASL Silent
  dsimp only
  repeat' split
  all_goals
    simp [panic, capEnd, endMessage, reqMessage, sendf, setPhase, Client.authenticateMessage,
      hCAP, hAUTH]

omit [UnicodeTables] in
theorem silent_handleAuthenticate : c.Silent (c.handleAuthenticate cfg msg) := by
  have hAUTH : Verb.AUTHENTICATE.name ≠ Verb.NICK.name := by decide
  unfold handleAuthenticate Silent
  split
  · simp
  · rename_i sasl _
    refine ⟨rfl, ?_⟩
    fun_cases Client.handleAuthenticate sasl.mechanism c.toClient msg <;>
      simp [Client.abortSASL, Client.authenticateMessage, hAUTH]

/-- The client reads a refusal of a nick. -/
def Refused (c : Connection μ) (msg : Message) : Prop :=
  c.panicked = false ∧ msg.command = lit "433"

instance (c : Connection μ) (msg : Message) : Decidable (c.Refused msg) :=
  inferInstanceAs (Decidable (_ ∧ _))

theorem dispatch_refused (h : c.Refused msg) : c.dispatch cfg msg = c.handleNickInUse := by
  have hb : builtinOf msg = some .nickInUse := by
    rw [builtinOf, h.2]
    decide
  rw [dispatch, h.1, hb]
  rfl

theorem silent_dispatch (h : msg.command ≠ lit "001" ∧ msg.command ≠ Verb.NICK.name)
    (href : ¬ c.Refused msg) : c.Silent (c.dispatch cfg msg) := by
  unfold dispatch
  split_ifs with hpanicked
  · exact ⟨rfl, by simp⟩
  cases hb : builtinOf msg with
  | none => exact ⟨rfl, by simp⟩
  | some b =>
    have hmem := builtinOf_mem hb
    simp only [builtinHandlers, mem_cons, Prod.mk.injEq, not_mem_nil, or_false] at hmem
    cases b with
    | ping =>
      refine ⟨rfl, fun m hm => ?_⟩
      rw [mem_singleton.1 hm]
      exact show Verb.PONG.name ≠ _ by decide
    | cap => exact silent_handleCAP cfg
    | authenticate => exact silent_handleAuthenticate cfg
    | welcome => exact absurd (by simpa using hmem) h.1
    | nickInUse => exact absurd ⟨eq_false_of_ne_true hpanicked, by simpa using hmem⟩ href
    | saslFail | saslSuccess =>
      simp only [Option.elim_some, builtin, handleSASLDone]
      split_ifs
      · exact ⟨rfl, by simp [capEnd, endMessage, sendf]; decide⟩
      · exact ⟨rfl, by simp⟩
    | nickChange => exact absurd (by simpa using hmem) h.2

end Connection

namespace ClientConfig

/-- How often the client reads that its nick is in use. -/
def refusals (msgs : List Message) : Nat :=
  (cfg.conversation.collect (fun c msg => if c.Refused msg then [msg] else []) msgs).length

theorem nicks_sent {cfg : ClientConfig μ}
    (h : ∀ msg ∈ msgs, msg.command ≠ lit "001" ∧ msg.command ≠ Verb.NICK.name) :
    (cfg.conversation.after msgs).nick = cfg.setDefaults.nick ∧
      nicks (cfg.sent msgs) = cfg.setDefaults.nick ::
        List.replicate (cfg.refusals msgs) (cfg.setDefaults.nick ++ lit "_") := by
  induction msgs using List.reverseRecOn with
  | nil =>
    refine ⟨rfl, ?_⟩
    rw [sent, System.collect_nil, append_nil, connect, nicks_append, nicks_append]
    split_ifs <;> rfl
  | append_singleton msgs msg ih =>
    obtain ⟨hnick, hsent⟩ := ih (forall_mem_append.1 h).1
    unfold refusals at hsent ⊢
    rw [System.after_concat, sent_concat, nicks_append, hsent, System.collect_concat]
    by_cases href : (cfg.conversation.after msgs).Refused msg
    · have hstep := Connection.dispatch_refused cfg.setDefaults href
      rw [hstep, if_pos href, length_append, length_singleton, replicate_succ']
      exact ⟨(congrArg (·.1.nick) hstep).trans hnick, by rw [cons_append, ← hnick]; rfl⟩
    · have hsilent := Connection.silent_dispatch cfg.setDefaults (h msg (by simp)) href
      rw [if_neg href, append_nil, nicks_eq_nil hsilent.2, append_nil]
      exact ⟨hsilent.1.trans hnick, rfl⟩

/-- **The nicks that a client asks for are distinct exactly if it is refused once at most.** -/
theorem nicks_nodup_iff (h : ∀ msg ∈ msgs, msg.command ≠ lit "001" ∧ msg.command ≠ Verb.NICK.name) :
    (nicks (cfg.sent msgs)).Nodup ↔ cfg.refusals msgs ≤ 1 := by
  rw [(nicks_sent h).2, nodup_cons, nodup_replicate]
  refine and_iff_right fun hmem => ?_
  have := congrArg List.length (eq_of_mem_replicate hmem)
  simp [show lit "_" = [95] by decide] at this

end ClientConfig

end

section
attribute [local instance] asciiTables

/-- The server says that a nick is in use. -/
def inUse : Message := { command := lit "433", params := [lit "*", lit "a", lit "in use"] }

theorem nicks_nodup_iff_once :
    (nicks (plainClient.sent [serverCap [lit "LS", lit "sasl"], inUse])).Nodup :=
  (plainClient.nicks_nodup_iff (by decide)).2 (by decide +kernel)

theorem nicks_asked_again :
    nicks (plainClient.sent [inUse, inUse]) = [lit "gopher", lit "gopher_", lit "gopher_"] ∧
      ¬ (nicks (plainClient.sent [inUse, inUse])).Nodup := by
  decide +kernel

end

end Irc
