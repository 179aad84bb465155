import GoProtocols.Irc.Proof.Record
import GoProtocols.Irc.Proof.Reach

/-!
# Message ids in histories

Every recorded message has an id of its own, so that in a history no id should occur twice. A
message that a session sends to its own nick is recorded twice, however: once for the sender and once
for the receiver, in the same history. `distinctIds_iff`: these messages are the only exception.
-/

namespace Irc

open Go Prog List

/-! ## Ids -/

variable {env : Env} {n : Nat} {entries : List ChatHistoryEntry} {e : ChatHistoryEntry}

def ChatHistoryEntry.msgid (e : ChatHistoryEntry) : Bytes := msgidTag e.msg

def Server.DistinctIds (srv : Server) : Prop :=
  ∀ entries, srv.Stored entries → (entries.map ChatHistoryEntry.msgid).Nodup

theorem msgid_messageEntry (env : Env) (st : State) (s : SessionId) (msg : Message)
    (notice : Bool) :
    (messageEntry env st s msg notice).msgid = env.world.text (st.reads + 1) := by
  unfold ChatHistoryEntry.msgid msgidTag messageEntry relayed
  dsimp only
  rw [lookup_relayTags _ _ _ _ (by decide), if_neg fun h => absurd h.1 (by decide)]
  rfl

/-- The ids of a history are distinct, and are among the first `n` random texts. -/
def Issued (env : Env) (n : Nat) (entries : List ChatHistoryEntry) : Prop :=
  (entries.map ChatHistoryEntry.msgid).Nodup ∧
    ∀ e ∈ entries, ∃ i < n, e.msgid = env.world.text i

theorem issued_nil (env : Env) (n : Nat) : Issued env n [] := by simp [Issued]

theorem Issued.mono {n' : Nat} (h : Issued env n entries) (hn : n ≤ n') :
    Issued env n' entries := by
  refine ⟨h.1, fun e he => ?_⟩
  obtain ⟨i, hi, hid⟩ := h.2 e he
  exact ⟨i, Nat.lt_of_lt_of_le hi hn, hid⟩

theorem Issued.concat (htext : Function.Injective env.world.text) (h : Issued env n entries)
    (he : e.msgid = env.world.text (n + 1)) :
    Issued env (n + 2) (trimHistory (entries ++ [e])) := by
  obtain ⟨kept, hkept, htrim⟩ := trimHistory_append entries [e] (by simp [chatHistoryLimit])
  rw [htrim]
  refine ⟨?_, forall_mem_append.2 ⟨fun e' hold => ?_, forall_mem_singleton.2 ⟨n + 1, by omega, he⟩⟩⟩
  · rw [map_append, nodup_append]
    refine ⟨h.1.sublist (hkept.sublist.map _), nodup_singleton _, ?_⟩
    intro id hid id' hid'
    obtain ⟨old, hold, rfl⟩ := mem_map.1 hid
    obtain rfl := mem_singleton.1 hid'
    obtain ⟨i, hi, hid⟩ := h.2 old (hkept.subset hold)
    rw [hid, he]
    intro heq
    have := htext heq
    omega
  · obtain ⟨i, hi, hid⟩ := h.2 e' (hkept.subset hold)
    exact ⟨i, by omega, hid⟩

def State.Issued (env : Env) (st : State) : Prop :=
  ∀ entries, st.srv.Stored entries → Irc.Issued env st.reads entries

theorem Steady.issued {p : Scope} {st st' : State} (h : Steady p st st') (hp : p.records = false)
    (hst : st.Issued env) : st'.Issued env := by
  intro entries hs
  rcases h.srv.stored hp hs with rfl | hs
  · exact issued_nil env _
  · exact (hst entries hs).mono h.reads

theorem connect_issued {st : State} (addr : Bytes) (secure : Bool) (serverName : Bytes)
    (hst : st.Issued env) : (connect addr secure serverName env st).2.Issued env := by
  intro entries hs
  refine (hst entries (stored_connect hs)).mono ?_
  simp only [connect, bind_run, ite_run]
  split
  · exact Nat.le_refl _
  · exact Nat.le_add_right _ 2

section
variable [UnicodeTables] (srv : Server) (s : SessionId)

/-! ## Specification -/

/-- The message of a session is recorded, and is addressed to the session itself. -/
def Server.ToSelf (msg : Message) : Prop :=
  (∃ notice, srv.Records s msg notice) ∧ ¬ isChannelTarget (msg.param 0) ∧
    srv.getSession (msg.param 0) = some s

def Event.NotToSelf (st : State) : Event → Prop
  | .line s raw => ∀ msg ∈ lineMessage raw, ¬ st.srv.ToSelf s msg
  | _ => True

instance (msg : Message) (notice : Bool) : Decidable (srv.Records s msg notice) :=
  inferInstanceAs (Decidable (_ ∧ _))

instance (msg : Message) : Decidable (srv.ToSelf s msg) :=
  inferInstanceAs (Decidable (_ ∧ _))

instance (st : State) : (e : Event) → Decidable (e.NotToSelf st)
  | .line _ _ => inferInstanceAs (Decidable (∀ _ ∈ _, _))
  | .connect _ _ _ | .disconnect _ => inferInstanceAs (Decidable True)

/-! ## Steps -/

variable {env : Env} {st st' : State} {s : SessionId} {msg : Message} {e : Event}

theorem dispatch_issued (htext : Function.Injective env.world.text) (hst : st.Issued env)
    (hself : ¬ st.srv.ToSelf s msg) : (dispatch s msg env st).2.Issued env := by
  by_cases hrecords : ∃ notice, st.srv.Records s msg notice
  · obtain ⟨notice, hrec⟩ := hrecords
    refine (dispatch_records env hrec).issued rfl fun entries hs => ?_
    have hother : ¬ isChannelTarget (msg.param 0) = true →
        st.srv.getSession (msg.param 0) ≠ some s :=
      fun hchan hdest => hself ⟨⟨notice, hrec⟩, hchan, hdest⟩
    rcases Server.stored_record hother hs with hold | ⟨old, hold, rfl⟩
    · exact (hst entries hold).mono (Nat.le_add_right _ 2)
    · have hold : Irc.Issued env st.reads old := by
        rcases hold with rfl | hold
        · exact issued_nil env _
        · exact hst old hold
      exact hold.concat htext (msgid_messageEntry env st s msg notice)
  · obtain ⟨p, hp, hsteady⟩ := dispatch_unrecorded fun notice h => hrecords ⟨notice, h⟩
    exact hsteady.issued hp hst

/-- **A message to oneself is recorded twice in one history.** -/
theorem dispatch_repeats (env : Env) (hself : st.srv.ToSelf s msg) :
    ¬ (dispatch s msg env st).2.srv.DistinctIds := by
  obtain ⟨⟨notice, hrec⟩, hchan, hdest⟩ := hself
  intro hdistinct
  have hsteady := dispatch_records env hrec
  generalize messageEntry env st s msg notice = e at hsteady
  -- the history of the session under its own nick
  have hhistory : ((dispatch s msg env st).2.srv.session s).historySnapshot
      (st.srv.session s).nick =
      trimHistory (trimHistory
        ((st.srv.session s).historySnapshot (st.srv.session s).nick ++ [e]) ++ [e]) := by
    rw [Session.historySnapshot, (hsteady.srv.session s).history rfl]
    simp only [State.recorded, Server.record, if_neg hchan, hdest, Option.elim_some,
      Server.recordPrivate]
    exact (Server.historySnapshot_setSession _ s _ e).trans
      (congrArg (fun old => trimHistory (old ++ [e])) (st.srv.historySnapshot_setSession s _ e))
  obtain ⟨kept, -, htrim⟩ := trimHistory_append
    ((st.srv.session s).historySnapshot (st.srv.session s).nick) [e] (by simp [chatHistoryLimit])
  obtain ⟨kept', -, htrim'⟩ := trimHistory_append kept [e, e]
    (by simp [chatHistoryLimit])
  rw [htrim, append_assoc, singleton_append, htrim'] at hhistory
  rcases (dispatch s msg env st).2.srv.historySnapshot_stored s
    (st.srv.session s).nick with hnil | hstored
  · rw [hhistory] at hnil
    simp at hnil
  · have hnodup := hdistinct _ hstored
    rw [hhistory, map_append, nodup_append] at hnodup
    simp at hnodup

theorem Begun.toSelf_iff (h : Begun s st st') : st'.srv.ToSelf s msg ↔ st.srv.ToSelf s msg := by
  obtain ⟨t, hsrv⟩ := h.srv
  rw [hsrv]
  simp [Server.ToSelf, Server.Records, Server.setSession, Server.getSession]

/-! ## Runs -/

theorem exec_issued (htext : Function.Injective env.world.text) (hst : st.Issued env)
    (hgood : e.NotToSelf st) : (e.exec env st).2.Issued env := by
  cases e with
  | connect addr secure serverName => exact connect_issued addr secure serverName hst
  | line s raw =>
    rcases handleLine_cases s raw env st with ⟨-, honward⟩ | ⟨msg, st₁, hline, hbegun, honward⟩
    · exact (honward.steady (p := {})).issued rfl hst
    · refine (honward.steady (p := {})).issued rfl (dispatch_issued htext ?_ ?_)
      · exact (hbegun.steady (p := {})).issued rfl hst
      · rw [hbegun.toSelf_iff]
        exact hgood msg hline
  | disconnect s => exact (steady_disconnect s env st).issued rfl hst

theorem exec_distinctIds (h : (e.exec env st).2.srv.DistinctIds) : e.NotToSelf st := by
  cases e with
  | connect addr secure serverName | disconnect s => trivial
  | line s raw =>
    intro msg hmsg hself
    rcases handleLine_cases s raw env st with ⟨hnone, -⟩ | ⟨msg', st₁, hline, hbegun, honward⟩
    · rw [hnone] at hmsg
      cases hmsg
    · obtain rfl : msg' = msg := Option.some.inj (hline.symm.trans hmsg)
      rw [← hbegun.toSelf_iff] at hself
      refine dispatch_repeats env hself ?_
      rw [← honward.srv]
      exact h

theorem not_distinctIds_concat {es : List Event} (h : ¬ e.NotToSelf ((ircd env).after es)) :
    ¬ ((ircd env).after (es ++ [e])).srv.DistinctIds := by
  rw [System.after_concat]
  exact mt exec_distinctIds h

/-- **Stored histories have distinct message ids in exactly the runs in which no session sends a
message to itself**, if `rand.Text` does not repeat. -/
theorem distinctIds_iff (env : Env) (htext : Function.Injective env.world.text) {es : List Event}
    (hv : (ircd env).Valid es) :
    (ircd env).Throughout (fun _ st => st.srv.DistinctIds) es ↔
      (ircd env).Each (fun _ st e => e.NotToSelf st) es := by
  refine (ircd env).throughout_iff (I := fun _ st => st.Issued env) ?_ ?_ ?_ ?_ hv
  · intro entries hs
    cases hs with
    | channel hch => cases hch
    | session ht => cases ht
  · exact fun es st hst entries hs => (hst entries hs).1
  · exact fun es e hst _ hgood => exec_issued htext hst hgood
  · exact fun es e _ _ h => exec_distinctIds h

end

section
attribute [local instance] asciiTables

def countingServer : Env :=
  newServer {} { World.still with text := fun n => List.replicate n 65 }

theorem countingServer_injective : Function.Injective countingServer.world.text := by
  intro n n' h
  have htext : countingServer.world.text = fun n => List.replicate n 65 := rfl
  rw [htext] at h
  simpa using congrArg List.length h

def twoClients : List Event :=
  registration 0 (lit "alice") ++ registration 1 (lit "bob") ++ [.line 0 (lit "PRIVMSG Bob :hi")]

theorem distinctIds_iff_twoClients :
    Function.Injective countingServer.world.text ∧ (ircd countingServer).Valid twoClients ∧
      (ircd countingServer).Throughout (fun _ st => st.srv.DistinctIds) twoClients := by
  have hvalid : (ircd countingServer).Valid twoClients := by decide +kernel
  refine ⟨countingServer_injective, hvalid, ?_⟩
  exact (distinctIds_iff countingServer countingServer_injective hvalid).2 (by decide +kernel)

def writesToSelf : List Event :=
  registration 0 (lit "alice") ++ [.line 0 (lit "PRIVMSG Alice :hi")]

theorem not_distinctIds_writesToSelf :
    Function.Injective countingServer.world.text ∧ (ircd countingServer).Valid writesToSelf ∧
      ¬ ((ircd countingServer).after writesToSelf).srv.DistinctIds := by
  have hself : ¬ Event.NotToSelf ((ircd countingServer).after (registration 0 (lit "alice")))
      (.line 0 (lit "PRIVMSG Alice :hi")) := by
    decide +kernel
  exact ⟨countingServer_injective, by decide +kernel, not_distinctIds_concat hself⟩

end

end Irc
