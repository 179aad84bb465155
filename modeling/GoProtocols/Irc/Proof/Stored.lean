import GoProtocols.Irc.Proof.Record
import GoProtocols.Irc.Proof.Reach

/-!
# Properties of stored histories

`exec_eachStored`: a property that all stored histories have, and that adding the entry of a message
keeps, is one that all histories have that are stored afterwards.
-/

namespace Irc

open Go Prog

variable (Q : List ChatHistoryEntry → Prop) (srv : Server) {e : ChatHistoryEntry}

def Server.EachStored : Prop :=
  ∀ entries, srv.Stored entries → Q entries

def KeptBy (e : ChatHistoryEntry) : Prop :=
  ∀ old, Q old → Q (trimHistory (old ++ [e]))

variable {Q : List ChatHistoryEntry → Prop}

theorem length_trimHistory_le (entries : List ChatHistoryEntry) :
    (trimHistory entries).length ≤ chatHistoryLimit := by
  unfold trimHistory
  rw [List.length_drop]
  omega

theorem Steady.eachStored {p : Scope} {st st' : State} (h : Steady p st st')
    (hp : p.records = false) (hnil : Q []) (hst : st.srv.EachStored Q) : st'.srv.EachStored Q := by
  intro entries hs
  rcases h.srv.stored hp hs with rfl | hs
  · exact hnil
  · exact hst entries hs

section
variable [UnicodeTables]

theorem Server.EachStored.appendHistory {srv : Server} (h : srv.EachStored Q) (hnil : Q [])
    (he : KeptBy Q e) (s : SessionId) (target : Bytes) :
    (srv.setSession s (Session.appendHistory · target e)).EachStored Q := by
  intro entries hs
  rcases Server.stored_setSession hs with hs | rfl
  · exact h entries hs
  · rcases srv.historySnapshot_stored s target with hold | hold
    · rw [hold]
      exact he [] hnil
    · exact he _ (h _ hold)

theorem Server.EachStored.record {srv : Server} (h : srv.EachStored Q) (hnil : Q [])
    {e : ChatHistoryEntry} (he : KeptBy Q e) (s : SessionId) (target : Bytes) :
    (srv.record s target e).EachStored Q := by
  by_cases hchan : isChannelTarget target = true
  · intro entries hs
    rcases Server.stored_record (fun hnot => absurd hchan hnot) hs with hs | ⟨old, hold, rfl⟩
    · exact h entries hs
    · rcases hold with rfl | hold
      · exact he [] hnil
      · exact he old (h old hold)
  · -- both sessions record the message, which may be one session
    rw [Server.record, if_neg hchan]
    cases srv.getSession target with
    | none => exact h
    | some dest => exact (h.appendHistory hnil he s _).appendHistory hnil he dest _

variable {env : Env} {st : State}

theorem dispatch_eachStored {s : SessionId} {msg : Message} (hnil : Q [])
    (hst : st.srv.EachStored Q)
    (hnew : ∀ notice, st.srv.Records s msg notice → KeptBy Q (messageEntry env st s msg notice)) :
    (dispatch s msg env st).2.srv.EachStored Q := by
  by_cases hrecords : ∃ notice, st.srv.Records s msg notice
  · obtain ⟨notice, hrec⟩ := hrecords
    refine (dispatch_records env hrec).eachStored rfl hnil ?_
    exact hst.record hnil (hnew notice hrec) s (msg.param 0)
  · obtain ⟨p, hp, hsteady⟩ := dispatch_unrecorded fun notice h => hrecords ⟨notice, h⟩
    exact hsteady.eachStored hp hnil hst

/-- **The histories that are stored after an event** were stored before it, or have the entry of its
message added. -/
theorem exec_eachStored {e : Event} (hnil : Q []) (hst : st.srv.EachStored Q)
    (hnew : ∀ s raw msg st₁ notice, e = .line s raw → lineMessage raw = some msg → Begun s st st₁ →
      st₁.srv.Records s msg notice → KeptBy Q (messageEntry env st₁ s msg notice)) :
    (e.exec env st).2.srv.EachStored Q := by
  cases e with
  | connect addr secure serverName => exact fun entries hs => hst entries (stored_connect hs)
  | line s raw =>
    rcases handleLine_cases s raw env st with ⟨-, honward⟩ | ⟨msg, st₁, hline, hbegun, honward⟩
    · exact (honward.steady (p := {})).eachStored rfl hnil hst
    · refine (honward.steady (p := {})).eachStored rfl hnil (dispatch_eachStored hnil ?_ ?_)
      · exact (hbegun.steady (p := {})).eachStored rfl hnil hst
      · exact fun notice hrec => hnew s raw msg st₁ notice rfl hline hbegun hrec
  | disconnect s => exact (steady_disconnect s env st).eachStored rfl hnil hst

theorem after_eachStored {es : List Event} (hv : (ircd env).Valid es) (hnil : Q [])
    (hnew : ∀ st s msg notice, KeptBy Q (messageEntry env st s msg notice)) :
    ((ircd env).after es).srv.EachStored Q := by
  refine (ircd env).invariant (I := fun _ st => st.srv.EachStored Q) (G := fun _ _ _ => True)
    ?_ ?_ hv fun _ _ _ => trivial
  · intro entries hs
    cases hs with
    | channel hch => cases hch
    | session ht => cases ht
  · intro es e hst _ _
    exact exec_eachStored hnil hst fun s raw msg st₁ notice _ _ _ _ => hnew st₁ s msg notice

end

end Irc
