import GoProtocols.Sftp.Proof.Calls

/-!
# Replies reach their callers

While the read loop has not failed and the ids have not been used up, no two calls have the same id
(`Issued`), so that no call loses its place in the table (`Issued.respects`) and `Sound` holds. A
packet that a call has, in its channel or as its result, then carries the id of that call and of no
other (`replies_correlated`).
-/

namespace Sftp.Client

open Go

def begun (es : List Event) : Nat := es.countP Event.isBegin

/-- The packet was handed to the call: it is on its way to the call's channel, in the channel, or
what the call has returned. -/
def State.Handed (st : State) (i : Nat) (p : Packet) : Prop :=
  st.loop.at i = some (some p) ∨ (st.calls i).reply.buf = some p ∨
    (st.calls i).phase = .returned (.packet p)

/-- Each call that returns a packet returns its own reply, and no call an empty packet for lack of
an error. No packet is handed to two calls, and no id is zero or issued twice. -/
structure Correlated (st : State) : Prop where
  own : ∀ i p, (st.calls i).phase = .returned (.packet p) → p.requestID = some (st.calls i).id
  error : ∀ i err, (st.calls i).phase = .returned (.error err) → err ≠ none
  single : ∀ i j p, st.Handed i p → st.Handed j p → i = j
  nonzero : ∀ i, (st.calls i).phase ≠ .idle → (st.calls i).id ≠ 0
  distinct : ∀ i j, (st.calls i).phase ≠ .idle → (st.calls j).phase ≠ .idle →
    (st.calls i).id = (st.calls j).id → i = j

/-- The ids of `n` calls: they are those up to `n`. -/
structure Issued (n : Nat) (st : State) : Prop where
  counter : st.counter.toNat = n
  range : ∀ i, (st.calls i).phase ≠ .idle → 0 < (st.calls i).id.toNat ∧ (st.calls i).id.toNat ≤ n
  distinct : ∀ i j, (st.calls i).phase ≠ .idle → (st.calls j).phase ≠ .idle →
    (st.calls i).id = (st.calls j).id → i = j
  loop : st.loop ≠ .stopped

variable {st : State} {n : Nat} {e : Event}

theorem Issued.begin (h : Issued n st) (hn : n + 1 < 2 ^ 32) (i : Nat) (type : UInt8)
    (payload : Bytes) : Issued (n + 1) (st.step (.begin i type payload)) := by
  have hnext : (nextID st.counter).toNat = n + 1 := by
    have hadd : (st.counter + 1).toNat = n + 1 := by
      rw [UInt32.toNat_add, h.counter]
      exact Nat.mod_eq_of_lt hn
    have hne : st.counter + 1 ≠ 0 := fun hz => by simp [hz] at hadd
    rw [nextID, if_neg hne, hadd]
  have hself : ((st.step (.begin i type payload)).calls i).id = nextID st.counter :=
    congrArg Call.id (calls_set _ i _)
  -- the other calls have smaller ids
  have hother (j : Nat) (hj : j ≠ i) :
      (st.step (.begin i type payload)).calls j = st.calls j := calls_set_ne _ hj _
  have hless (j : Nat) (hj : j ≠ i)
      (hidle : ((st.step (.begin i type payload)).calls j).phase ≠ .idle) :
      ((st.step (.begin i type payload)).calls j).id ≠ nextID st.counter := fun heq => by
    rw [hother j hj] at hidle heq
    have hle := (h.range j hidle).2
    rw [heq, hnext] at hle
    omega
  refine ⟨hnext, fun j hj => ?_, fun j k hj hk heq => ?_, h.loop⟩
  · by_cases hji : j = i
    · rw [hji, hself, hnext]
      omega
    · rw [hother j hji] at hj ⊢
      obtain ⟨hpos, hle⟩ := h.range j hj
      exact ⟨hpos, by omega⟩
  · by_cases hji : j = i
    · by_cases hki : k = i
      · rw [hji, hki]
      · rw [hji, hself] at heq
        exact absurd heq.symm (hless k hki hk)
    · by_cases hki : k = i
      · rw [hki, hself] at heq
        exact absurd heq (hless j hji hj)
      · rw [hother j hji] at hj heq
        rw [hother k hki] at hk heq
        exact h.distinct j k hj hk heq

theorem Issued.step (h : Issued n st) (he : st.Enabled e) (hbegin : e.isBegin = false)
    (hfail : e.isFail = false) : Issued n (st.step e) := by
  have hrest := step_rest st e
  have hstays (i : Nat) := step_begun (j := i) he fun type payload heq => by
    simp [heq, Event.isBegin] at hbegin
  refine ⟨?_, fun i hi => ?_, fun i j hi hj heq => ?_, fun hstop => ?_⟩
  · rw [hrest.counter, hbegin]
    exact h.counter
  · rw [(hstays i).1]
    exact h.range i fun hi' => hi ((hstays i).2.2.2 hi')
  · rw [(hstays i).1, (hstays j).1] at heq
    exact h.distinct i j (fun hi' => hi ((hstays i).2.2.2 hi'))
      (fun hj' => hj ((hstays j).2.2.2 hj')) heq
  · rcases hrest.loop hstop with hloop | hf
    · exact h.loop hloop
    · simp [hfail] at hf

theorem Issued.sole (h : Issued n st) (hs : Sound st) {i : Nat} (hi : (st.calls i).phase ≠ .idle) :
    st.Sole i := by
  intro j hj hentry
  have hid := hs.keys _ j hentry
  have hreg := ((hs.call j).entered (hid.symm ▸ hentry)).1
  have hidle : (st.calls j).phase ≠ .idle := fun hidle => by simp [hidle, Phase.isRegistered] at hreg
  exact absurd (h.distinct j i hidle hi hid) hj

theorem Issued.respects (h : Issued n st) (hs : Sound st) (he : st.Enabled e) : Respects st e := by
  cases e with
  | register i =>
    have hphase : (st.calls i).phase = .started := he
    exact ⟨fun hnone => h.loop (hs.stopped.2 hnone), h.sole hs (by simp [hphase])⟩
  | abort i =>
    obtain ⟨err, hphase⟩ := he
    exact h.sole hs (by simp [hphase])
  | _ => trivial

/-! ## Runs -/

theorem Sound.handed (h : Sound st) {i : Nat} {p : Packet} (hp : st.Handed i p) :
    p.requestID = some (st.calls i).id ∧ (st.calls i).phase ≠ .idle := by
  have hcall := h.call i
  rcases hp with hat | hbuf | hret
  · obtain ⟨hreg, -, hid⟩ := hcall.sending p hat
    exact ⟨hid, fun hidle => by simp [hidle, Phase.isRegistered] at hreg⟩
  · refine ⟨hcall.buffered p hbuf, fun hidle => ?_⟩
    have hreply := hcall.unregistered (by rw [hidle]; rfl)
    simp [hreply] at hbuf
  · exact ⟨hcall.results _ hret, by simp [hret]⟩

theorem Issued.correlated (h : Issued n st) (hs : Sound st) : Correlated st where
  own i p hret := (hs.call i).results _ hret
  error i err hret := (hs.call i).results _ hret
  single i j p hi hj := by
    obtain ⟨hidi, hbi⟩ := hs.handed hi
    obtain ⟨hidj, hbj⟩ := hs.handed hj
    exact h.distinct i j hbi hbj (Option.some.inj (hidi.symm.trans hidj))
  nonzero i hi hzero := by
    have hpos := (h.range i hi).1
    simp [hzero] at hpos
  distinct := h.distinct

/-- **While the read loop has not failed and fewer than `2 ^ 32 - 1` ids have been issued, replies
reach their own callers.** -/
theorem replies_correlated {es : List Event} (hv : client.Valid es)
    (hfail : ∀ e ∈ es, e.isFail = false) (hids : begun es < 2 ^ 32 - 1) :
    Correlated (client.after es) := by
  have hinv : Sound (client.after es) ∧ Issued (begun es) (client.after es) := by
    refine client.invariant (I := fun es st => Sound st ∧ Issued (begun es) st)
      (G := fun es _ e => e.isFail = false ∧ begun (es ++ [e]) < 2 ^ 32 - 1) ?_ ?_ hv ?_
    · exact ⟨sound_init, rfl, fun i hi => absurd rfl hi, fun i _ hi => absurd rfl hi, nofun⟩
    · rintro es e ⟨hs, hi⟩ ⟨-, hen⟩ ⟨hf, hn⟩
      refine ⟨hs.step hen (hi.respects hs hen), ?_⟩
      have hcount : begun (es ++ [e]) = begun es + if e.isBegin then 1 else 0 := by
        rw [begun, List.countP_append, List.countP_singleton, begun]
      rw [hcount] at hn ⊢
      cases hb : e.isBegin with
      | false =>
        exact hi.step hen hb hf
      | true =>
        rw [hb, if_pos rfl] at hn
        cases e with
        | begin i type payload => exact hi.begin (by omega) i type payload
        | _ => cases hb
    · intro es' e hpre
      refine ⟨hfail e (hpre.subset (by simp)), ?_⟩
      exact lt_of_le_of_lt (List.Sublist.countP_le hpre.sublist) hids
  exact hinv.2.correlated hinv.1

/-- Two calls whose replies come in the other order, with a stray one between; a third is given up
before its reply comes, and the first reply comes twice. -/
def crossing : List Event :=
  [.begin 0 17 [], .register 0, .begin 1 3 [], .register 1, .writeLength 1 none, .writeBody 1 none,
    .writeLength 0 none, .writeBody 0 none, .begin 2 4 [], .register 2, .writeLength 2 none,
    .writeBody 2 none, .packet { type := typeHandle, payload := appendUint32 [] 2 }, .deliver,
    .cancel 2 (lit "context canceled"), .release,
    .packet { type := typeHandle, payload := appendUint32 [] 2 },
    .packet { type := typeStatus, payload := appendUint32 [] 9 },
    .packet { type := typeAttrs, payload := appendUint32 [] 1 }, .deliver, .receive 0, .receive 1,
    .release, .packet { type := typeStatus, payload := appendUint32 [] 3 }, .deliver, .release]

theorem replies_correlated_crossing :
    client.Valid crossing ∧ (∀ e ∈ crossing, e.isFail = false) ∧ begun crossing < 2 ^ 32 - 1 ∧
      Correlated (client.after crossing) := by
  have hv : client.Valid crossing := by decide +kernel
  have hfail : ∀ e ∈ crossing, e.isFail = false := by decide +kernel
  have hids : begun crossing < 2 ^ 32 - 1 := by decide +kernel
  exact ⟨hv, hfail, hids, replies_correlated hv hfail hids⟩

end Sftp.Client
