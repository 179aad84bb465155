import Mathlib.Data.Finset.Card
import GoProtocols.Sftp.Proof.Calls

/-!
# Concurrent writes of the SFTP client

`WritePacket` makes two writes, and no lock is held around them: between the length and the body of
one packet another call may write.

* `requests`: the packets of the calls that have made both writes.
* `Framed`: what was sent is made of these packets, and the server reads them.

The invariant of the good runs is `Clean`. After any other event the stream is `Broken`: it holds a
packet that does not fit, or two lengths in a row. A second write that fails is told by the number
of bytes (`length_sent`).
-/

namespace Sftp.Client

open Go List

variable {es : List Event} (st : State) (type : UInt8)

/-! ## Specification -/

def State.completes : Event → List Packet
  | .writeBody i none => [(st.calls i).request]
  | _ => []

def requests (es : List Event) : List Packet := client.collect State.completes es

def State.Settled : Prop := ∀ i, (st.calls i).phase ≠ .writing

/-- What was sent is made of whole packets, one for each request, and the server's loop gets these
and nothing else. -/
def Framed (es : List Event) : Prop :=
  ∃ ps, ps.Perm (requests es) ∧ (client.after es).sent = ps.flatMap Packet.frame ∧
    readAll (client.after es).sent = (ps, .io .EOF)

def Exclusive : Event → Prop
  | .writeLength i none => st.Settled ∧ (st.calls i).request.Fits
  | .writeBody _ (some _) => False
  | _ => True

def IsRequest : Prop := (kinds.lookup type).isSome = true

instance : Decidable (IsRequest type) := inferInstanceAs (Decidable (_ = true))

/-- `do` is called with the types of requests. -/
def Event.Known : Event → Prop
  | .begin _ type _ => IsRequest type
  | _ => True

instance : (e : Event) → Decidable e.Known
  | .begin _ type _ => inferInstanceAs (Decidable (IsRequest type))
  | .register _ | .writeLength _ _ | .writeBody _ _ | .abort _ | .receive _ | .cancel _ _
  | .pipeClosed _ | .packet _ | .deliver | .release | .fail _ | .close => .isTrue trivial

/-! ## What an event sends -/

def Event.writes : Event → Bool
  | .writeLength _ none | .writeBody _ _ => true
  | _ => false

variable {st : State} {ps : List Packet} {e : Event}

theorem output_quiet (h : e.writes = false) : st.output e = [] ∧ st.completes e = [] := by
  cases e with
  | writeLength i err =>
    cases err with
    | none => cases h
    | some err => exact ⟨rfl, rfl⟩
  | writeBody i err => cases h
  | _ => exact ⟨rfl, rfl⟩

theorem writing_quiet (he : st.Enabled e) (h : e.writes = false) (j : Nat) :
    ((st.step e).calls j).phase = .writing ↔ (st.calls j).phase = .writing := by
  have hlength : e ≠ .writeLength j none := fun heq => by simp [heq, Event.writes] at h
  have hbody : ∀ err, e ≠ .writeBody j err := fun err heq => by simp [heq, Event.writes] at h
  rw [step_writing he]
  simp [hlength, hbody]

theorem request_writing (he : st.Enabled e) {j : Nat} (hj : (st.calls j).phase = .writing) :
    ((st.step e).calls j).request = (st.calls j).request := by
  refine (step_begun he fun type payload heq => ?_).2.1
  have hidle : (st.calls j).phase = .idle := by
    rw [heq] at he
    exact he
  cases hidle.symm.trans hj

/-! ## Good runs -/

/-- Whole packets that fit, and after them the length of at most one more. -/
inductive Clean (ps : List Packet) (st : State) : Prop
  | settled (fits : ∀ p ∈ ps, p.Fits) (rest : st.Settled) (sent : st.sent = ps.flatMap Packet.frame)
  | within (fits : ∀ p ∈ ps, p.Fits) (i : Nat)
      (writing : ∀ j, (st.calls j).phase = .writing ↔ j = i) (fits_i : (st.calls i).request.Fits)
      (sent : st.sent = ps.flatMap Packet.frame ++ (st.calls i).request.lengthBytes)

theorem Clean.quiet (h : Clean ps st) (he : st.Enabled e) (hq : e.writes = false) :
    Clean (ps ++ st.completes e) (st.step e) := by
  obtain ⟨hout, hcomp⟩ := (output_quiet hq : st.output e = [] ∧ _)
  have hsent : (st.step e).sent = st.sent := by rw [(step_rest _ _).sent, hout, append_nil]
  rw [hcomp, append_nil]
  cases h with
  | settled hfits hrest hs =>
    exact .settled hfits (fun j hj => hrest j ((writing_quiet he hq j).1 hj)) (hsent.trans hs)
  | within hfits i hw hi hs =>
    have hreq := request_writing he ((hw i).2 rfl)
    refine .within hfits i (fun j => (writing_quiet he hq j).trans (hw j)) (hreq ▸ hi) ?_
    rw [hsent, hreq, hs]

theorem Clean.step (h : Clean ps st) (he : st.Enabled e) (hx : Exclusive st e) :
    Clean (ps ++ st.completes e) (st.step e) := by
  cases hq : e.writes with
  | false => exact h.quiet he hq
  | true =>
    cases e with
    | writeLength i err =>
      cases err with
      | some err => cases hq
      | none =>
        obtain ⟨hrest, hi⟩ := hx
        have hreq : ((st.step (.writeLength i none)).calls i).request = (st.calls i).request :=
          (step_begun he nofun).2.1
        cases h with
        | within hfits i' hw hi' hs => exact absurd ((hw i').2 rfl) (hrest i')
        | settled hfits _ hs =>
          rw [show ps ++ st.completes (.writeLength i none) = ps from append_nil ps]
          refine .within hfits i (fun j => ?_) (hreq ▸ hi) ?_
          · rw [step_writing he]
            simp [hrest j, eq_comm]
          · rw [(step_rest _ _).sent, hs, hreq]
            rfl
    | writeBody i err =>
      cases err with
      | some err => exact absurd hx id
      | none =>
        have hi : (st.calls i).phase = .writing := he
        cases h with
        | settled _ hrest _ => exact absurd hi (hrest i)
        | within hfits i' hw hi' hs =>
          obtain rfl := (hw i).1 hi
          refine .settled (forall_mem_append.2 ⟨hfits, forall_mem_singleton.2 hi'⟩)
            (fun j hj => ?_) ?_
          · rw [step_writing he] at hj
            rcases hj with hj | ⟨hj, hbody⟩
            · cases hj
            · exact hbody none (by rw [(hw j).1 hj])
          · rw [(step_rest _ _).sent, hs, flatMap_append, append_assoc]
            simp [State.output, State.completes, Packet.frame]
    | _ => cases hq

/-! ## Other runs -/

/-- A packet that does not fit, whole or begun, or two lengths in a row. -/
inductive Broken (ps : List Packet) (st : State) : Prop
  | large (p : Packet) (hp : p ∈ ps) (hlarge : ¬ p.Fits)
  | begun (i : Nat) (hi : (st.calls i).phase = .writing) (hlarge : ¬ (st.calls i).request.Fits)
  | mixed (qs : List Packet) (hqs : ∀ q ∈ qs, q.Fits) (b r : Bytes) (t : UInt8)
      (hb : b.length = 4) (ht : t = 0 ∨ t = 1)
      (hsent : st.sent = qs.flatMap Packet.frame ++ (b ++ t :: r))

def Event.Finishes : Event → Prop
  | .writeBody _ (some _) => False
  | _ => True

theorem Broken.step (h : Broken ps st) (he : st.Enabled e) (hf : e.Finishes) :
    Broken (ps ++ st.completes e) (st.step e) := by
  cases h with
  | large p hp hlarge => exact .large p (mem_append_left _ hp) hlarge
  | mixed qs hqs b r t hb ht hsent =>
    refine .mixed qs hqs b (r ++ st.output e) t hb ht ?_
    rw [(step_rest _ _).sent, hsent]
    simp
  | begun i hi hlarge =>
    by_cases hbody : ∃ err, e = .writeBody i err
    · obtain ⟨err, rfl⟩ := hbody
      cases err with
      | some err => exact absurd hf id
      | none =>
        exact .large _ (mem_append_right _ (mem_singleton_self _)) hlarge
    · refine .begun i ((step_writing he).2 (.inr ⟨hi, fun err heq => hbody ⟨err, heq⟩⟩)) ?_
      rw [request_writing he hi]
      exact hlarge

/-- A packet that is begun within another, or does not fit, breaks the stream. -/
theorem Clean.broken (h : Clean ps st) (he : st.Enabled e) (hf : e.Finishes)
    (hx : ¬ Exclusive st e) : Broken (ps ++ st.completes e) (st.step e) := by
  cases e with
  | writeLength i err =>
    cases err with
    | some err => exact absurd trivial hx
    | none =>
      have hreq : ((st.step (.writeLength i none)).calls i).request = (st.calls i).request :=
        (step_begun he nofun).2.1
      by_cases hfits : (st.calls i).request.Fits
      · cases h with
        | settled _ hrest _ => exact absurd ⟨hrest, hfits⟩ hx
        | within hps j hw hj hs =>
          obtain ⟨t, r, heq, ht⟩ := Packet.lengthBytes_eq_cons hfits
          refine .mixed ps hps (st.calls j).request.lengthBytes r t
            (Packet.length_lengthBytes _) ht ?_
          rw [(step_rest _ _).sent, hs, append_assoc, ← heq]
          rfl
      · refine .begun i ((step_writing he).2 (.inl rfl)) ?_
        rw [hreq]
        exact hfits
  | writeBody i err =>
    cases err with
    | some err => exact absurd hf id
    | none => exact absurd trivial hx
  | _ => exact absurd trivial hx

theorem clean_or_broken (hv : client.Valid es) (hf : ∀ e ∈ es, e.Finishes) :
    client.Each (fun _ st e => Exclusive st e) es ∧ Clean (requests es) (client.after es) ∨
      Broken (requests es) (client.after es) := by
  induction es using List.reverseRecOn with
  | nil => exact .inl ⟨client.each_nil, .settled nofun nofun rfl⟩
  | append_singleton es e ih =>
    obtain ⟨hv, hen⟩ := client.each_concat.1 hv
    have hfe : e.Finishes := hf e (by simp)
    rw [requests, client.collect_concat, client.after_concat, client.each_concat]
    rcases ih hv fun e' he' => hf e' (mem_append_left _ he') with ⟨heach, hclean⟩ | hbroken
    · by_cases hx : Exclusive (client.after es) e
      · exact .inl ⟨⟨heach, hx⟩, hclean.step hen.2 hx⟩
      · exact .inr (hclean.broken hen.2 hfe hx)
    · exact .inr (hbroken.step hen.2 hfe)

/-! ## The number of bytes -/

def Event.unfinished : Event → Bool
  | .writeBody _ (some _) => true
  | _ => false

theorem not_unfinished : e.unfinished = false ↔ e.Finishes := by
  cases e with
  | writeBody i err => cases err <;> simp [Event.unfinished, Event.Finishes]
  | _ => simp [Event.unfinished, Event.Finishes]

/-- The bytes sent are those of the requests, and four for each call that has only made its first
write. -/
theorem length_sent (hv : client.Valid es) :
    ∃ F : Finset Nat, (∀ i, i ∈ F ↔ ((client.after es).calls i).phase = .writing) ∧
      (client.after es).sent.length =
        ((requests es).flatMap Packet.frame).length +
          4 * (F.card + es.countP Event.unfinished) := by
  induction es using List.reverseRecOn with
  | nil => exact ⟨∅, by simp [client], rfl⟩
  | append_singleton es e ih =>
    obtain ⟨hv, -, hen⟩ := client.each_concat.1 hv
    obtain ⟨F, hF, hlen⟩ := ih hv
    rw [client.after_concat, requests, client.collect_concat]
    change ∃ F : Finset Nat, (∀ i, i ∈ F ↔ (((client.after es).step e).calls i).phase = .writing) ∧
      ((client.after es).step e).sent.length = _
    rw [(step_rest _ _).sent, countP_append, flatMap_append, length_append,
      length_append, hlen]
    cases hq : e.writes with
    | false =>
      have hcount : List.countP Event.unfinished [e] = 0 := by
        cases e with
        | writeBody i err => cases hq
        | _ => rfl
      obtain ⟨hout, hcomp⟩ := (output_quiet hq : (client.after es).output e = [] ∧ _)
      refine ⟨F, fun i => (hF i).trans (writing_quiet hen hq i).symm, ?_⟩
      rw [hout, hcomp, hcount]
      simp [requests]
    | true =>
      cases e with
      | writeLength i err =>
        cases err with
        | some err => cases hq
        | none =>
          have hnew : i ∉ F := fun hi => by
            have hreg : ((client.after es).calls i).phase = .registered := hen
            cases hreg.symm.trans ((hF i).1 hi)
          refine ⟨insert i F, fun j => ?_, ?_⟩
          · rw [step_writing hen, Finset.mem_insert, hF]
            simp [eq_comm]
          · rw [Finset.card_insert_of_notMem hnew]
            simp [State.output, State.completes, Event.unfinished, requests]
            omega
      | writeBody i err =>
        have hold : i ∈ F := (hF i).2 hen
        refine ⟨F.erase i, fun j => ?_, ?_⟩
        · rw [step_writing hen, Finset.mem_erase, hF]
          by_cases hji : j = i
          · simp [hji]
          · simp [hji, Ne.symm hji]
        · rw [Finset.card_erase_of_mem hold]
          have hpos : 0 < F.card := Finset.card_pos.2 ⟨i, hold⟩
          cases err with
          | none =>
            simp [State.output, State.completes, Event.unfinished, requests, Packet.length_frame]
            omega
          | some err =>
            simp [State.output, State.completes, Event.unfinished, requests]
            omega
      | _ => cases hq

theorem Framed.finishes (h : Framed es) (hv : client.Valid es)
    (hrest : (client.after es).Settled) : ∀ e ∈ es, e.Finishes := by
  obtain ⟨ps, hperm, hsent, -⟩ := h
  obtain ⟨F, hF, hlen⟩ := length_sent hv
  have hempty : F = ∅ := Finset.eq_empty_of_forall_notMem fun i hi => hrest i ((hF i).1 hi)
  have hsame : (ps.flatMap Packet.frame).length = ((requests es).flatMap Packet.frame).length :=
    (hperm.flatMap_right _).length_eq
  rw [hsent, hsame, hempty, Finset.card_empty] at hlen
  have hzero : es.countP Event.unfinished = 0 := by omega
  intro e he
  exact not_unfinished.1 (by simpa using countP_eq_zero.1 hzero e he)

/-! ## The types of requests -/

/-- The calls that have begun have the types of requests, and so have the packets sent. -/
structure Typed (ps : List Packet) (st : State) : Prop where
  calls : ∀ i, (st.calls i).phase ≠ .idle → IsRequest (st.calls i).request.type
  sent : ∀ p ∈ ps, IsRequest p.type

theorem Typed.step (h : Typed ps st) (he : st.Enabled e) (hk : e.Known) :
    Typed (ps ++ st.completes e) (st.step e) := by
  refine ⟨fun i hi => ?_, fun p hp => ?_⟩
  · by_cases hbegin : ∃ type payload, e = .begin i type payload
    · obtain ⟨type, payload, rfl⟩ := hbegin
      simp only [State.step, calls_set]
      exact hk
    · obtain ⟨-, hreq, hidle⟩ := step_begun (j := i) he fun type payload heq =>
        hbegin ⟨type, payload, heq⟩
      rw [hreq]
      exact h.calls i fun hi' => hi (hidle.2 hi')
  · rcases mem_append.1 hp with hp | hp
    · exact h.sent p hp
    · cases e with
      | writeBody i err =>
        cases err with
        | some err => cases hp
        | none =>
          have hi : (st.calls i).phase = .writing := he
          rw [mem_singleton.1 hp]
          exact h.calls i (by simp [hi])
      | _ => cases hp

theorem requests_typed (hv : client.Valid es) (hk : ∀ e ∈ es, e.Known) :
    ∀ p ∈ requests es, IsRequest p.type := by
  have htyped : Typed (requests es) (client.after es) := by
    refine client.invariant (I := fun es st => Typed (requests es) st)
      (G := fun _ _ e => e.Known) ⟨fun i hi => absurd rfl hi, nofun⟩ ?_ hv ?_
    · intro es e h hen hk
      rw [requests, client.collect_concat]
      exact h.step hen.2 hk
    · intro es' e hpre
      exact hk e (hpre.subset (by simp))
  exact htyped.sent

theorem Broken.not_framed (h : Broken (requests es) (client.after es))
    (hrest : (client.after es).Settled) (hk : ∀ p ∈ requests es, IsRequest p.type) :
    ¬ Framed es := by
  rintro ⟨ps, hperm, hsent, hread⟩
  have hfits : ∀ p ∈ requests es, p.Fits := fun p hp =>
    readAll_fits _ p (by rw [hread]; exact hperm.mem_iff.2 hp)
  cases h with
  | large p hp hlarge => exact hlarge (hfits p hp)
  | begun i hi hlarge => exact hrest i hi
  | mixed qs hqs b r t hb ht hmixed =>
    have hlist : qs ++ (readAll (b ++ t :: r)).1 = ps := by
      have hall := readAll_frames hqs (b ++ t :: r)
      rw [← hmixed, hread] at hall
      exact (congrArg Prod.fst hall).symm
    rcases readAll_length hb t r with hnone | ⟨p, hp, htype⟩
    · -- the bytes after the packets are part of none
      rw [hnone, append_nil] at hlist
      rw [hmixed, hlist] at hsent
      simp at hsent
    · have hreq := hk p (hperm.mem_iff.1 (hlist ▸ mem_append_right qs hp))
      rw [htype] at hreq
      rcases ht with rfl | rfl <;> exact absurd hreq (by decide)

/-- **The stream is made of the requests exactly if no call began to write while another was between
its writes, no second write failed, and every packet fits.** -/
theorem framed_iff {es : List Event} (hv : client.Valid es) (hk : ∀ e ∈ es, e.Known)
    (hrest : (client.after es).Settled) :
    Framed es ↔ client.Each (fun _ st e => Exclusive st e) es := by
  constructor
  · intro h
    rcases clean_or_broken hv (h.finishes hv hrest) with ⟨heach, -⟩ | hbroken
    · exact heach
    · exact absurd h (hbroken.not_framed hrest (requests_typed hv hk))
  · intro heach
    have hclean : Clean (requests es) (client.after es) := by
      refine client.invariant (I := fun es st => Clean (requests es) st)
        (G := fun _ st e => Exclusive st e) (.settled nofun nofun rfl) ?_ hv heach
      intro es e h hen hx
      rw [requests, client.collect_concat]
      exact h.step hen.2 hx
    cases hclean with
    | within _ i hw _ _ => exact absurd ((hw i).2 rfl) (hrest i)
    | settled hfits _ hsent =>
      refine ⟨requests es, .refl _, hsent, ?_⟩
      have hall := readAll_frames hfits []
      rwa [append_nil, readAll_nil, append_nil, ← hsent] at hall

/-! ## Two calls -/

theorem idle_after {i : Nat} (h : ∀ e ∈ es, e.actor ≠ some i) :
    ((client.after es).calls i).phase = .idle := by
  induction es using List.reverseRecOn with
  | nil => rfl
  | append_singleton es e ih =>
    obtain ⟨ch, hcall⟩ := (step_other (h e (by simp)) : ((client.after es).calls i).Same _)
    rw [client.after_concat]
    change (((client.after es).step e).calls i).phase = .idle
    rw [hcall]
    exact ih fun e' he' => h e' (mem_append_left _ he')

theorem settled_of_two (hes : ∀ e ∈ es, e.actor = some 0 ∨ e.actor = some 1)
    (h0 : ((client.after es).calls 0).phase ≠ .writing)
    (h1 : ((client.after es).calls 1).phase ≠ .writing) : (client.after es).Settled := by
  intro i
  by_cases hi : i = 0 ∨ i = 1
  · rcases hi with rfl | rfl
    · exact h0
    · exact h1
  · rw [idle_after fun e he heq => hi ?_]
    · exact nofun
    · rcases hes e he with h | h
      · exact .inl (Option.some.inj (heq.symm.trans h))
      · exact .inr (Option.some.inj (heq.symm.trans h))

/-- A `STAT` and an `OPEN`, one after the other. -/
def takingTurns : List Event :=
  [.begin 0 17 (lit "f"), .begin 1 3 (lit "f"), .register 1, .register 0, .writeLength 0 none,
    .writeBody 0 none, .writeLength 1 none, .writeBody 1 none]

theorem framed_iff_takingTurns :
    client.Valid takingTurns ∧ (∀ e ∈ takingTurns, e.Known) ∧ (client.after takingTurns).Settled ∧
      (Framed takingTurns ↔ client.Each (fun _ st e => Exclusive st e) takingTurns) := by
  have hv : client.Valid takingTurns := by decide +kernel
  have hk : ∀ e ∈ takingTurns, e.Known := by decide +kernel
  have hrest : (client.after takingTurns).Settled :=
    settled_of_two (by decide +kernel) (by decide +kernel) (by decide +kernel)
  exact ⟨hv, hk, hrest, framed_iff hv hk hrest⟩

/-- Both lengths are written before the bodies. -/
def tangled : List Event :=
  [.begin 0 17 (lit "f"), .begin 1 3 (lit "f"), .register 1, .register 0, .writeLength 0 none,
    .writeLength 1 none, .writeBody 0 none, .writeBody 1 none]

theorem not_framed_tangled : client.Valid tangled ∧ ¬ Framed tangled := by
  have hv : client.Valid tangled := by decide +kernel
  have hrest : (client.after tangled).Settled :=
    settled_of_two (by decide +kernel) (by decide +kernel) (by decide +kernel)
  have hbroken : Broken (requests tangled) (client.after tangled) :=
    .mixed [] nofun ((client.after tangled).sent.take 4) ((client.after tangled).sent.drop 5) 0
      (by decide +kernel) (.inl rfl) (by decide +kernel)
  exact ⟨hv, hbroken.not_framed hrest (requests_typed hv (by decide +kernel))⟩

end Sftp.Client
