import GoProtocols.Lib.Run

/-!
# Admission of clients

`acceptLoop`, `startSession` and `handleSession` of `irc/server/server.go`, as far as they count
clients. Any number of goroutines run the accept loop, and each connection that is admitted has a
goroutine of its own; every operation on the counter is a step, and so is every decision between
them. A session has ended when its deferred function has counted it out.
-/

namespace Irc

open List

/-! ## Model -/

variable (maxClients : Int) {clientsCurrent d : Int} {c : Nat}

/-- Where a connection is. -/
inductive ConnPhase
  /-- `Accept` has returned it. -/
  | accepted
  /-- The counter was incremented, to `current`. -/
  | counted (current : Int)
  /-- There are too many, and the counter is not yet decremented. -/
  | full
  /-- The counter was decremented; the connection is closed. -/
  | refused
  /-- In `startSession`. -/
  | admitted
  /-- The TLS handshake has failed, and the counter is not yet decremented. -/
  | failed
  | dropped
  /-- In `handleSession`. -/
  | serving
  /-- The input is over, and the counter is not yet decremented. -/
  | ending
  /-- The counter was decremented; the session is removed after that. -/
  | ended
  deriving DecidableEq

structure Conn where
  /-- It is a `tls.Conn`. -/
  tls : Bool
  phase : ConnPhase
  deriving DecidableEq

/-- Where an accept loop is. -/
inductive AcceptLoop
  | accepting
  | handling (conn : Nat)
  | returned
  deriving DecidableEq

structure Clients where
  clientsCurrent : Int := 0
  loops : Nat → AcceptLoop := fun _ => .accepting
  /-- The connections in the order in which they were accepted. -/
  conns : List Conn := []

inductive AdmissionEvent
  | accept (loop : Nat) (tls : Bool)
  /-- `Accept` returns an error. -/
  | stop (loop : Nat)
  | increment (loop conn : Nat)
  | check (loop conn : Nat) (current : Int)
  /-- The decrement after the check. -/
  | refuse (loop conn : Nat)
  /-- The connection that was refused is closed. -/
  | close (loop conn : Nat)
  | handshake (conn : Nat) (ok : Bool)
  /-- The decrement after the handshake. -/
  | drop (conn : Nat)
  | endOfInput (conn : Nat)
  /-- The deferred decrement. -/
  | finish (conn : Nat)

namespace Clients

variable (st : Clients) (loop c : Nat)

def phase (st : Clients) (c : Nat) : Option ConnPhase := st.conns[c]?.map Conn.phase

def isTls : Bool := st.conns[c]?.any Conn.tls

def Handles (phase : ConnPhase) : Prop :=
  st.loops loop = .handling c ∧ st.phase c = some phase

instance (phase : ConnPhase) : Decidable (st.Handles loop c phase) :=
  inferInstanceAs (Decidable (_ ∧ _))

def enabled : AdmissionEvent → Prop
  | .accept loop _ | .stop loop => st.loops loop = .accepting
  | .increment loop c => st.Handles loop c .accepted
  | .check loop c current => st.Handles loop c (.counted current)
  | .refuse loop c => st.Handles loop c .full
  | .close loop c => st.Handles loop c .refused
  -- a connection without TLS has no handshake that could fail
  | .handshake c ok => st.phase c = some .admitted ∧ (ok = true ∨ st.isTls c = true)
  | .drop c => st.phase c = some .failed
  | .endOfInput c => st.phase c = some .serving
  | .finish c => st.phase c = some .ending

instance : (e : AdmissionEvent) → Decidable (st.enabled e)
  | .accept loop _ | .stop loop => inferInstanceAs (Decidable (st.loops loop = .accepting))
  | .increment _ _ | .check _ _ _ | .refuse _ _ | .close _ _ =>
    inferInstanceAs (Decidable (st.Handles _ _ _))
  | .handshake _ _ => inferInstanceAs (Decidable (_ ∧ _))
  | .drop _ | .endOfInput _ | .finish _ => inferInstanceAs (Decidable (st.phase _ = _))

def setLoop (l : AcceptLoop) : Clients :=
  { st with loops := fun l' => if l' = loop then l else st.loops l' }

/-- A connection moves on, and the counter changes. -/
def move (phase : ConnPhase) (d : Int) : Clients :=
  { st with
    clientsCurrent := st.clientsCurrent + d
    conns := st.conns.modify c fun conn => { conn with phase } }

def step : AdmissionEvent → Clients
  | .accept loop tls =>
    { st.setLoop loop (.handling st.conns.length) with conns := st.conns ++ [⟨tls, .accepted⟩] }
  | .stop loop => st.setLoop loop .returned
  | .increment _ c => st.move c (.counted (st.clientsCurrent + 1)) 1
  | .check loop c current =>
    if 0 < maxClients ∧ maxClients < current then st.move c .full 0
    else (st.move c .admitted 0).setLoop loop .accepting
  | .refuse _ c => st.move c .refused (-1)
  | .close loop _ => st.setLoop loop .accepting
  | .handshake c ok => st.move c (if ok then .serving else .failed) 0
  | .drop c => st.move c .dropped (-1)
  | .endOfInput c => st.move c .ending 0
  | .finish c => st.move c .ended (-1)

end Clients

def admission : System Clients AdmissionEvent where
  init := {}
  enabled := Clients.enabled
  step := Clients.step maxClients

instance (st : Clients) (e : AdmissionEvent) : Decidable ((admission maxClients).enabled st e) :=
  inferInstanceAs (Decidable (st.enabled e))

/-! ## Specification -/

def AdmissionEvent.adds : AdmissionEvent → List (Nat × Int)
  | increment _ c => [(c, 1)]
  | refuse _ c | drop c | finish c => [(c, -1)]
  | _ => []

def addsOf (es : List AdmissionEvent) (c : Nat) : List Int :=
  ((es.flatMap AdmissionEvent.adds).filter (·.1 = c)).map Prod.snd

namespace ConnPhase

/-- The operations on the counter for a connection in a phase. -/
def adds : ConnPhase → List Int
  | accepted => []
  | counted _ | full | admitted | failed | serving | ending => [1]
  | refused | dropped | ended => [1, -1]

def isLive : ConnPhase → Bool
  | admitted | failed | serving | ending => true
  | _ => false

/-- Nothing is in progress: the connection has a session or is over. -/
def isAtRest : ConnPhase → Bool
  | serving | refused | dropped | ended => true
  | _ => false

end ConnPhase

def Clients.count (st : Clients) (p : ConnPhase → Bool) : Nat := st.conns.countP fun c => p c.phase

/-! ## Moves -/

/-- The moves of a connection, with the change of the counter. -/
inductive ConnPhase.Edge (maxClients clientsCurrent : Int) : ConnPhase → ConnPhase → Int → Prop
  | increment : Edge maxClients clientsCurrent .accepted (.counted (clientsCurrent + 1)) 1
  | full {n : Int} (h : maxClients < n) : Edge maxClients clientsCurrent (.counted n) .full 0
  | enter {n : Int} (h : 0 < maxClients → n ≤ maxClients) :
      Edge maxClients clientsCurrent (.counted n) .admitted 0
  | refuse : Edge maxClients clientsCurrent .full .refused (-1)
  | fail : Edge maxClients clientsCurrent .admitted .failed 0
  | serve : Edge maxClients clientsCurrent .admitted .serving 0
  | drop : Edge maxClients clientsCurrent .failed .dropped (-1)
  | endOfInput : Edge maxClients clientsCurrent .serving .ending 0
  | finish : Edge maxClients clientsCurrent .ending .ended (-1)

/-- What a step does to the connections and the counter. -/
inductive Clients.Moves (maxClients : Int) (st : Clients) (e : AdmissionEvent) (st' : Clients) : Prop
  | stay (hconns : st'.conns = st.conns) (hcurrent : st'.clientsCurrent = st.clientsCurrent)
      (hadds : e.adds = [])
  | new {tls : Bool} (hconns : st'.conns = st.conns ++ [⟨tls, .accepted⟩])
      (hcurrent : st'.clientsCurrent = st.clientsCurrent) (hadds : e.adds = [])
  | move {c : Nat} {conn : Conn} {phase : ConnPhase} {d : Int} (hconn : st.conns[c]? = some conn)
      (hedge : ConnPhase.Edge maxClients st.clientsCurrent conn.phase phase d)
      (hconns : st'.conns = st.conns.modify c fun conn => { conn with phase })
      (hcurrent : st'.clientsCurrent = st.clientsCurrent + d)
      (hadds : e.adds = if d = 0 then [] else [(c, d)])

theorem Clients.moves_of_edge {maxClients : Int} {st : Clients} {e : AdmissionEvent}
    {phase next : ConnPhase} (h : st.phase c = some phase)
    (hedge : ConnPhase.Edge maxClients st.clientsCurrent phase next d) {st' : Clients}
    (hconns : st'.conns = (st.move c next d).conns)
    (hcurrent : st'.clientsCurrent = (st.move c next d).clientsCurrent)
    (hadds : e.adds = if d = 0 then [] else [(c, d)]) : Moves maxClients st e st' := by
  obtain ⟨conn, hconn, rfl⟩ := Option.map_eq_some_iff.1 h
  exact .move hconn hedge hconns hcurrent hadds

/-- **What a step does**: it moves one connection along an edge, accepts a new one, or neither. -/
theorem Clients.step_cases {maxClients : Int} {st : Clients} {e : AdmissionEvent}
    (h : st.enabled e) : Moves maxClients st e (st.step maxClients e) := by
  cases e with
  | accept loop tls => exact .new rfl rfl rfl
  | stop loop | close loop c => exact .stay rfl rfl rfl
  | increment loop c => exact moves_of_edge h.2 .increment rfl rfl rfl
  | check loop c current =>
    show Moves maxClients st _ (if 0 < maxClients ∧ maxClients < current then _ else _)
    split
    · rename_i hfull
      exact moves_of_edge h.2 (.full hfull.2) rfl rfl rfl
    · rename_i hroom
      refine moves_of_edge h.2 (.enter fun hmax => ?_) rfl rfl rfl
      by_contra hlt
      exact hroom ⟨hmax, by omega⟩
  | refuse loop c => exact moves_of_edge h.2 .refuse rfl rfl rfl
  | handshake c ok =>
    cases ok with
    | true => exact moves_of_edge h.1 .serve rfl rfl rfl
    | false => exact moves_of_edge h.1 .fail rfl rfl rfl
  | drop c => exact moves_of_edge h .drop rfl rfl rfl
  | endOfInput c => exact moves_of_edge h .endOfInput rfl rfl rfl
  | finish c => exact moves_of_edge h .finish rfl rfl rfl

/-! ## Counting -/

theorem countP_modify {α : Type} {l : List α} {i : Nat} {x : α} (h : l[i]? = some x) (f : α → α)
    (p : α → Bool) :
    (l.modify i f).countP p + (if p x then 1 else 0) =
      l.countP p + (if p (f x) then 1 else 0) := by
  induction l generalizing i with
  | nil => simp at h
  | cons y l ih =>
    cases i with
    | zero =>
      obtain rfl : y = x := by simpa using h
      simp only [modify_zero_cons, countP_cons]
      omega
    | succ i =>
      have hrec := ih (i := i) (by simpa using h)
      simp only [modify_succ_cons, countP_cons]
      omega

def ConnPhase.isCounted (phase : ConnPhase) : Bool := phase.adds = [1]

def ConnPhase.isPromised (phase : ConnPhase) : Bool :=
  match phase with
  | counted n => n ≤ maxClients
  | _ => phase.isLive

/-- What holds in every state. -/
structure Clients.Inv (maxClients : Int) (es : List AdmissionEvent) (st : Clients) : Prop where
  /-- The counter is the number of connections that are counted. -/
  current : st.clientsCurrent = st.count ConnPhase.isCounted
  promised : 0 < maxClients → (st.count (ConnPhase.isPromised maxClients) : Int) ≤ maxClients
  adds : ∀ c, addsOf es c = ((st.phase c).map ConnPhase.adds).getD []

section
variable {maxClients : Int} {es : List AdmissionEvent} {st st' : Clients} {e : AdmissionEvent}

theorem Clients.inv_init : Inv maxClients [] {} where
  current := rfl
  promised h := by
    show (0 : Int) ≤ maxClients
    omega
  adds _ := rfl

theorem addsOf_concat (es : List AdmissionEvent) (e : AdmissionEvent) (c : Nat) :
    addsOf (es ++ [e]) c = addsOf es c ++ (e.adds.filter (·.1 = c)).map Prod.snd := by
  simp [addsOf]

theorem Clients.count_congr (h : st'.conns = st.conns) (p : ConnPhase → Bool) :
    st'.count p = st.count p := by
  rw [count, count, h]

theorem Clients.count_move {conn : Conn} {phase : ConnPhase} (hconn : st.conns[c]? = some conn)
    (hconns : st'.conns = st.conns.modify c fun conn => { conn with phase })
    (p : ConnPhase → Bool) :
    st'.count p + (if p conn.phase then 1 else 0) = st.count p + (if p phase then 1 else 0) := by
  rw [count, count, hconns]
  exact countP_modify hconn _ fun c => p c.phase

theorem ConnPhase.Edge.adds {phase next : ConnPhase}
    (h : Edge maxClients clientsCurrent phase next d) :
    next.adds = phase.adds ++ if d = 0 then [] else [d] := by
  cases h <;> rfl

theorem ConnPhase.Edge.counted {phase next : ConnPhase}
    (h : Edge maxClients clientsCurrent phase next d) :
    ((if next.isCounted then 1 else 0 : Nat) : Int) =
      (if phase.isCounted then 1 else 0 : Nat) + d := by
  cases h <;> rfl

theorem ConnPhase.Edge.promised (hmax : 0 < maxClients) {phase next : ConnPhase}
    (h : Edge maxClients clientsCurrent phase next d) (hnext : next.isPromised maxClients = true) :
    phase.isPromised maxClients = true ∨ phase = .accepted ∧ clientsCurrent + 1 ≤ maxClients := by
  cases h with
  | increment => exact .inr ⟨rfl, by simpa [isPromised] using hnext⟩
  | full | refuse | drop | finish => cases hnext
  | enter h => exact .inl (by simpa [isPromised] using h hmax)
  | fail | serve | endOfInput => exact .inl rfl

theorem Clients.count_promised_le (maxClients : Int) (st : Clients) :
    st.count (ConnPhase.isPromised maxClients) ≤ st.count ConnPhase.isCounted := by
  refine countP_mono_left fun ⟨_, phase⟩ _ h => ?_
  cases phase <;> first | rfl | cases h

theorem Clients.Inv.step (h : st.Inv maxClients es) (hm : st.Moves maxClients e st') :
    st'.Inv maxClients (es ++ [e]) := by
  cases hm with
  | stay hconns hcurrent hadds =>
    refine ⟨?_, fun hmax => ?_, fun c => ?_⟩
    · rw [hcurrent, count_congr hconns, h.current]
    · rw [count_congr hconns]
      exact h.promised hmax
    · rw [addsOf_concat, hadds, phase, hconns, ← phase, h.adds]
      simp
  | @new tls hconns hcurrent hadds =>
    have hcount (p : ConnPhase → Bool) (hp : p .accepted = false) : st'.count p = st.count p := by
      rw [count, count, hconns]
      simp [hp]
    refine ⟨?_, fun hmax => ?_, fun c => ?_⟩
    · rw [hcurrent, hcount _ rfl, h.current]
    · rw [hcount _ rfl]
      exact h.promised hmax
    · rw [addsOf_concat, hadds, h.adds, phase, phase, hconns]
      rcases Nat.lt_trichotomy c st.conns.length with hlt | rfl | hgt
      · simp [List.getElem?_append_left hlt]
      · simp [ConnPhase.adds]
      · have hnone : (st.conns ++ [⟨tls, .accepted⟩])[c]? = none := by
          rw [List.getElem?_eq_none_iff, length_append, length_singleton]
          omega
        simp [List.getElem?_eq_none (Nat.le_of_lt hgt), hnone]
  | @move c conn phase d hconn hedge hconns hcurrent hadds =>
    have hcount := count_move hconn hconns
    refine ⟨?_, fun hmax => ?_, fun c' => ?_⟩
    · have hedge := hedge.counted
      have hcount := hcount ConnPhase.isCounted
      have hcur := h.current
      rw [hcurrent]
      omega
    · have hle := h.promised hmax
      have hcount := hcount (ConnPhase.isPromised maxClients)
      by_cases hnext : phase.isPromised maxClients = true
      · rcases hedge.promised hmax hnext with hold | ⟨hold, hroom⟩
        · simp only [hnext, hold, if_true] at hcount
          omega
        · have hold : conn.phase.isPromised maxClients = false := by rw [hold]; rfl
          have hcounted := st.count_promised_le maxClients
          have hcur := h.current
          simp only [hnext, hold, if_true, Bool.false_eq_true, if_false] at hcount
          omega
      · simp only [hnext, Bool.false_eq_true, if_false] at hcount
        omega
    · rw [addsOf_concat, hadds, h.adds, Clients.phase, Clients.phase, hconns, List.getElem?_modify]
      by_cases hc : c = c'
      · subst hc
        simp only [hconn, if_true, Option.map_eq_map, Option.map_some, Option.getD_some]
        rw [hedge.adds]
        split <;> simp
      · simp only [hc, if_false, id_map']
        split <;> simp [hc]

end

/-- **Admission is bounded**: no more connections than allowed are admitted and not ended, each is
counted once and counted out once, and at rest the counter is the number of sessions. -/
theorem admission_bounded {maxClients : Int} (hmax : 0 < maxClients) {es : List AdmissionEvent}
    (hv : (admission maxClients).Valid es) :
    (((admission maxClients).after es).count ConnPhase.isLive : Int) ≤ maxClients ∧
      (∀ c phase, ((admission maxClients).after es).phase c = some phase →
        addsOf es c = phase.adds) ∧
      ((∀ conn ∈ ((admission maxClients).after es).conns, conn.phase.isAtRest = true) →
        ((admission maxClients).after es).clientsCurrent =
          ((admission maxClients).after es).count (· = .serving)) := by
  have hinv : ((admission maxClients).after es).Inv maxClients es :=
    (admission maxClients).invariant (G := fun _ _ _ => True)
      (I := fun es st => st.Inv maxClients es) Clients.inv_init
      (fun _ _ h he _ => h.step (Clients.step_cases he)) hv fun _ _ _ => trivial
  generalize (admission maxClients).after es = st at hinv
  refine ⟨?_, fun c phase hc => ?_, fun hrest => ?_⟩
  · have hlive : st.count ConnPhase.isLive ≤ st.count (ConnPhase.isPromised maxClients) := by
      refine countP_mono_left fun conn _ h => ?_
      cases hphase : conn.phase <;> rw [hphase] at h <;> first | rfl | cases h
    have hle := hinv.promised hmax
    omega
  · rw [hinv.adds, hc]
    rfl
  · rw [hinv.current]
    congr 1
    refine countP_congr fun conn hconn => ?_
    have hat := hrest conn hconn
    cases hphase : conn.phase <;> rw [hphase] at hat <;> first | decide | cases hat

/-- One client of two gets in, and goes. -/
def twoConnections : List AdmissionEvent :=
  [.accept 0 true, .accept 1 false, .increment 1 1, .increment 0 0, .check 0 0 2, .check 1 1 1,
    .refuse 0 0, .handshake 1 true, .close 0 0]

theorem admission_bounded_one :
    (admission 1).Valid twoConnections ∧
      (((admission 1).after twoConnections).count ConnPhase.isLive : Int) ≤ 1 ∧
      addsOf twoConnections 0 = [1, -1] ∧
      ((admission 1).after twoConnections).clientsCurrent = 1 := by
  have hv : (admission 1).Valid twoConnections := by decide +kernel
  obtain ⟨hle, hadds, hrest⟩ := admission_bounded (by decide) hv
  exact ⟨hv, hle, hadds 0 .refused (by decide +kernel), hrest (by decide +kernel)⟩

end Irc
