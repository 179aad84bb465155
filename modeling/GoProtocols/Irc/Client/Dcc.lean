import GoProtocols.Go.Bytes
import GoProtocols.Lib.BigEndian
import GoProtocols.Lib.Run

/-!
# DCC downloads

`runReceive` of `irc/client/dcc/dcc.go`, and any number of calls of `Cancel` at the same time. They
share the state of the session, which `Cancel` stores without a lock: a step of `runReceive` has one
access to it, or none. An event says what the outside answers; it does nothing at another point.
-/

namespace Dcc

open Go List

variable {E : Type}

inductive TransferState
  | pending | active | completed | failed | cancelled
  deriving DecidableEq

/-- Where `runReceive` is; at `fail`, `finish` has found that the session is not cancelled. -/
inductive Point (E : Type)
  | openFile | dial | activate | check | copy
  | finish (err : Option E)
  | fail (err : E)
  | signal | ended

/-- What a round of the loop gets: the result of `Read`, with `some none` for `io.EOF`, and the
errors of the two calls of `Write`, each after so many bytes. -/
structure Round (E : Type) where
  buf : Bytes
  rerr : Option (Option E)
  werr : Option (Nat × E)
  aerr : Option (Nat × E)

inductive Event (E : Type)
  | cancel
  | called (err : Option E)
  | round (r : Round E)
  | advance

/-- The file and the connection. -/
structure Download where
  file : Bytes
  transferred : Int64 := 0
  received : Bytes := []
  eof : Bool := false
  sent : Bytes := []

structure Session (E : Type) extends Download where
  state : TransferState := .pending
  err : Option E := none
  done : Bool := false
  point : Point E := .openFile
  /-- `Cancel` was called. -/
  cancels : Bool := false

/-- `Resume`, and the file before. -/
structure Target where
  offset : Int64
  file : Bytes

variable (t : Target) (d : Download) (w : Session E) (es : List (Event E))

/-- The open file: `O_APPEND` or `O_TRUNC`. -/
def Target.start : Bytes := if 0 < t.offset then t.file else []

def ackBuf (n : Int64) : Bytes := BigEndian.encode 4 n.toUInt64.toUInt32.toNat

/-- A round of the loop, and where it leads. -/
def Download.round (r : Round E) : Download × Point E :=
  let d := { d with received := d.received ++ r.buf, eof := r.rerr.any Option.isNone }
  let next := r.rerr.elim .check .finish
  if r.buf = [] then (d, next)
  else
    match r.werr with
    | some (n, e) => ({ d with file := d.file ++ r.buf.take n }, .finish (some e))
    | none =>
      let transferred := d.transferred + .ofNat r.buf.length
      let d := { d with file := d.file ++ r.buf, transferred }
      match r.aerr with
      | some (n, e) => ({ d with sent := d.sent ++ (ackBuf transferred).take n }, .finish (some e))
      | none => ({ d with sent := d.sent ++ ackBuf transferred }, next)

def Session.cancel : Session E := { w with state := .cancelled, cancels := true }

def step (ev : Event E) : Session E :=
  match w.point, ev with
  | _, .cancel => w.cancel
  | .openFile, .called none => { w with file := t.start, point := .dial }
  | .dial, .called none => { w with point := .activate }
  | .openFile, .called (some e) | .dial, .called (some e) => { w with point := .finish (some e) }
  | .activate, .advance => { w with state := .active, transferred := t.offset, point := .check }
  | .check, .advance => { w with point := if w.state = .cancelled then .finish none else .copy }
  | .copy, .round r => { w with toDownload := (w.round r).1, point := (w.round r).2 }
  | .finish none, .advance => { w with state := .completed, point := .signal }
  | .finish (some e), .advance =>
    { w with point := if w.state = .cancelled then .signal else .fail e }
  | .fail e, .advance => { w with err := some e, state := .failed, point := .signal }
  | .signal, .advance => { w with done := true, point := .ended }
  | _, _ => w

def runReceive : Session E :=
  (System.mk { file := t.file } (fun _ _ => True) (step t)).after es

/-! ## What holds -/

/-- What was read is in the file, is counted, and is acknowledged as a whole. -/
def Accounted : Prop :=
  d.file = t.start ++ d.received ∧ d.transferred = t.offset + .ofNat d.received.length ∧
    (d.received = [] ∨ ackBuf d.transferred <:+ d.sent)

/-- The loop was left without an error, at the end of the input unless it was cancelled. -/
def Ends : Prop :=
  Accounted t w.toDownload ∧ w.err = none ∧ (w.cancels = false → w.eof = true)

def At : Point E → Prop
  | .openFile => w.received = []
  | .dial | .activate => w.received = [] ∧ w.file = t.start
  | .check | .copy => Accounted t w.toDownload
  | .finish none => Ends t w
  | .finish (some _) | .fail _ => True
  | .signal | .ended => w.state = .completed ∧ Ends t w ∨
      w.state = .failed ∧ w.err ≠ none ∨ w.state = .cancelled

structure Inv : Prop where
  point : At t w w.point
  settled : w.state = .completed ∨ w.state = .failed ∨ w.err ≠ none →
    w.point = .signal ∨ w.point = .ended
  cancelled : w.state = .cancelled → w.cancels = true
  done : w.done = true → w.point = .ended

variable {d w}

theorem round_spec (h : Accounted t d) (r : Round E) :
    (∃ e, (d.round r).2 = .finish (some e)) ∨ (d.round r).2 = r.rerr.elim .check .finish ∧
      (d.round r).1.eof = r.rerr.any Option.isNone ∧ Accounted t (d.round r).1 := by
  obtain ⟨hfile, htrans, hsent⟩ := h
  unfold Download.round
  dsimp only
  split_ifs with hbuf
  · exact .inr ⟨rfl, rfl, by simpa [Accounted, hbuf] using ⟨hfile, htrans, hsent⟩⟩
  · split
    · exact .inl ⟨_, rfl⟩
    · split
      · exact .inl ⟨_, rfl⟩
      · exact .inr ⟨rfl, rfl, by
          simp [Accounted, Int64.ofNat_add, Int64.add_assoc, hfile, htrans]⟩

/-! ## Steps -/

/-- The outcome is not known yet. -/
structure Open (w : Session E) : Prop where
  completed : w.state ≠ .completed
  failed : w.state ≠ .failed
  err : w.err = none
  done : w.done = false

variable {t}

theorem Inv.open (h : Inv t w) (hsignal : w.point ≠ .signal) (hended : w.point ≠ .ended) :
    Open w := by
  have hnot : ¬ (w.state = .completed ∨ w.state = .failed ∨ w.err ≠ none) := fun hs =>
    (h.settled hs).elim hsignal hended
  rw [not_or, not_or, not_not] at hnot
  exact ⟨hnot.1, hnot.2.1, hnot.2.2, Bool.eq_false_iff.2 fun hd => hended (h.done hd)⟩

theorem Open.inv (h : Open w) (hpoint : At t w w.point)
    (hcancelled : w.state = .cancelled → w.cancels = true) : Inv t w where
  point := hpoint
  settled hs := by
    rcases hs with hs | hs | hs
    · exact absurd hs h.completed
    · exact absurd hs h.failed
    · exact absurd h.err hs
  cancelled := hcancelled
  done hd := by
    rw [h.done] at hd
    cases hd

/-- A step to a point where the outcome is not known, either. -/
theorem Inv.move (h : Inv t w) (hsignal : w.point ≠ .signal) (hended : w.point ≠ .ended)
    {d : Download} {p : Point E} (hpoint : At t { w with toDownload := d, point := p } p) :
    Inv t { w with toDownload := d, point := p } := by
  have hopen := h.open hsignal hended
  exact Open.inv ⟨hopen.completed, hopen.failed, hopen.err, hopen.done⟩ hpoint h.cancelled

theorem Inv.cancel (h : Inv t w) : Inv t w.cancel where
  point := by
    have hpoint := h.point
    show At t w.cancel w.point
    cases hp : w.point with
    | openFile | dial | activate | check | copy =>
      rw [hp] at hpoint
      exact hpoint
    | finish err =>
      rw [hp] at hpoint
      cases err with
      | none => exact ⟨hpoint.1, hpoint.2.1, nofun⟩
      | some e => trivial
    | fail e => trivial
    | signal | ended => exact .inr (.inr rfl)
  settled hs := by
    rcases hs with hs | hs | hs
    · cases hs
    · cases hs
    · exact h.settled (.inr (.inr hs))
  cancelled _ := rfl
  done := h.done

/-- A round of the loop ends in an error, goes on, or has come to the end of the input. -/
theorem Inv.round (h : Inv t w) (hp : w.point = .copy) (r : Round E) :
    Inv t { w with toDownload := (w.round r).1, point := (w.round r).2 } := by
  have hpoint := h.point
  rw [hp] at hpoint
  refine h.move (by simp [hp]) (by simp [hp]) ?_
  rcases round_spec t hpoint r with ⟨e, he⟩ | ⟨he, heof, hacc⟩
  · rw [he]
    trivial
  · rw [he]
    cases hr : r.rerr with
    | none => exact hacc
    | some rerr =>
      cases rerr with
      | none =>
        rw [hr] at heof
        exact ⟨hacc, (h.open (by simp [hp]) (by simp [hp])).err, fun _ => heof⟩
      | some e => trivial

theorem inv_step (h : Inv t w) (ev : Event E) : Inv t (step t w ev) := by
  have hpoint := h.point
  unfold step
  split
  case h_1 => exact h.cancel
  case h_2 hp => -- the file is open
    rw [hp] at hpoint
    exact h.move (by simp [hp]) (by simp [hp]) ⟨hpoint, rfl⟩
  case h_3 hp =>
    rw [hp] at hpoint
    exact h.move (by simp [hp]) (by simp [hp]) hpoint
  case h_4 hp | h_5 hp => exact h.move (by simp [hp]) (by simp [hp]) trivial
  case h_6 hp => -- nothing is read yet
    rw [hp] at hpoint
    obtain ⟨hreceived, hfile⟩ := hpoint
    have hopen := h.open (by simp [hp]) (by simp [hp])
    refine Open.inv ⟨nofun, nofun, hopen.err, hopen.done⟩ ⟨?_, ?_, .inl hreceived⟩ nofun
    · simpa [hreceived] using hfile
    · simp [hreceived]
  case h_7 hp =>
    rw [hp] at hpoint
    refine h.move (by simp [hp]) (by simp [hp]) ?_
    split
    · rename_i hcancelled
      refine ⟨hpoint, (h.open (by simp [hp]) (by simp [hp])).err, fun hc => ?_⟩
      rw [show w.cancels = true from h.cancelled hcancelled] at hc
      cases hc
    · exact hpoint
  case h_8 r hp => exact h.round hp r
  case h_9 hp =>
    rw [hp] at hpoint
    have hopen := h.open (by simp [hp]) (by simp [hp])
    exact ⟨.inl ⟨rfl, hpoint⟩, fun _ => .inl rfl, nofun, fun hd => by
      rw [show w.done = false from hopen.done] at hd
      cases hd⟩
  case h_10 e hp =>
    refine h.move (by simp [hp]) (by simp [hp]) ?_
    split
    · exact .inr (.inr ‹_›)
    · trivial
  case h_11 e hp =>
    have hopen := h.open (by simp [hp]) (by simp [hp])
    exact ⟨.inr (.inl ⟨rfl, nofun⟩), fun _ => .inl rfl, nofun, fun hd => by
      rw [show w.done = false from hopen.done] at hd
      cases hd⟩
  case h_12 hp =>
    rw [hp] at hpoint
    exact ⟨hpoint, fun _ => .inr rfl, h.cancelled, fun _ => rfl⟩
  case h_13 => exact h

/-- What a settled session has come to. -/
theorem Inv.outcome (h : Inv t w) (hp : w.point = .signal ∨ w.point = .ended) :
    w.state = .completed ∧ Ends t w ∨ w.state = .failed ∧ w.err ≠ none ∨ w.state = .cancelled := by
  have hpoint := h.point
  rcases hp with hp | hp
  · rw [hp] at hpoint
    exact hpoint
  · rw [hp] at hpoint
    exact hpoint

/-! ## Runs -/

variable (t)

theorem runReceive_concat (ev : Event E) :
    runReceive t (es ++ [ev]) = step t (runReceive t es) ev := System.after_concat _ es ev

theorem inv_runReceive : Inv t (runReceive t es) := by
  induction es using reverseRecOn with
  | nil => exact Open.inv ⟨nofun, nofun, rfl, rfl⟩ rfl nofun
  | append_singleton es ev ih =>
    rw [runReceive_concat]
    exact inv_step ih ev

theorem step_ended (h : w.point = .ended) (ev : Event E) :
    step t w ev = w ∨ ev = .cancel ∧ step t w ev = w.cancel := by
  cases ev with
  | cancel => exact .inr ⟨rfl, by simp [step]⟩
  | called err | round r | advance => exact .inl (by simp [step, h])

theorem done_final (h : (runReceive t es).done = true) (es' : List (Event E)) :
    runReceive t (es ++ es') = runReceive t es ∨
      .cancel ∈ es' ∧ runReceive t (es ++ es') = (runReceive t es).cancel := by
  have hend := (inv_runReceive t es).done h
  induction es' using reverseRecOn with
  | nil => exact .inl (by rw [append_nil])
  | append_singleton es' ev ih =>
    rw [← append_assoc, runReceive_concat]
    rcases ih with ih | ⟨hmem, ih⟩
    · rw [ih]
      rcases step_ended t hend ev with hstep | ⟨rfl, hstep⟩
      · exact .inl hstep
      · exact .inr ⟨mem_append_right _ (mem_singleton_self _), hstep⟩
    · rw [ih]
      refine .inr ⟨mem_append_left _ hmem, ?_⟩
      rcases step_ended t (w := (runReceive t es).cancel) hend ev with hstep | ⟨-, hstep⟩
      · exact hstep
      · exact hstep

/-- **A session that is done is settled**, and only `Cancel` changes it. If it is completed, what
was read is in the file and acknowledged, and without a `Cancel` it is all the sender had. -/
theorem receive_settles :
    ((runReceive t es).done = true →
      ((runReceive t es).state = .completed ∨ (runReceive t es).state = .failed ∨
        (runReceive t es).state = .cancelled) ∧
      ∀ es', runReceive t (es ++ es') = runReceive t es ∨
        .cancel ∈ es' ∧ runReceive t (es ++ es') = (runReceive t es).cancel) ∧
    ((runReceive t es).state = .completed → Ends t (runReceive t es)) ∧
    ((runReceive t es).state = .failed → (runReceive t es).err ≠ none) ∧
    ((runReceive t es).state = .cancelled → (runReceive t es).cancels = true) := by
  have h := inv_runReceive t es
  refine ⟨fun hdone => ⟨?_, done_final t es hdone⟩, fun hstate => ?_, fun hstate => ?_, h.cancelled⟩
  · exact (h.outcome (.inr (h.done hdone))).imp And.left (Or.imp_left And.left)
  · rcases h.outcome (h.settled (.inl hstate)) with ⟨-, hends⟩ | ⟨hs, -⟩ | hs
    · exact hends
    · rw [hstate] at hs
      cases hs
    · rw [hstate] at hs
      cases hs
  · rcases h.outcome (h.settled (.inr (.inl hstate))) with ⟨hs, -⟩ | ⟨-, herr⟩ | hs
    · rw [hstate] at hs
      cases hs
    · exact herr
    · rw [hstate] at hs
      cases hs

end Dcc
