import GoProtocols.Irc.Proof.Script
import GoProtocols.Irc.Proof.Tags

/-!
# What a script sends

A command does not look at the outputs of the sessions: which messages it renders, for whom and with
which tags, depends on the server only (`Script.traced`). So the run of a command from any outputs is
the same list of deliveries, put into these outputs one after the other, and capturing the response
to a labeled command changes nothing but where its messages are put.
-/

namespace Irc

open Go Prog

/-! ## Deliveries -/

/-- A message that was rendered for a session. -/
structure Delivery where
  session : SessionId
  /-- It was sent by `sendImmediate`. -/
  immediate : Bool
  out : Outbound

/-- Put a rendered message where it belongs. -/
def Output.put (o : Output) (d : Delivery) : Output :=
  if d.immediate then
    { ({ o with captureImmediate := true } : Output).deliver d.out with captureImmediate := false }
  else o.deliver d.out

def deliverTo (output : SessionId → Output) (d : Delivery) : SessionId → Output :=
  Function.update output d.session ((output d.session).put d)

/-- Outside of `sendImmediate` no output is marked. -/
def Calm (output : SessionId → Output) : Prop := ∀ t, (output t).captureImmediate = false

theorem Output.deliver_captureImmediate (o : Output) (out : Outbound) :
    (o.deliver out).captureImmediate = o.captureImmediate := by
  unfold Output.deliver
  repeat' split
  all_goals rfl

theorem Output.put_captureImmediate {o : Output} (h : o.captureImmediate = false) (d : Delivery) :
    (o.put d).captureImmediate = false := by
  unfold Output.put
  split
  · rfl
  · rw [Output.deliver_captureImmediate, h]

section
variable {output : SessionId → Output} (h : Calm output)
include h

theorem Calm.update {o : Output} {s : SessionId} (ho : o.captureImmediate = false) :
    Calm (Function.update output s o) :=
  (Function.forall_update_iff output fun _ o => o.captureImmediate = false).2 ⟨ho, fun t _ => h t⟩

theorem Calm.deliverTo (d : Delivery) : Calm (deliverTo output d) :=
  h.update (Output.put_captureImmediate (h _) d)

theorem Calm.foldl (ds : List Delivery) : Calm (ds.foldl Irc.deliverTo output) :=
  List.foldlRecOn ds _ h fun _ h d _ => h.deliverTo d

end

/-! ## Programs that do not look at outputs -/

variable {α β : Type} {m : M α} {f : α → M β} (u : Session) (msg : Message)

/-- A program that neither looks at the outputs nor changes them. -/
def Blind (m : M α) : Prop :=
  ∀ env srv reads, ∃ a srv' reads', ∀ output : SessionId → Output,
    m env ⟨srv, output, reads⟩ = (a, ⟨srv', output, reads'⟩)

theorem Blind.pure (a : α) : Blind (Pure.pure a : M α) :=
  fun _ srv reads => ⟨a, srv, reads, fun _ => rfl⟩

theorem Blind.bind (hm : Blind m) (hf : ∀ a, Blind (f a)) : Blind (m >>= f) := by
  intro env srv reads
  obtain ⟨a, srv', reads', hrun⟩ := hm env srv reads
  obtain ⟨b, srv'', reads'', hrun'⟩ := hf a env srv' reads'
  refine ⟨b, srv'', reads'', fun output => ?_⟩
  rw [bind_run, hrun]
  exact hrun' output

theorem Blind.ite {c : Prop} [Decidable c] {n : M α} (hm : Blind m) (hn : Blind n) :
    Blind (if c then m else n) := by
  split
  · exact hm
  · exact hn

theorem blind_server : Blind server := fun _ srv reads => ⟨srv, srv, reads, fun _ => rfl⟩

theorem blind_now : Blind now := fun env srv reads => ⟨env.world.now reads, srv, _, fun _ => rfl⟩

theorem blind_rangeOver (key : α → Bytes) (l : List α) : Blind (rangeOver key l) :=
  fun env srv reads =>
    ⟨visit (fun a => env.world.rank reads (key a)) l, srv, reads + 1, fun _ => rfl⟩

theorem blind_stampTime : Blind (stampTime u msg) :=
  .ite (.bind blind_now fun _ => .pure _) (.pure _)

theorem blind_render : Blind (render msg) :=
  .bind (blind_rangeOver _ _) fun _ => .pure _

section
variable [UnicodeTables] (s : SessionId) (msg : Message)

theorem blind_prepare : Blind (prepare s msg) :=
  .bind blind_server fun _ => .ite (.pure _) (.bind (blind_stampTime _ _) fun _ => .pure _)

def rendering : M Outbound := do
  let out ← prepare s msg
  render out

theorem blind_rendering : Blind (rendering s msg) :=
  .bind (blind_prepare s msg) fun _ => blind_render _

instance : Within Onward (rendering s msg) := by
  unfold rendering
  infer_instance

theorem Unframed.shown {srv : Server} {s : SessionId} {msg out : Message} (h : Unframed msg)
    (hout : Shown srv s msg out) : Unframed out where
  label := hout.label h.label
  command := hout.command ▸ h.command

end

/-! ## Traces -/

/-- The result of a program apart from the outputs, and what it renders. -/
structure Trace (α : Type) where
  value : α
  srv : Server
  reads : Nat
  deliveries : List Delivery

/-- From all outputs the program has this trace. -/
def HasTrace (m : M α) (env : Env) (srv : Server) (reads : Nat) (t : Trace α) : Prop :=
  ∀ output, Calm output →
    m env ⟨srv, output, reads⟩ = (t.value, ⟨t.srv, t.deliveries.foldl deliverTo output, t.reads⟩)

theorem HasTrace.bind {env : Env} {srv : Server} {reads : Nat} {t : Trace α} {t' : Trace β}
    (hm : HasTrace m env srv reads t) (hf : HasTrace (f t.value) env t.srv t.reads t') :
    HasTrace (m >>= f) env srv reads
      { t' with deliveries := t.deliveries ++ t'.deliveries } := by
  intro output hcalm
  rw [bind_run, hm output hcalm, List.foldl_append]
  exact hf _ (hcalm.foldl t.deliveries)

section
variable {env : Env} {srv : Server} {reads : Nat} {t : Trace α}

theorem HasTrace.server {f : Server → M α} (h : HasTrace (f srv) env srv reads t) :
    HasTrace (Irc.server >>= f) env srv reads t := h

theorem HasTrace.config {f : Config → M α} (h : HasTrace (f env.cfg) env srv reads t) :
    HasTrace (Irc.config >>= f) env srv reads t := h

theorem HasTrace.randText {f : Bytes → M α}
    (h : HasTrace (f (env.world.text reads)) env srv (reads + 1) t) :
    HasTrace (Irc.randText >>= f) env srv reads t := h

end

theorem Blind.hasTrace (h : Blind m) (env : Env) (srv : Server) (reads : Nat) :
    ∃ t, HasTrace m env srv reads t ∧ t.deliveries = [] := by
  obtain ⟨a, srv', reads', hrun⟩ := h env srv reads
  exact ⟨⟨a, srv', reads', []⟩, fun output _ => hrun output, rfl⟩

def Traced (P : Message → Prop) (m : M α) : Prop :=
  ∀ env srv reads, ∃ t, HasTrace m env srv reads t ∧ ∀ d ∈ t.deliveries, P d.out.msg

variable {P : Message → Prop}

theorem Blind.traced (h : Blind m) : Traced P m := by
  intro env srv reads
  obtain ⟨t, ht, hds⟩ := h.hasTrace env srv reads
  exact ⟨t, ht, by simp [hds]⟩

theorem Traced.bind {m : M α} {f : α → M β} (hm : Traced P m) (hf : ∀ a, Traced P (f a)) :
    Traced P (m >>= f) := by
  intro env srv reads
  obtain ⟨t, ht, hds⟩ := hm env srv reads
  obtain ⟨t', ht', hds'⟩ := hf t.value env t.srv t.reads
  refine ⟨_, ht.bind ht', fun d hd => ?_⟩
  exact (List.mem_append.1 hd).elim (hds d) (hds' d)

theorem traced_checkPassword (s : SessionId) (hash password : Bytes) :
    Traced P (checkPassword s hash password) := by
  intro env srv reads
  refine ⟨⟨env.world.bcryptCheck hash password, srv, reads, []⟩, fun output _ => ?_, by simp⟩
  refine Prod.ext ?_ (checkPassword_state s hash password env _)
  simp only [checkPassword, bind_run, ite_run]
  split <;> rfl

section
variable [UnicodeTables]

def Session.sees (u : Session) (msg : Message) : Bool :=
  ¬ (msg.command = Verb.TAGMSG.name ∧ ¬ u.capEnabled .messageTags)

variable {s : SessionId} {msg : Message} {srv : Server}

theorem send_unseen (h : (srv.session s).sees msg = false) (env : Env) (reads : Nat)
    (output : SessionId → Output) :
    send s msg env ⟨srv, output, reads⟩ = ((), ⟨srv, output, reads⟩) := by
  simp only [send, bind_run, ite_run]
  rw [server_run, if_pos (by simpa [Session.sees] using h)]
  rfl

theorem send_seen (h : (srv.session s).sees msg = true) (env : Env) (reads : Nat) :
    ∃ out reads', Shown srv s msg out.msg ∧ ∀ output, send s msg env ⟨srv, output, reads⟩ =
      ((), ⟨srv, Function.update output s ((output s).deliver out), reads'⟩) := by
  obtain ⟨out, srv', reads', hrun⟩ := blind_rendering s msg env srv reads
  refine ⟨out, reads', ?_, fun output => ?_⟩
  · have hout : Shown srv s msg (rendering s msg env ⟨srv, fun _ => {}, reads⟩).1.msg :=
      prepare_shown s msg env ⟨srv, fun _ => {}, reads⟩
    rwa [hrun] at hout
  · have hsrv : srv' = srv := by
      have honward := within_run Onward (rendering s msg) env ⟨srv, output, reads⟩
      rw [hrun] at honward
      exact honward.srv
    have hsend : send s msg env ⟨srv, output, reads⟩ =
        updateOutput s (fun o => o.deliver (rendering s msg env ⟨srv, output, reads⟩).1) env
          (rendering s msg env ⟨srv, output, reads⟩).2 := by
      simp only [send, bind_run, ite_run]
      rw [server_run, if_neg (by simpa [Session.sees, imp_iff_not_or] using h)]
      rfl
    rw [hsend, hrun, hsrv]
    rfl

theorem traced_send (h : ∀ srv out, Shown srv s msg out → P out) : Traced P (send s msg) := by
  intro env srv reads
  cases hsees : (srv.session s).sees msg with
  | false =>
    exact ⟨⟨(), srv, reads, []⟩, fun output _ => send_unseen hsees env reads output, by simp⟩
  | true =>
    obtain ⟨out, reads', hout, hrun⟩ := send_seen hsees env reads
    refine ⟨⟨(), srv, reads', [⟨s, false, out⟩]⟩, fun output _ => hrun output, ?_⟩
    simpa using h srv out.msg hout

theorem traced_sendImmediate (h : ∀ srv out, Shown srv s msg out → P out) :
    Traced P (sendImmediate s msg) := by
  intro env srv reads
  cases hsees : (srv.session s).sees msg with
  | false =>
    refine ⟨⟨(), srv, reads, []⟩, fun output hcalm => ?_, by simp⟩
    have hmark : ({ output s with captureImmediate := false } : Output) = output s := by
      rw [← hcalm s]
    simp only [sendImmediate, bind_run, updateOutput, send_unseen hsees]
    simp [hmark]
  | true =>
    obtain ⟨out, reads', hout, hrun⟩ := send_seen hsees env reads
    refine ⟨⟨(), srv, reads', [⟨s, true, out⟩]⟩, fun output _ => ?_, ?_⟩
    · simp only [sendImmediate, bind_run, updateOutput, hrun]
      simp [deliverTo, Output.put]
    · simpa using h srv out.msg hout

/-- **A script renders the same messages from all outputs**, without labels unless it replays. -/
theorem Script.traced {p : Scope} {m : M α} (h : Script p m) :
    Traced (fun msg => p.replays = true ∨ Unframed msg) m := by
  induction h with
  | pure a => exact (Blind.pure a).traced
  | bind _ _ hm hf => exact hm.bind hf
  | server => exact blind_server.traced
  | config => exact Blind.traced fun env srv reads => ⟨env.cfg, srv, reads, fun _ => rfl⟩
  | accounts => exact Blind.traced fun env srv reads => ⟨env.accounts, srv, reads, fun _ => rfl⟩
  | world => exact Blind.traced fun env srv reads => ⟨env.world, srv, reads, fun _ => rfl⟩
  | now => exact blind_now.traced
  | randText =>
    exact Blind.traced fun env srv reads => ⟨env.world.text reads, srv, reads + 1, fun _ => rfl⟩
  | rangeOver key l => exact (blind_rangeOver key l).traced
  | send s msg h => exact traced_send fun _ _ hout => h.imp_right (·.shown hout)
  | sendImmediate s msg h => exact traced_sendImmediate fun _ _ hout => h.imp_right (·.shown hout)
  | checkPassword s hash password => exact traced_checkPassword s hash password
  | updateServer f _ => exact Blind.traced fun _ srv reads => ⟨(), f srv, reads, fun _ => rfl⟩

end

end Irc
