import GoProtocols.Irc.Proof.Says

/-!
# What is sent to one session

`Emits s msgs st st'`: from `st` to `st'` the messages `msgs` were sent to session `s`, in this order,
and nothing else happened. Each is delivered in the form that the session is to see (`Rendered`).
-/

namespace Irc

open Go Prog

variable {s : SessionId} {msgs : List Message} {st st' : State}

/-- The message `msg` was delivered as `out`: with other tags, and next to its line. -/
structure Rendered (msg : Message) (out : Outbound) : Prop where
  legible : Legible msg → Legible out.msg
  eq : ∃ tags, out.msg = { msg with tags }
  line : ∃ order, TagOrder out.msg order ∧ out.line = format order out.msg ++ lit "\r\n"

def Emits (s : SessionId) (msgs : List Message) (st st' : State) : Prop :=
  ∃ outs, List.Forall₂ Rendered msgs outs ∧ st'.srv = st.srv ∧
    st'.output = Function.update st.output s (outs.foldl Output.deliver (st.output s))

theorem OnlyReads.emits (h : OnlyReads st st') : Emits s [] st st' :=
  ⟨[], .nil, h.srv, by rw [h.output]; simp⟩

theorem Emits.append {msgs' : List Message} {st'' : State} (h : Emits s msgs st st')
    (h' : Emits s msgs' st' st'') : Emits s (msgs ++ msgs') st st'' := by
  obtain ⟨outs, houts, hsrv, hout⟩ := h
  obtain ⟨outs', houts', hsrv', hout'⟩ := h'
  refine ⟨outs ++ outs', List.rel_append houts houts', hsrv'.trans hsrv, ?_⟩
  rw [hout', hout, Function.update_self, Function.update_idem, List.foldl_append]

theorem Emits.srv (h : Emits s msgs st st') : st'.srv = st.srv := by
  obtain ⟨-, -, hsrv, -⟩ := h
  exact hsrv

section
variable [UnicodeTables] {s : SessionId} {msg : Message} {env : Env} {st : State} (subCmd : Bytes)
  (caps : List Bytes)

theorem Legible.prepare (h : Legible msg) : Legible (prepare s msg env st).1 := by
  simp only [Irc.prepare, bind_run, ite_run]
  split
  · exact h
  · have htime : Legible (stampTime (st.srv.session s) msg env st).1 := by
      unfold stampTime
      split
      · exact h.setTag (by decide) _
      · exact h
    exact (htime.stampAccount _ _).dropTags _

theorem emits_send (h : msg.command ≠ Verb.TAGMSG.name) :
    Emits s [msg] st (send s msg env st).2 := by
  have hreads : OnlyReads st (render (prepare s msg env st).1 env (prepare s msg env st).2).2 :=
    within_run OnlyReads (prepare s msg >>= render) env st
  have hrendered : Rendered msg
      (render (prepare s msg env st).1 env (prepare s msg env st).2).1 :=
    ⟨Legible.prepare, prepare_eq s msg env st, _, visit_perm _ _, rfl⟩
  simp only [send, bind_run, if_neg fun hc => h (And.left hc)]
  refine ⟨[_], .cons hrendered .nil, hreads.srv, ?_⟩
  simp only [updateOutput, List.foldl_cons, List.foldl_nil, server_run, hreads.output]

theorem emits_sendServer {verb : Verb} (h : verb.name ≠ Verb.TAGMSG.name) (params : List Bytes) :
    Emits s [{ source := some { nick := env.cfg.name }, command := verb.name, params }] st
      (sendServer s verb params env st).2 :=
  emits_send h

/-! ## Lists of capabilities -/

/-- A line of a list of capabilities. -/
def capMessage (name target subCmd : Bytes) (rest : List Bytes) : Message :=
  { source := some { nick := name }, command := Verb.CAP.name, params := target :: subCmd :: rest }

/-- What stands after the subcommand, line by line. -/
def capParams : List (List Bytes) → List (List Bytes)
  | [] => []
  | [line] => [[join line (lit " ")]]
  | line :: lines => [lit "*", join line (lit " ")] :: capParams lines

def capLines : List (List Bytes) :=
  if caps = [] then [[]] else chunks 400 caps.length caps

variable (lines : List (List Bytes)) (env : Env) (st : State)

theorem emits_sendCAPLines :
    Emits s ((capParams lines).map (capMessage env.cfg.name (st.srv.session s).target subCmd)) st
      (sendCAPLines s subCmd lines env st).2 := by
  induction lines generalizing st with
  | nil => exact (refl_of OnlyReads st).emits
  | cons line lines ih =>
    cases lines with
    | nil => exact emits_sendServer (by decide) _
    | cons next lines =>
      have hfirst : Emits s [capMessage env.cfg.name (st.srv.session s).target subCmd
          [lit "*", join line (lit " ")]] st (sendServer s .CAP [(st.srv.session s).target, subCmd,
            lit "*", join line (lit " ")] env st).2 := emits_sendServer (by decide) _
      have hrest := ih (sendServer s .CAP [(st.srv.session s).target, subCmd, lit "*",
        join line (lit " ")] env st).2
      rw [hfirst.srv] at hrest
      exact hfirst.append hrest

theorem emits_sendCAPList :
    Emits s ((capParams (capLines caps)).map
      (capMessage env.cfg.name (st.srv.session s).target subCmd)) st
      (sendCAPList s subCmd caps env st).2 := by
  unfold sendCAPList capLines
  split
  · exact emits_sendServer (by decide) _
  · exact emits_sendCAPLines subCmd _ env st

end

end Irc
