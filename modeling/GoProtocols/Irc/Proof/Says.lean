import GoProtocols.Irc.Mentions
import GoProtocols.Irc.Proof.Quiet

/-!
# What a command sends

`Says env p m Q`: from a server of which `P` holds, under the configuration `env`, program `m` sends
legible messages only, leaves `P` true, and gives a value of which `Q` holds. The rules for sequence,
branches and loops are those of `Prog.Keeps`; here are those for the basic operations, up to the
lists that are sent over several lines. Mostly `P` fixes the server. `Tells env srv m` is for
programs that change it: what they leave behind does not matter.
-/

namespace Irc

open Go Prog List

variable {f : Server → Server} {params : List Bytes} (good : Message → Prop) {command : Bytes}
  {ch : Channel}

/-! ## Growing outputs -/

/-- The output `o'` is `o` with more messages, of which `good` holds. -/
structure Output.Gains (good : Message → Prop) (o o' : Output) : Prop where
  queue : ∃ q, o'.writeQueue = o.writeQueue ++ q ∧ ∀ out ∈ q, good out.msg
  response : ∃ r, o'.response = o.response.map (· ++ r) ∧ ∀ m ∈ r, good m
  immediate : ∃ i, o'.responseImmediate = o.responseImmediate ++ i ∧ ∀ m ∈ i, good m

/-- The messages that `o'` has more than `o`. -/
def Output.since (o o' : Output) : List Message :=
  (o'.writeQueue.drop o.writeQueue.length).map Outbound.msg ++
    ((o'.response.getD []).drop (o.response.getD []).length ++
      o'.responseImmediate.drop o.responseImmediate.length)

section
variable {good : Message → Prop} {o o' o'' : Output}

theorem Output.Gains.of_eq (hq : o'.writeQueue = o.writeQueue) (hr : o'.response = o.response)
    (hi : o'.responseImmediate = o.responseImmediate) : o.Gains good o' where
  queue := ⟨[], by simp [hq], by simp⟩
  response := ⟨[], by simp [hr], by simp⟩
  immediate := ⟨[], by simp [hi], by simp⟩

theorem Output.Gains.refl (o : Output) : o.Gains good o := .of_eq rfl rfl rfl

theorem Output.Gains.trans (h : o.Gains good o') (h' : o'.Gains good o'') : o.Gains good o'' := by
  obtain ⟨⟨q, hq, hqg⟩, ⟨r, hr, hrg⟩, ⟨i, hi, hig⟩⟩ := h
  obtain ⟨⟨q', hq', hqg'⟩, ⟨r', hr', hrg'⟩, ⟨i', hi', hig'⟩⟩ := h'
  refine ⟨⟨q ++ q', by simp [hq', hq], forall_mem_append.2 ⟨hqg, hqg'⟩⟩,
    ⟨r ++ r', ?_, forall_mem_append.2 ⟨hrg, hrg'⟩⟩,
    ⟨i ++ i', by simp [hi', hi], forall_mem_append.2 ⟨hig, hig'⟩⟩⟩
  rw [hr', hr, Option.map_map]
  congr 1
  funext l
  simp

theorem Output.Gains.since (h : o.Gains good o') : ∀ m ∈ o.since o', good m := by
  obtain ⟨⟨q, hq, hqg⟩, ⟨r, hr, hrg⟩, ⟨i, hi, hig⟩⟩ := h
  intro m hm
  have hresponse : (o'.response.getD []).drop (o.response.getD []).length ⊆ r := by
    rw [hr]
    cases o.response <;> simp
  simp only [Output.since, hq, hi, drop_left, mem_append, mem_map] at hm
  rcases hm with ⟨out, hout, rfl⟩ | hm | hm
  · exact hqg out hout
  · exact hrg m (hresponse hm)
  · exact hig m hm

theorem Output.gains_deliver {out : Outbound} (h : good out.msg) (o : Output) :
    o.Gains good (o.deliver out) := by
  unfold Output.deliver
  cases hr : o.response with
  | none =>
    exact ⟨⟨[out], rfl, by simpa using h⟩, ⟨[], by simp [hr], by simp⟩, ⟨[], by simp, by simp⟩⟩
  | some messages =>
    dsimp only
    split
    · exact ⟨⟨[], by simp, by simp⟩, ⟨[], by simp [hr], by simp⟩, ⟨[out.msg], rfl, by simpa using h⟩⟩
    · exact ⟨⟨[], by simp, by simp⟩, ⟨[out.msg], by simp [hr], by simpa using h⟩,
        ⟨[], by simp, by simp⟩⟩

end

/-- Every output has gained messages of which `good` holds, and is otherwise as it was. -/
def Speaks (st st' : State) : Prop :=
  ∀ t, (st.output t).Gains good (st'.output t)

instance : IsPreorder State (Speaks good) where
  refl _ _ := .refl _
  trans _ _ _ h h' t := (h t).trans (h' t)

theorem OnlyReads.speaks {good : Message → Prop} {st st' : State} (h : OnlyReads st st') :
    Speaks good st st' := fun t => by
  rw [h.output]
  exact .refl _

/-! ## Programs that keep the server -/

/-- The name of the server can stand in a source, and the random texts are of letters and digits. -/
structure Env.Plain (env : Env) : Prop where
  name : 32 ∉ env.cfg.name
  text : ∀ n, 32 ∉ env.world.text n ∧ Clear (env.world.text n)

/-- What is known of the server while a program runs. -/
structure Phase where
  holds : Server → Prop

def Phase.at (srv : Server) : Phase := ⟨(· = srv)⟩

section
variable {α : Type} {env : Env} {p : Phase} {srv : Server} {m : M α} {Q : α → Prop}
  {t : SessionId}

def Says (env : Env) (p : Phase) (m : M α) (Q : α → Prop := fun _ => True) : Prop :=
  Keeps (fun env' => env' = env ∧ env.Plain) (fun st => p.holds st.srv) (Speaks Legible) m Q

theorem Says.at (h : ∀ srv, p.holds srv → Says env (.at srv) m Q) : Says env p m Q := by
  intro env' st henv hst
  obtain ⟨hsrv, hspeaks, hQ⟩ := h st.srv hst env' st henv rfl
  refine ⟨?_, hspeaks, hQ⟩
  show p.holds (m env' st).2.srv
  rwa [show (m env' st).2.srv = st.srv from hsrv]

theorem says_of_reads [hm : Within OnlyReads m]
    (hQ : ∀ st, env.Plain → p.holds st.srv → Q (m env st).1) : Says env p m Q := by
  rintro env' st ⟨he, henv⟩ hst
  subst he
  have hreads := hm.run env' st
  refine ⟨?_, hreads.speaks, hQ st henv hst⟩
  show p.holds (m env' st).2.srv
  rwa [hreads.srv]

theorem says_reads [Within OnlyReads m] : Says env p m := says_of_reads fun _ _ _ => trivial

theorem says_server : Says env p server p.holds := says_of_reads fun _ _ h => h

theorem Says.server {k : Server → M α} (h : Says env (.at srv) (k srv) Q) :
    Says env (.at srv) (server >>= k) Q :=
  says_server.bind fun srv' he => by
    obtain rfl : srv' = srv := he
    exact h

theorem Says.config {k : Config → M α} (h : env.Plain → Says env p (k env.cfg) Q) :
    Says env p (config >>= k) Q :=
  Keeps.bind (Q := fun cfg => cfg = env.cfg ∧ env.Plain)
    (says_of_reads fun _ henv _ => ⟨rfl, henv⟩) fun _ ⟨he, henv⟩ => he ▸ h henv

theorem says_randText : Says env p randText fun text => 32 ∉ text ∧ Clear text :=
  says_of_reads fun st henv _ => henv.text st.reads

theorem says_rangeOver {key : α → Bytes} {l : List α} :
    Says env p (rangeOver key l) fun l' => l'.Perm l :=
  says_of_reads fun _ _ _ => visit_perm _ l

theorem says_allSessions :
    Says env (.at srv) allSessions fun l => ∀ t ∈ l, ∃ e ∈ srv.sessions.entries, e.2 = t := by
  exact Says.server (says_rangeOver.bind fun l hl =>
    .pure (forall_mem_map.2 fun e he => ⟨e, hl.mem_iff.1 he, rfl⟩))

theorem says_allChannels :
    Says env (.at srv) allChannels fun l => ∀ ch ∈ l, ch ∈ srv.channels.entries :=
  Says.server (says_rangeOver.mono fun _ hl _ hch => hl.mem_iff.1 hch)

theorem says_memberList :
    Says env p ch.memberList fun l => ∀ m ∈ l, ∃ e ∈ ch.members.entries, e.2 = m := by
  exact says_rangeOver.bind fun l hl =>
    .pure (forall_mem_map.2 fun e he => ⟨e, hl.mem_iff.1 he, rfl⟩)

theorem says_updateServer (hf : ∀ srv, p.holds srv → p.holds (f srv)) : Says env p (updateServer f) :=
  fun _ st _ hst => ⟨hf st.srv hst, fun _ => .refl _, trivial⟩

theorem says_updateOutput {f : Output → Output} (hf : ∀ o : Output, o.Gains Legible (f o)) :
    Says env p (updateOutput t f) := by
  refine fun env st _ hst => ⟨hst, fun t' => ?_, trivial⟩
  by_cases he : t' = t
  · subst he
    simpa [updateOutput] using hf (st.output t')
  · simpa [updateOutput, he] using (Output.Gains.refl (st.output t') : Output.Gains Legible _ _)

theorem says_checkPassword {s : SessionId} {hash password : Bytes} :
    Says env p (checkPassword s hash password) := by
  intro env st _ hst
  rw [checkPassword_state]
  exact ⟨hst, refl_of (Speaks Legible) st, trivial⟩

end

/-! ## Programs that end -/

section
variable {α β : Type} {env : Env} {srv : Server} {m : M α} {k : α → M β} {Q : α → Prop}

/-- From this server the program sends legible messages only. -/
def Tells (env : Env) (srv : Server) (m : M α) : Prop :=
  ∀ st, env.Plain → st.srv = srv → Speaks Legible st (m env st).2

theorem Says.tells {p : Phase} (h : Says env p m Q) (hsrv : p.holds srv) : Tells env srv m :=
  fun st henv hst => (h env st ⟨rfl, henv⟩ (show p.holds st.srv from hst ▸ hsrv)).2.1

theorem Tells.pure (a : α) : Tells env srv (Pure.pure a) := fun st _ _ => refl_of (Speaks Legible) st

theorem Tells.bind (hm : Says env (.at srv) m Q) (hk : ∀ a, Q a → Tells env srv (k a)) :
    Tells env srv (m >>= k) := by
  intro st henv hst
  obtain ⟨hsrv, hspeaks, hQ⟩ := hm env st ⟨rfl, henv⟩ hst
  exact trans_of (Speaks Legible) hspeaks (hk _ hQ _ henv hsrv)

theorem Tells.seq (hm : Says env (.at srv) m Q) (hk : ∀ a, Tells env srv (k a)) :
    Tells env srv (m >>= k) :=
  .bind hm fun a _ => hk a

theorem Tells.ite {c : Prop} [Decidable c] {n : M α} (hm : c → Tells env srv m)
    (hn : ¬ c → Tells env srv n) : Tells env srv (if c then m else n) := by
  split
  · exact hm ‹_›
  · exact hn ‹_›

theorem Tells.elim {o : Option α} {n : M β} (hn : o = none → Tells env srv n)
    (hk : ∀ a, o = some a → Tells env srv (k a)) : Tells env srv (o.elim n k) := by
  cases o with
  | none => exact hn rfl
  | some a => exact hk a rfl

theorem tells_updateServer : Tells env srv (updateServer f) := fun _ _ _ _ => .refl _

theorem Tells.update {k : Unit → M α} (h : Tells env (f srv) (k ())) :
    Tells env srv (updateServer f >>= k) :=
  fun st henv hst => h { st with srv := f st.srv } henv (congrArg f hst)

theorem Tells.when {c : Prop} [Decidable c] {m : M Unit} {k : Unit → M α}
    (hm : c → Tells env srv (m >>= k)) (hn : ¬ c → Tells env srv (k ())) :
    Tells env srv (Prog.when c m >>= k) := by
  unfold Prog.when
  split
  · exact hm ‹_›
  · exact hn ‹_›

theorem Tells.server {k : Server → M α} (h : Tells env srv (k srv)) :
    Tells env srv (server >>= k) :=
  fun st henv hst => by
    subst hst
    exact h st henv rfl

theorem Tells.config {k : Config → M α} (h : Tells env srv (k env.cfg)) :
    Tells env srv (config >>= k) :=
  fun st henv hst => h st henv hst

end

/-! ## Messages -/

section
variable {env : Env} {p : Phase} {srv : Server} {t : SessionId} {msg : Message} {n : Numeric}
  {values : List Bytes}

theorem Legible.setTag (h : Legible msg) {tag : Bytes} (htag : TagKey tag) (value : Bytes) :
    Legible (msg.setTag tag value) :=
  { h with tags := Map.All.insert (p := fun k _ => TagKey k) h.tags htag }

theorem says_render (h : Legible msg) : Says env p (render msg) fun out => Legible out.msg :=
  says_rangeOver.seq fun _ => .pure h

theorem Legible.dropTags (h : Legible msg) (u : Session) : Legible (dropTags u msg) := by
  refine { h with tags := foldlRecOn (motive := Map.All fun k _ => TagKey k) _ _ h.tags ?_ }
  intro tags htags t _
  split
  · exact htags
  · exact htags.erase t.1

theorem says_stampTime (h : Legible msg) (u : Session) : Says env p (stampTime u msg) Legible :=
  .ite (fun _ => says_reads.seq fun _ => .pure (h.setTag (by decide) _))
    fun _ => .pure h

theorem legible_from {source : Prefix} (hsource : 32 ∉ source.string) (hcommand : Known command)
    (hparams : Readable params) : Legible { source := some source, command, params } where
  tags := Map.all_empty (p := fun k _ => TagKey k)
  source p hp := by
    obtain rfl : source = p := by simpa using hp
    exact hsource
  command := hcommand
  params := hparams

theorem Env.Plain.legible_server (henv : env.Plain) (hcommand : Known command)
    (hparams : Readable params) :
    Legible { source := some { nick := env.cfg.name }, command, params } :=
  legible_from (by simpa [Prefix.string, Prefix.isServer] using henv.name) hcommand hparams

theorem legible_user {u : Session} (hu : 32 ∉ u.source.string) {v : Verb}
    (hparams : Readable params) :
    Legible { source := some u.source, command := v.name, params } :=
  legible_from hu (known_verb v) hparams

theorem word_of_isValidNick {nick : Bytes} (h : isValidNick nick = true) : Word nick := by
  have hnot {b : UInt8} (hb : b < 0x80) (hrune : ¬ NickRune b.toNat) : b ∉ nick :=
    fun hmem => hrune (mem_isValidNick h hmem hb)
  have hclear : Clear nick := ⟨hnot (by decide) (by decide), hnot (by decide) (by decide)⟩
  have hcolon : (58 : UInt8) ∉ nick := hnot (by decide) (by decide)
  exact ⟨⟨ne_nil_of_isValidNick h, hnot (by decide) (by decide),
    fun hc => hcolon (mem_of_mem_head? hc)⟩, hclear.ended⟩

theorem chunks_flatten {fuel : Nat} (max : Nat) (h : values.length ≤ fuel) :
    (chunks max fuel values).flatten = values := by
  induction fuel generalizing values with
  | zero => rw [length_eq_zero_iff.1 (Nat.le_zero.1 h)]; rfl
  | succ fuel ih =>
    unfold chunks
    split
    · rename_i hnil
      rw [hnil]
      rfl
    · rename_i hne
      have hpos : 1 ≤ Nat.max 1 (fitting max 0 values) := Nat.le_max_left _ _
      have hlen : 0 < values.length := length_pos_iff.2 hne
      rw [flatten_cons, ih, take_append_drop]
      rw [length_drop]
      omega

theorem mem_chunks {max : Nat} {line : List Bytes} {v : Bytes}
    (h : line ∈ chunks max values.length values) (hv : v ∈ line) : v ∈ values := by
  have hmem := mem_flatten.2 ⟨line, h, hv⟩
  rwa [chunks_flatten max le_rfl] at hmem

variable [UnicodeTables]

theorem Legible.stampAccount (h : Legible msg) (srv : Server) (u : Session) :
    Legible (stampAccount srv u msg) := by
  have hset (account : Bytes) : Legible (msg.setTag (lit "account") account) :=
    h.setTag (by decide) account
  unfold Irc.stampAccount
  dsimp only
  repeat' split
  all_goals first
    | exact h
    | exact hset _

theorem says_prepare (h : Legible msg) : Says env p (prepare t msg) Legible :=
  says_server.seq fun srv => .ite (fun _ => .pure h) fun _ =>
    (says_stampTime h _).bind fun _ hout => .pure ((hout.stampAccount srv _).dropTags _)

theorem says_send (h : Legible msg) : Says env p (send t msg) :=
  says_server.seq fun _ => .ite (fun _ => .pure trivial) fun _ =>
    (says_prepare h).bind fun _ hout => (says_render hout).bind fun _ hline =>
      says_updateOutput (Output.gains_deliver hline)

theorem says_sendImmediate (h : Legible msg) : Says env p (sendImmediate t msg) := by
  unfold sendImmediate
  refine .seq (says_updateOutput fun _ => .of_eq rfl rfl rfl) fun _ => ?_
  refine (says_send h).seq fun _ => ?_
  exact says_updateOutput fun _ => .of_eq rfl rfl rfl

theorem says_sendServer {verb : Verb} (h : Readable params) :
    Says env p (sendServer t verb params) :=
  Says.config fun henv => says_send (henv.legible_server (known_verb verb) h)

theorem says_sendNumeric (ht : Middle (srv.session t).target) {what : Bytes}
    (h : Readable (what :: params)) : Says env (.at srv) (sendNumeric t n (what :: params)) :=
  Says.config fun henv => Says.server (says_send (henv.legible_server (known_numeric n) (.cons ht h)))

theorem says_text (ht : Middle (srv.session t).target) {text : Bytes} (h : Ended text) :
    Says env (.at srv) (sendNumeric t n [text]) :=
  says_sendNumeric ht (.single h)

theorem says_refusal (ht : Middle (srv.session t).target) {what text : Bytes} (h : Middle what)
    (htext : Ended text) : Says env (.at srv) (sendNumeric t n [what, text]) :=
  says_sendNumeric ht (.cons h (.single htext))

theorem says_broadcast {exclude : Option SessionId} (h : Legible msg) :
    Says env p (broadcast ch msg exclude) :=
  says_reads.seq fun _ => .forM fun _ _ => .when fun _ => says_send h

/-! ## Lists over several lines -/

variable (ht : Middle (srv.session t).target)
include ht

theorem says_sendMonitorList (h : ∀ v ∈ values, Ended v) :
    Says env (.at srv) (sendMonitorList t n values) :=
  .forM fun _ hline => says_text ht (.join (by decide) fun v hv => h v (mem_chunks hline hv))

variable {subCmd : Bytes} (hsub : Middle subCmd)
include hsub

theorem says_sendCAP {value : Bytes} (h : Ended value) :
    Says env (.at srv) (sendCAP t subCmd value) :=
  Says.server (says_sendServer (.cons ht (.cons hsub (.single h))))

theorem says_sendCAPLines {lines : List (List Bytes)} (h : ∀ line ∈ lines, ∀ v ∈ line, Ended v) :
    Says env (.at srv) (sendCAPLines t subCmd lines) := by
  induction lines with
  | nil => exact .pure trivial
  | cons line lines ih =>
    have hline : Ended (join line (lit " ")) := .join (by decide) (h line (by simp))
    cases lines with
    | nil => exact says_sendCAP ht hsub hline
    | cons next lines =>
      refine Says.server ((says_sendServer ?_).seq fun _ => ih (forall_mem_cons.1 h).2)
      exact .cons ht (.cons hsub (.cons (by decide) (.single hline)))

theorem says_sendCAPList {caps : List Bytes} (h : ∀ cap ∈ caps, Ended cap) :
    Says env (.at srv) (sendCAPList t subCmd caps) :=
  .ite (fun _ => says_sendCAP ht hsub (by decide)) fun _ =>
    says_sendCAPLines ht hsub fun _ hline v hv => h v (mem_chunks hline hv)

end

end Irc
