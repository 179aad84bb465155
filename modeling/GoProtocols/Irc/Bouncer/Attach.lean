import GoProtocols.Irc.Bouncer.Downstream
import GoProtocols.Lib.Pending

/-!
# Who is attached to a network

A client is attached to a network, or has a message forwarded, only if it has sent all that it takes
(`Credited`): the credentials of a configured user with its last `PASS`, a nick, a user name, and
the end of every negotiation of capabilities. It is attached once, and detached at the end
(`attached_credited`). A client that has sent no `PASS` counts as one with an empty name and an empty
password, and a configured user may have these (`attached_without_pass`). Its password is read back
if no colon comes after a slash in it (`parseBouncerPass_iff`).

`Moves` lists all that an event can do; what is kept for each session (`Held`) is shown by its
cases.
-/

namespace Irc

open Go System List Option

section
variable [UnicodeTables] (s : Nat) (acts : List DownstreamAction) (cfg : BouncerConfig)
  (es : List DownstreamEvent) (log : List Message)

/-! ## What a session has sent -/

/-- The message of an event, if it is one of session `s`. -/
def spoken : DownstreamEvent → Option Message
  | .line t raw _ => if t = s then lineMessage raw else none
  | .connect | .close _ => none

/-- The messages of session `s`. -/
def inbound : List Message := es.filterMap (spoken s)

theorem inbound_concat (e : DownstreamEvent) :
    inbound s (es ++ [e]) = inbound s es ++ (spoken s e).toList := by
  unfold inbound
  rw [filterMap_append]
  cases h : spoken s e with
  | none | some msg => simp [h]

/-- The parameter of a `PASS`, if it has one. -/
def passParam (m : Message) : Option Bytes :=
  if m.command = Verb.PASS.name then m.params.head? else none

/-- The name, the network and the password of the last `PASS` with a parameter; all empty if there
is none. -/
def credentials : Bytes × Bytes × Bytes :=
  (log.filterMap passParam).getLast?.elim ([], [], []) parseBouncerPass

/-- `CAP` with this subcommand. -/
def Message.HasCap (m : Message) (sub : Bytes) : Prop :=
  m.command = Verb.CAP.name ∧ ∃ p ∈ m.params.head?, toUpper p = sub

/-- A negotiation is open: a `CAP LS` or `CAP REQ` without a `CAP END` after it. -/
def CapOpen : Prop :=
  Pending (fun m => m.HasCap (lit "LS") ∨ m.HasCap (lit "REQ")) (·.HasCap (lit "END")) log

/-- All that it takes to be attached. -/
structure Credited (cfg : BouncerConfig) (log : List Message) : Prop where
  password : ∃ u, cfg.users.find? (fun u => equalFold u.name (credentials log).1) = some u ∧
    u.password = (credentials log).2.2
  nick : ∃ m ∈ log, m.command = Verb.NICK.name ∧ ∃ nick ∈ m.params.head?, nick ≠ []
  user : ∃ m ∈ log, m.command = Verb.USER.name ∧ 4 ≤ m.params.length ∧ m.param 0 ≠ []
  settled : ¬ CapOpen log

/-! ## Registration -/

/-- What a session knows in its registration is what it was sent. -/
structure Gathered (log : List Message) (ds : DownstreamSession) : Prop where
  pass : (ds.passUser, ds.passNetwork, ds.passPass) = credentials log
  nick : ds.nick ≠ [] → ∃ m ∈ log, m.command = Verb.NICK.name ∧ ∃ nick ∈ m.params.head?, nick ≠ []
  user : ds.user ≠ [] →
    ∃ m ∈ log, m.command = Verb.USER.name ∧ 4 ≤ m.params.length ∧ m.param 0 ≠ []
  cap : ds.capDone = true → ¬ CapOpen log

theorem gathered_nil (phase : DownstreamPhase) : Gathered [] { phase } where
  pass := rfl
  nick h := absurd rfl h
  user h := absurd rfl h
  cap _ := not_pending_nil

variable {log : List Message} {ds : DownstreamSession} {msg : Message}

omit [UnicodeTables] in
theorem credentials_concat (log : List Message) (msg : Message) :
    credentials (log ++ [msg]) = (passParam msg).elim (credentials log) parseBouncerPass := by
  unfold credentials
  rw [filterMap_append]
  cases h : passParam msg with
  | none | some pass => simp [h]

theorem DownstreamSession.handleCAP_eq (ds : DownstreamSession) (msg : Message) :
    ∃ caps capVersion capDone, ds.handleCAP msg = { ds with caps, capVersion, capDone } := by
  unfold handleCAP
  dsimp only
  repeat' split
  all_goals exact ⟨_, _, _, rfl⟩

theorem DownstreamSession.capDone_handleCAP (hv : msg.command = Verb.CAP.name)
    (h : (ds.handleCAP msg).capDone = true) :
    ¬ (msg.HasCap (lit "LS") ∨ msg.HasCap (lit "REQ")) ∧
      (msg.HasCap (lit "END") ∨ ds.capDone = true) := by
  unfold handleCAP at h
  cases hp : msg.params with
  | nil =>
    rw [if_pos hp] at h
    simp [Message.HasCap, hp, h]
  | cons sub params =>
    have hsub : msg.param 0 = sub := by simp [Message.param, hp]
    have hcap (name : Bytes) : msg.HasCap name ↔ toUpper sub = name := by
      simp [Message.HasCap, hp, hv]
    rw [if_neg (by simp [hp])] at h
    simp only [hsub] at h
    rw [hcap, hcap, hcap]
    split at h
    · split at h <;> cases h
    · rename_i hls
      split at h
      · split at h <;> cases h
      · rename_i hreq
        split at h
        · rename_i hend
          exact ⟨not_or.2 ⟨hls, hreq⟩, .inl hend⟩
        · exact ⟨not_or.2 ⟨hls, hreq⟩, .inr h⟩

theorem DownstreamSession.gather_eq (ds : DownstreamSession) (msg : Message) :
    (ds.gather msg).phase = ds.phase ∧ (ds.gather msg).network = ds.network := by
  unfold gather
  obtain ⟨caps, capVersion, capDone, hcap⟩ := ds.handleCAP_eq msg
  rw [hcap]
  cases msg.params.head? <;> split_ifs <;> exact ⟨rfl, rfl⟩

theorem capOpen_concat_of_ne (hv : msg.command ≠ Verb.CAP.name) :
    CapOpen (log ++ [msg]) ↔ CapOpen log := by
  have hno (sub : Bytes) : ¬ msg.HasCap sub := fun h => hv h.1
  unfold CapOpen
  rw [pending_concat]
  simp [hno]

theorem Gathered.nick_concat (h : Gathered log ds) (hn : ds.nick ≠ []) :
    ∃ m ∈ log ++ [msg], m.command = Verb.NICK.name ∧ ∃ nick ∈ m.params.head?, nick ≠ [] := by
  obtain ⟨m, hm, hnick⟩ := h.nick hn
  exact ⟨m, mem_append_left _ hm, hnick⟩

theorem Gathered.user_concat (h : Gathered log ds) (hu : ds.user ≠ []) :
    ∃ m ∈ log ++ [msg], m.command = Verb.USER.name ∧ 4 ≤ m.params.length ∧ m.param 0 ≠ [] := by
  obtain ⟨m, hm, huser⟩ := h.user hu
  exact ⟨m, mem_append_left _ hm, huser⟩

theorem Gathered.cap_concat (h : Gathered log ds) (hv : msg.command ≠ Verb.CAP.name)
    (hc : ds.capDone = true) : ¬ CapOpen (log ++ [msg]) := by
  rw [capOpen_concat_of_ne hv]
  exact h.cap hc

theorem Gathered.skip (h : Gathered log ds) (hpass : passParam msg = none)
    (hv : msg.command ≠ Verb.CAP.name) : Gathered (log ++ [msg]) ds where
  pass := by
    rw [credentials_concat, hpass]
    exact h.pass
  nick := h.nick_concat
  user := h.user_concat
  cap := h.cap_concat hv

theorem Gathered.handleCAP (h : Gathered log ds) (hv : msg.command = Verb.CAP.name)
    (hpass : passParam msg = none) : Gathered (log ++ [msg]) (ds.handleCAP msg) := by
  obtain ⟨caps, capVersion, capDone, hcap⟩ := ds.handleCAP_eq msg
  have hdone (hd : (ds.handleCAP msg).capDone = true) : ¬ CapOpen (log ++ [msg]) := by
    obtain ⟨hopens, hcloses⟩ := ds.capDone_handleCAP hv hd
    unfold CapOpen
    rw [pending_concat]
    rintro (ho | ⟨hopen, hend⟩)
    · exact hopens ho
    · exact h.cap (hcloses.resolve_left hend) hopen
  rw [hcap] at hdone ⊢
  refine ⟨?_, h.nick_concat, h.user_concat, hdone⟩
  rw [credentials_concat, hpass]
  exact h.pass

theorem Gathered.step (h : Gathered log ds) (msg : Message) :
    Gathered (log ++ [msg]) (ds.gather msg) := by
  unfold DownstreamSession.gather
  split
  · rename_i hv
    have hne : Verb.CAP.name ≠ Verb.PASS.name := by decide
    exact h.handleCAP hv (by simp [passParam, hv, hne])
  · rename_i hcap
    split
    · rename_i hv
      cases hp : msg.params.head? with
      | none => exact h.skip (by simp [passParam, hp]) hcap
      | some pass =>
        refine ⟨?_, h.nick_concat, h.user_concat, h.cap_concat hcap⟩
        rw [credentials_concat, passParam, if_pos hv, hp]
        rfl
    · rename_i hpass
      have hskip : Gathered (log ++ [msg]) ds := h.skip (by simp [passParam, hpass]) hcap
      split
      · rename_i hv
        cases hp : msg.params.head? with
        | none => exact hskip
        | some nick =>
          refine ⟨hskip.pass, fun hn => ⟨msg, by simp, hv, nick, hp, hn⟩, hskip.user, hskip.cap⟩
      · split
        · rename_i hv
          split
          · rename_i hlen
            exact ⟨hskip.pass, hskip.nick, fun hu => ⟨msg, by simp, hv, hlen, hu⟩, hskip.cap⟩
          · exact hskip
        · exact hskip

theorem Gathered.credited {cfg : BouncerConfig} (h : Gathered log ds) (hn : ds.nick ≠ [])
    (hu : ds.user ≠ []) (hc : ds.capDone = true)
    (hauth : cfg.authenticate ds.passUser ds.passPass = true) : Credited cfg log where
  password := by
    rw [← h.pass]
    unfold BouncerConfig.authenticate at hauth
    cases hfind : cfg.users.find? fun u => equalFold u.name ds.passUser with
    | none => simp [hfind] at hauth
    | some u => exact ⟨u, rfl, by simpa [hfind] using hauth⟩
  nick := h.nick hn
  user := h.user hu
  settled := h.cap hc

/-! ## What an event can do -/

namespace Downstreams

variable {cfg : BouncerConfig} {st st' : Downstreams} {e : DownstreamEvent}
  {acts : List DownstreamAction} {raw : Bytes}

/-- **All that an event can do.** -/
inductive Moves (cfg : BouncerConfig) (st : Downstreams) :
    DownstreamEvent → Downstreams → List DownstreamAction → Prop
  | connect : Moves cfg st .connect
      { st.set st.allocated { phase := .registering } with allocated := st.allocated + 1 } []
  | ignore {s : Nat} {raw : Bytes} {first : Nat} : lineMessage raw = none →
      Moves cfg st (.line s raw first) st []
  | gather {s : Nat} {raw : Bytes} {first : Nat} {msg : Message} :
      (st.session s).phase = .registering → lineMessage raw = some msg →
      Moves cfg st (.line s raw first) (st.set s ((st.session s).gather msg)) []
  | refuse {s : Nat} {raw : Bytes} {first : Nat} {ds : DownstreamSession} :
      (st.session s).phase = .registering → ds.phase = .ended →
      Moves cfg st (.line s raw first) (st.set s ds) []
  | attach {s : Nat} {raw : Bytes} {first : Nat} {msg : Message} {ds : DownstreamSession} {i : Nat} :
      (st.session s).phase = .registering → lineMessage raw = some msg →
      ds = (st.session s).gather msg → ds.nick ≠ [] → ds.user ≠ [] → ds.capDone = true →
      cfg.authenticate ds.passUser ds.passPass = true →
      Moves cfg st (.line s raw first)
        ((st.set s { ds with phase := .proxying, network := some i }).attach i s) [.attach i s]
  | proxy {s : Nat} {raw : Bytes} {first : Nat} {ds : DownstreamSession} :
      (st.session s).phase = .proxying → ds.phase = .proxying →
      ds.network = (st.session s).network → Moves cfg st (.line s raw first) (st.set s ds) []
  | forward {s : Nat} {raw : Bytes} {first i : Nat} {msg : Message} :
      (st.session s).phase = .proxying → (st.session s).network = some i →
      Moves cfg st (.line s raw first) st [.forward i s msg]
  | close {s : Nat} : st.Runs s → (st.session s).network = none →
      Moves cfg st (.close s) (st.set s { st.session s with phase := .ended }) []
  | detach {s i : Nat} : st.Runs s → (st.session s).network = some i →
      Moves cfg st (.close s) ((st.set s { st.session s with phase := .ended }).detach i s)
        [.detach i s]

theorem moves_register {s first : Nat} (hs : (st.session s).phase = .registering)
    (hmsg : lineMessage raw = some msg) :
    Moves cfg st (.line s raw first) (st.register cfg s first ((st.session s).gather msg)).1
      (st.register cfg s first ((st.session s).gather msg)).2 := by
  unfold register
  split
  · rename_i hready
    split
    · exact .refuse hs rfl
    · rename_i hauth
      split
      · exact .refuse hs rfl
      · exact .attach hs hmsg rfl hready.1 hready.2.1 hready.2.2 (by simpa using hauth)
  · exact .gather hs hmsg

theorem moves_proxy {s first : Nat} (msg : Message) (hs : (st.session s).phase = .proxying) :
    Moves cfg st (.line s raw first) (st.proxy cfg s msg).1 (st.proxy cfg s msg).2 := by
  have hstay : Moves cfg st (.line s raw first) st [] := by
    have h : Moves cfg st (.line s raw first) (st.set s (st.session s)) [] := .proxy hs hs rfl
    rwa [set_self] at h
  unfold proxy
  dsimp only
  split
  · obtain ⟨caps, capVersion, capDone, hcap⟩ := (st.session s).handleCAP_eq msg
    rw [hcap]
    exact .proxy hs hs rfl
  · split
    · exact hstay
    · cases hnet : (st.session s).network.filter fun i => cfg.connected i with
      | none => exact hstay
      | some i => exact .forward hs (filter_eq_some_iff.1 hnet).1

theorem moves_respond (hen : st.enabled cfg e) :
    Moves cfg st e (st.respond cfg e).1 (st.respond cfg e).2 := by
  cases e with
  | connect => exact .connect
  | line s raw first =>
    cases hmsg : lineMessage raw with
    | none =>
      simp only [respond, hmsg, elim_none]
      exact .ignore hmsg
    | some msg =>
      rcases hen.1 with hs | hs
      · simp only [respond, hmsg, elim_some, hs]
        exact moves_register hs hmsg
      · simp only [respond, hmsg, elim_some, hs]
        exact moves_proxy msg hs
  | close s =>
    cases hnet : (st.session s).network with
    | none =>
      simp only [respond, finish, hnet, elim_none]
      exact hnet ▸ .close hen hnet
    | some i =>
      simp only [respond, finish, hnet, elim_some]
      exact hnet ▸ .detach hen hnet

/-! ## One session -/

variable (st)

def subject : DownstreamEvent → Nat
  | .connect => st.allocated
  | .line s _ _ | .close s => s

/-- How often session `s` is attached to network `i`. -/
def seats (s i : Nat) : Nat := (st.downstreams i).count s

omit [UnicodeTables] in
theorem seats_attach (i s t j : Nat) :
    (st.attach i s).seats t j = st.seats t j + if t = s ∧ j = i then 1 else 0 := by
  unfold seats attach
  by_cases hj : j = i
  · subst hj
    by_cases ht : t = s
    · subst ht
      simp
    · simp [ht, Ne.symm ht]
  · simp [hj]

omit [UnicodeTables] in
theorem seats_detach (i s t j : Nat) :
    (st.detach i s).seats t j = st.seats t j - if t = s ∧ j = i then 1 else 0 := by
  unfold seats detach
  by_cases hj : j = i
  · subst hj
    by_cases ht : t = s
    · subst ht
      simp
    · simp [ht, count_erase_of_ne]
  · simp [hj]

omit [UnicodeTables] in
@[simp] theorem seats_set (s : Nat) (ds : DownstreamSession) (t i : Nat) :
    (st.set s ds).seats t i = st.seats t i := rfl

end Downstreams

def DownstreamAction.session : DownstreamAction → Nat
  | attach _ s | detach _ s | forward _ s _ => s

/-- The actions of session `s`. -/
def own : List DownstreamAction :=
  acts.filter (·.session = s)

/-- How often session `s` is attached by the actions. -/
def attachments : Nat :=
  acts.countP fun
    | .attach _ t => t = s
    | .detach _ _ | .forward _ _ _ => false

omit [UnicodeTables] in
theorem attachments_own : attachments s (own s acts) = attachments s acts := by
  unfold attachments own
  rw [countP_filter]
  refine countP_congr fun a _ => ?_
  cases a with
  | attach i t =>
    have hand : (decide (t = s) && decide (t = s)) = decide (t = s) := Bool.and_self _
    exact iff_of_eq (congrArg (· = true) hand)
  | detach | forward => simp

/-- What holds of session `s` in each phase: of the networks to which it is attached, of what it has
sent, and of the actions it has led to. -/
inductive Held (s : Nat) (ds : DownstreamSession) (seats : Nat → Nat) (log : List Message)
    (acts : List DownstreamAction) : Prop
  | absent (hphase : ds.phase = .absent) (hseats : ∀ i, seats i = 0) (hlog : log = [])
      (hacts : acts = [])
  | registering (hphase : ds.phase = .registering) (hseats : ∀ i, seats i = 0)
      (hnet : ds.network = none) (hlog : Gathered log ds) (hacts : acts = [])
  | proxying {i : Nat} (hphase : ds.phase = .proxying) (hnet : ds.network = some i)
      (hseats : ∀ j, seats j = if j = i then 1 else 0) (hmem : .attach i s ∈ acts)
      (hone : attachments s acts = 1)
  | ended (hphase : ds.phase = .ended) (hseats : ∀ i, seats i = 0) (hle : attachments s acts ≤ 1)

namespace Held

open Downstreams

variable {cfg : BouncerConfig} {es : List DownstreamEvent} {done acts : List DownstreamAction}
  {st st' : Downstreams} {s : Nat} {e : DownstreamEvent} {seats : Nat → Nat}

theorem of_registering (h : Held s ds seats log done) (hs : ds.phase = .registering) :
    ds.network = none ∧ (∀ i, seats i = 0) ∧ done = [] ∧ Gathered log ds := by
  cases h with
  | registering _ hseats hnet hlog hacts => exact ⟨hnet, hseats, hacts, hlog⟩
  | absent hp | proxying hp | ended hp => cases hp.symm.trans hs

theorem of_proxying (h : Held s ds seats log done) (hs : ds.phase = .proxying) :
    ∃ i, ds.network = some i ∧ (∀ j, seats j = if j = i then 1 else 0) ∧ .attach i s ∈ done ∧
      attachments s done = 1 := by
  cases h with
  | proxying _ hnet hseats hmem hone => exact ⟨_, hnet, hseats, hmem, hone⟩
  | absent hp | registering hp | ended hp => cases hp.symm.trans hs

theorem once (h : Held s ds seats log done) : attachments s done ≤ 1 := by
  cases h with
  | absent _ _ _ hacts | registering _ _ _ _ hacts => exact hacts ▸ Nat.zero_le 1
  | proxying _ _ _ _ hone => exact hone.le
  | ended _ _ hle => exact hle

theorem other (hm : Moves cfg st e st' acts) (ht : s ≠ st.subject e) :
    st'.session s = st.session s ∧ st'.seats s = st.seats s ∧ own s acts = [] := by
  have hown (a : DownstreamAction) (ha : a.session = st.subject e) : own s [a] = [] := by
    simp [own, ha, Ne.symm ht]
  cases hm with
  | ignore => exact ⟨rfl, rfl, rfl⟩
  | forward => exact ⟨rfl, rfl, hown _ rfl⟩
  | attach =>
    refine ⟨session_set_ne st _ ht, funext fun j => ?_, hown _ rfl⟩
    rw [seats_attach, if_neg fun h => ht h.1, seats_set, Nat.add_zero]
  | detach =>
    refine ⟨session_set_ne st _ ht, funext fun j => ?_, hown _ rfl⟩
    rw [seats_detach, if_neg fun h => ht h.1, seats_set, Nat.sub_zero]
  | _ => exact ⟨session_set_ne st _ ht, rfl, rfl⟩

theorem step (h : Held s (st.session s) (st.seats s) log done)
    (hfresh : (st.session st.allocated).phase = .absent)
    (hm : Moves cfg st e st' acts) (hs : s = st.subject e) :
    Held s (st'.session s) (st'.seats s) (log ++ (spoken s e).toList) (done ++ own s acts) := by
  have hself (ds : DownstreamSession) : (st.set s ds).session s = ds := st.session_set_self s ds
  cases hm with
  | connect =>
    subst hs
    cases h with
    | absent _ hseats hlog hacts =>
      have hnew := hself { phase := .registering }
      refine .registering (congrArg _ hnew) hseats (congrArg _ hnew) ?_ (by simp [hacts, own])
      rw [hlog]
      exact (congrArg (Gathered []) hnew).mpr (gathered_nil .registering)
    | registering hp | proxying hp | ended hp => cases hp.symm.trans hfresh
  | ignore hmsg =>
    subst hs
    simpa [spoken, hmsg, own] using h
  | @gather _ _ _ msg hp hmsg =>
    obtain rfl := hs
    obtain ⟨hnet, hseats, rfl, hlog⟩ := h.of_registering hp
    obtain ⟨hphase, hnetwork⟩ := (st.session s).gather_eq msg
    refine .registering (by rw [hself, hphase, hp]) hseats (by rw [hself, hnetwork, hnet]) ?_ rfl
    rw [hself]
    simpa [spoken, hmsg] using hlog.step msg
  | refuse hp hds =>
    obtain rfl := hs
    obtain ⟨hnet, hseats, rfl, hlog⟩ := h.of_registering hp
    exact .ended (by rw [hself, hds]) hseats (Nat.zero_le 1)
  | @attach _ _ _ _ _ i hp =>
    obtain rfl := hs
    obtain ⟨hnet, hseats, rfl, hlog⟩ := h.of_registering hp
    have hown : own s [.attach i s] = [.attach i s] := by simp [own, DownstreamAction.session]
    refine .proxying (congrArg _ (hself _)) (congrArg _ (hself _)) (fun j => ?_)
      (by simp [hown]) (by simp [hown, attachments])
    rw [seats_attach, seats_set, hseats]
    simp
  | proxy hp hds hnet =>
    obtain rfl := hs
    obtain ⟨i, hi, hseats, hmem, hone⟩ := h.of_proxying hp
    refine .proxying (by rw [hself, hds]) (by rw [hself, hnet, hi]) hseats ?_ ?_
    · exact mem_append_left _ hmem
    · simpa [own] using hone
  | forward hp hnet =>
    obtain rfl := hs
    obtain ⟨i, hi, hseats, hmem, hone⟩ := h.of_proxying hp
    refine .proxying hp hi hseats (mem_append_left _ hmem) ?_
    simpa [own, DownstreamAction.session, attachments] using hone
  | close hrun hnet =>
    obtain rfl := hs
    rcases hrun with hp | hp
    · obtain ⟨-, hseats, rfl, -⟩ := h.of_registering hp
      exact .ended (congrArg _ (hself _)) hseats (Nat.zero_le 1)
    · -- a session that is attached has a network
      obtain ⟨i, hi, -⟩ := h.of_proxying hp
      cases hnet.symm.trans hi
  | detach hrun hnet =>
    obtain rfl := hs
    rcases hrun with hp | hp
    · cases hnet.symm.trans (h.of_registering hp).1
    · obtain ⟨i, hi, hseats, -, hone⟩ := h.of_proxying hp
      cases hnet.symm.trans hi
      refine .ended (congrArg _ (hself _)) (fun j => ?_) (Nat.le_of_eq ?_)
      · rw [seats_detach, seats_set, hseats]
        simp
      · simpa [own, DownstreamAction.session, attachments] using hone

theorem fresh (hm : Moves cfg st e st' acts)
    (h : ∀ t, st.allocated ≤ t → (st.session t).phase = .absent) {t : Nat}
    (ht : st'.allocated ≤ t) : (st'.session t).phase = .absent := by
  have hle : st.allocated ≤ st'.allocated := by
    cases hm with
    | connect => exact Nat.le_succ _
    | _ => exact le_rfl
  have habsent := h t (hle.trans ht)
  by_cases hs : t = st.subject e
  · subst hs
    cases hm with
    | connect => exact absurd ht (Nat.not_succ_le_self _)
    | ignore | forward => exact habsent
    | gather hp | refuse hp | attach hp | proxy hp => cases hp.symm.trans habsent
    | close hrun | detach hrun => rcases hrun with hp | hp <;> cases hp.symm.trans habsent
  · rw [(other hm hs).1, habsent]

theorem credited {i : Nat} (h : Held s (st.session s) (st.seats s) log done)
    (hm : Moves cfg st e st' acts) (ha : .attach i s ∈ acts) :
    Credited cfg (log ++ (spoken s e).toList) := by
  cases hm with
  | attach hp hmsg hds hn hu hc hauth =>
    obtain ⟨rfl, rfl⟩ := DownstreamAction.attach.inj (mem_singleton.1 ha)
    subst hds
    refine Gathered.credited ?_ hn hu hc hauth
    simpa [spoken, hmsg] using (h.of_registering hp).2.2.2.step _
  | forward | detach => cases mem_singleton.1 ha
  | _ => cases ha

theorem forwarded {i : Nat} (h : Held s (st.session s) (st.seats s) log done)
    (hm : Moves cfg st e st' acts) (ha : .forward i s msg ∈ acts) :
    .attach i s ∈ done ∧ s ∈ st.downstreams i := by
  cases hm with
  | forward hp hnet =>
    obtain ⟨rfl, rfl, rfl⟩ := DownstreamAction.forward.inj (mem_singleton.1 ha)
    obtain ⟨j, hj, hseats, hattach, -⟩ := h.of_proxying hp
    cases hnet.symm.trans hj
    have hone : (st.downstreams i).count s = 1 := (hseats i).trans (if_pos rfl)
    exact ⟨hattach, count_pos_iff.1 (by omega)⟩
  | attach | detach => cases mem_singleton.1 ha
  | _ => cases ha

theorem seated {i : Nat} (h : Held s ds seats log done) (hi : 0 < seats i) :
    ds.phase = .proxying ∧ .attach i s ∈ done ∧ seats i = 1 := by
  cases h with
  | @proxying j hp _ hseats hmem =>
    have hij : i = j := by
      by_contra hne
      rw [hseats, if_neg hne] at hi
      exact absurd hi (lt_irrefl 0)
    subst hij
    exact ⟨hp, hmem, (hseats i).trans (if_pos rfl)⟩
  | absent _ hseats | registering _ hseats | ended _ hseats =>
    rw [hseats] at hi
    exact absurd hi (lt_irrefl 0)

end Held

/-! ## Runs -/

def actions : List DownstreamAction :=
  (downstreams cfg).collect (fun st e => (st.respond cfg e).2) es

variable {cfg} {es}

theorem held_after (hv : (downstreams cfg).Valid es) (s : Nat) :
    Held s (((downstreams cfg).after es).session s) (((downstreams cfg).after es).seats s)
      (inbound s es) (own s (actions cfg es)) := by
  refine ((downstreams cfg).invariant (I := fun es st =>
    (∀ t, st.allocated ≤ t → (st.session t).phase = .absent) ∧
      Held s (st.session s) (st.seats s) (inbound s es) (own s (actions cfg es)))
    (G := fun _ _ _ => True) ?_ ?_ hv fun _ _ _ => trivial).2
  · exact ⟨fun _ _ => rfl, .absent rfl (fun _ => rfl) rfl rfl⟩
  · rintro es e ⟨hfresh, h⟩ hen -
    have hm := Downstreams.moves_respond hen
    have hacts : own s (actions cfg (es ++ [e])) =
        own s (actions cfg es) ++ own s (((downstreams cfg).after es).respond cfg e).2 := by
      rw [actions, (downstreams cfg).collect_concat]
      exact filter_append ..
    refine ⟨fun t => Held.fresh hm hfresh, ?_⟩
    rw [hacts, inbound_concat]
    by_cases hs : s = ((downstreams cfg).after es).subject e
    · exact h.step (hfresh _ le_rfl) hm hs
    · obtain ⟨hsession, hseats, hown⟩ := Held.other hm hs
      have hspoken : spoken s e = none := by
        cases e with
        | connect | close => rfl
        | line t raw first => exact if_neg (Ne.symm hs)
      rw [hown, hspoken, append_nil]
      have hlog : inbound s es ++ (none : Option Message).toList = inbound s es := append_nil _
      rw [hlog]
      exact (congrArg₂ (Held s · · _ _) hsession hseats).mpr h

/-- **Only clients with credentials are attached.** Who is attached by an event has sent all that it
takes by then, and messages are forwarded of attached sessions only. A session is attached at most
once, to one network, and to none after its end. -/
theorem attached_credited (cfg : BouncerConfig) {es : List DownstreamEvent}
    (hv : (downstreams cfg).Valid es) (s : Nat) :
    (downstreams cfg).Each (fun es' st e =>
      (∀ i, .attach i s ∈ (st.respond cfg e).2 → Credited cfg (inbound s (es' ++ [e]))) ∧
      (∀ i msg, .forward i s msg ∈ (st.respond cfg e).2 →
        .attach i s ∈ actions cfg es' ∧ s ∈ st.downstreams i)) es ∧
    attachments s (actions cfg es) ≤ 1 ∧
    (∀ i, s ∈ ((downstreams cfg).after es).downstreams i →
      .attach i s ∈ actions cfg es ∧ (((downstreams cfg).after es).downstreams i).count s = 1) ∧
    ((((downstreams cfg).after es).session s).phase = .ended →
      ∀ i, s ∉ ((downstreams cfg).after es).downstreams i) := by
  have hheld := held_after hv s
  have hmem {i : Nat} {es' : List DownstreamEvent} (h : .attach i s ∈ own s (actions cfg es')) :
      .attach i s ∈ actions cfg es' := (mem_filter.1 h).1
  refine ⟨fun es' e hpre => ?_, attachments_own s _ ▸ hheld.once, fun i hi => ?_,
    fun hend i hi => ?_⟩
  · have hv' : (downstreams cfg).Valid (es' ++ [e]) := fun es'' e' h => hv es'' e' (h.trans hpre)
    obtain ⟨hv', hen⟩ := (downstreams cfg).each_concat.1 hv'
    have hm := Downstreams.moves_respond hen
    refine ⟨fun i hi => ?_, fun i msg hi => ?_⟩
    · exact inbound_concat s es' e ▸ (held_after hv' s).credited hm hi
    obtain ⟨hattach, hs⟩ := (held_after hv' s).forwarded hm hi
    exact ⟨hmem hattach, hs⟩
  · obtain ⟨-, hattach, hone⟩ := hheld.seated (count_pos_iff.2 hi)
    exact ⟨hmem hattach, hone⟩
  · cases hend.symm.trans (hheld.seated (count_pos_iff.2 hi)).1

end

section
attribute [local instance] asciiTables

/-- A bouncer with a user. -/
def oneUser : BouncerConfig where
  users := [⟨lit "alice", lit "secret"⟩]
  networks := [⟨lit "net", true⟩]
  historyLimit := 100
  historyLimit_le := hundred_le_maxInt

/-- A client registers, sends a message and is gone. -/
def attachesAndLeaves : List DownstreamEvent :=
  [.connect, .line 0 (lit "CAP LS 302") 0, .line 0 (lit "PASS Alice/net:secret") 0,
    .line 0 (lit "NICK alice") 0, .line 0 (lit "USER alice 0 * :Alice") 0,
    .line 0 (lit "CAP END") 0, .line 0 (lit "PRIVMSG #a :hi") 0, .close 0]

theorem attached_credited_leaves :
    attachments 0 (actions oneUser attachesAndLeaves) = 1 ∧
      ∀ i, 0 ∉ ((downstreams oneUser).after attachesAndLeaves).downstreams i := by
  refine ⟨by decide +kernel, ?_⟩
  exact (attached_credited oneUser (by decide +kernel) 0).2.2.2 (by decide +kernel)

/-- A bouncer with a user that has no name and no password. -/
def namelessUser : BouncerConfig where
  users := [⟨[], []⟩]
  networks := [⟨lit "net", true⟩]
  historyLimit := 100
  historyLimit_le := hundred_le_maxInt

/-- A client registers without a `PASS`. -/
def withoutPass : List DownstreamEvent :=
  [.connect, .line 0 (lit "NICK alice") 0, .line 0 (lit "USER alice 0 * :Alice") 0]

/-- It is attached, though it has sent no `PASS`. -/
theorem attached_without_pass :
    (downstreams namelessUser).Valid withoutPass ∧
      0 ∈ ((downstreams namelessUser).after withoutPass).downstreams 0 ∧
      ∀ m ∈ inbound 0 withoutPass, m.command ≠ Verb.PASS.name := by
  decide +kernel

end

/-! ## Reading a password -/

def Unsplit (password : Bytes) : Prop := ∀ q ∈ cut password 47, 58 ∉ q.2

/-- **A `PASS` is read back exactly for a password without a colon after a slash.** Otherwise its
slash is taken for the one before a network. -/
theorem parseBouncerPass_iff {user network : Bytes} (hu : 47 ∉ user ∧ 58 ∉ user)
    (hn : 58 ∉ network) (password : Bytes) :
    parseBouncerPass (user ++ lit "/" ++ network ++ lit ":" ++ password) =
        (user, network, password) ∧
      parseBouncerPass (user ++ lit ":" ++ password) = (user, [], password) ↔
    Unsplit password := by
  have hslash : lit "/" = [47] := by decide
  have hcolon : lit ":" = [58] := by decide
  have hwith : parseBouncerPass (user ++ lit "/" ++ network ++ lit ":" ++ password) =
      (user, network, password) := by
    simp [parseBouncerPass, hslash, hcolon, cut_append hu.1, cut_append hn]
  rw [and_iff_right hwith, hcolon, append_assoc, singleton_append]
  unfold parseBouncerPass Unsplit
  rw [cut_append hu.2]
  cases hcut : cut password 47 with
  | none =>
    have hnone : cut (user ++ 58 :: password) 47 = none :=
      cut_eq_none.2 (by simp [hu.1, cut_eq_none.1 hcut])
    simp [hnone]
  | some q =>
    obtain ⟨a, rest⟩ := q
    obtain ⟨ha, rfl⟩ := cut_eq_some.1 hcut
    have hsome : cut (user ++ 58 :: (a ++ 47 :: rest)) 47 = some (user ++ 58 :: a, rest) :=
      cut_eq_some.2 ⟨by simp [hu.1, ha], by simp⟩
    cases hrest : cut rest 58 with
    | none => simp [hsome, hrest, cut_eq_none.1 hrest]
    | some r =>
      have hmem : 58 ∈ rest := by rw [(cut_eq_some.1 hrest).2]; simp
      simp [hsome, hrest, hmem]

theorem parseBouncerPass_iff_slash :
    parseBouncerPass (lit "al/net:p/w") = (lit "al", lit "net", lit "p/w") ∧
      parseBouncerPass (lit "al:p/w") = (lit "al", [], lit "p/w") := by
  refine (@parseBouncerPass_iff (lit "al") (lit "net") (by decide) (by decide) (lit "p/w")).2 ?_
  intro q hq
  cases hq
  decide

theorem parseBouncerPass_misread :
    parseBouncerPass (lit "al" ++ lit ":" ++ lit "p/w:d") = (lit "al:p", lit "w", lit "d") := by
  decide

end Irc
