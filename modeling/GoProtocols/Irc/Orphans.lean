import GoProtocols.Irc.Proof.Reach
import GoProtocols.Irc.Server.Interleaved

/-!
# Orphaned channels

A handler looks up a channel, checks it, adds a member, sees that it is empty and unregisters it
under different locks. So a channel may be unregistered when a member is added to it, and may have
got a member when it is unregistered: it has strayed (`ChannelHeap.strayed`), and its members are in
a channel that nobody finds any more (`not_placed_joinedBehind`).

There is no other way: every member of a channel is in the channel that the registry returns, and
there is one channel of a name with members, at every moment of exactly the runs in which no
operation lets a channel stray (`placed_iff_no_strays`). A channel that has strayed may lose its
members again before all handlers are through.
-/

namespace Irc

open Go System List

variable {f : Channel → Channel}

section
variable [UnicodeTables] (env : Env) (users : SessionId → Session)
  (es : List (Pool.Event SessionId ChannelCommand))

namespace ChannelHeap

/-! ## Definitions -/

variable (h : ChannelHeap) (o : Address)

def key : Option Bytes :=
  h.objects[o]?.map fun ch => toLower ch.name

def registered : Option Address :=
  (h.key o).bind fun k => h.registry.lookup k

/-- Session `s` is in the members map of a channel. -/
def Has (s : SessionId) : Prop :=
  ∃ ch ∈ h.objects[o]?, ∃ e ∈ ch.members.entries, e.2.session = s

def Live : Prop :=
  ∃ ch ∈ h.objects[o]?, ch.members.entries ≠ []

/-- **No channel is orphaned.** -/
structure Placed (h : ChannelHeap) : Prop where
  returned : ∀ o s, h.Has o s → ∃ r, h.registered o = some r ∧ h.Has r s
  unique : ∀ o o', h.Live o → h.Live o' → h.key o = h.key o' → o = o'

instance : Decidable (h.Live o) :=
  inferInstanceAs (Decidable (∃ ch ∈ h.objects[o]?, ch.members.entries ≠ []))

/-- The channels that an operation lets stray: a member is added though the registry does not return
the channel, or the registry loses a channel that has members. -/
def strayed (h : ChannelHeap) : ChannelOp → List Address
  | .addMember o _ _ _ => if o < h.objects.length ∧ h.registered o ≠ some o then [o] else []
  | .remove name => (h.registry.lookup (toLower name)).toList.filter fun o => h.Live o
  | _ => []

/-- What is kept: the channels that have strayed are known, and no others with members are out of
the registry. -/
structure Accounted (log : List Address) (h : ChannelHeap) : Prop where
  named : ∀ k o, h.registry.lookup k = some o → h.key o = some k
  live : ∀ o, h.Live o → h.registered o = some o ∨ o ∈ log
  lost : ∀ o ∈ log, o < h.objects.length ∧ h.registered o ≠ some o

variable {h : ChannelHeap} {log : List Address} {o : Address}

omit [UnicodeTables] in
theorem Has.live {s : SessionId} (hs : h.Has o s) : h.Live o := by
  obtain ⟨ch, hch, e, he, -⟩ := hs
  exact ⟨ch, hch, ne_nil_of_mem he⟩

omit [UnicodeTables] in
theorem Live.has (hlive : h.Live o) : ∃ s, h.Has o s := by
  obtain ⟨ch, hch, hne⟩ := hlive
  obtain ⟨e, he⟩ := exists_mem_of_ne_nil _ hne
  exact ⟨e.2.session, ch, hch, e, he, rfl⟩

/-- **No channel is orphaned exactly if those that have strayed are empty.** -/
theorem Accounted.placed_iff (hacc : Accounted log h) : h.Placed ↔ ∀ o ∈ log, ¬ h.Live o := by
  constructor
  · intro hp o ho hlive
    obtain ⟨s, hs⟩ := hlive.has
    obtain ⟨r, hr, hrs⟩ := hp.returned o s hs
    obtain ⟨k, hk, hlookup⟩ := Option.bind_eq_some_iff.1 hr
    have hkey : h.key o = h.key r := hk.trans (hacc.named k r hlookup).symm
    have hor := hp.unique o r hlive hrs.live hkey
    exact (hacc.lost o ho).2 (hor ▸ hr)
  · intro hempty
    have hreg (o : Address) (hlive : h.Live o) : h.registered o = some o :=
      (hacc.live o hlive).resolve_right fun ho => hempty o ho hlive
    refine ⟨fun o s hs => ⟨o, hreg o hs.live, hs⟩, fun o o' ho ho' hkey => ?_⟩
    have heq : h.registered o = h.registered o' := by
      unfold registered
      rw [hkey]
    rw [hreg o ho, hreg o' ho'] at heq
    exact Option.some.inj heq

theorem Accounted.placed_iff_nil (hacc : Accounted log h) : h.Placed ↔ Accounted [] h := by
  refine ⟨fun hp => ⟨hacc.named, fun o hlive => .inl ?_, nofun⟩, fun hnil => hnil.placed_iff.2 nofun⟩
  exact (hacc.live o hlive).resolve_right fun ho => hacc.placed_iff.1 hp o ho hlive

/-! ## Operations -/

theorem key_update (hf : ∀ ch, (f ch).name = ch.name) (o' : Address) :
    (h.update o f).key o' = h.key o' := by
  unfold key
  rw [getElem?_update]
  split
  · rename_i heq
    rw [heq, Option.map_map]
    congr 1
    funext ch
    exact congrArg toLower (hf ch)
  · rfl

theorem registered_update (hf : ∀ ch, (f ch).name = ch.name)
    (o' : Address) : (h.update o f).registered o' = h.registered o' := by
  unfold registered
  rw [key_update hf]
  rfl

theorem Accounted.update (hacc : Accounted log h)
    (hf : ∀ ch, (f ch).name = ch.name) {new : List Address}
    (hlive : (h.update o f).Live o → h.Live o ∨ h.registered o = some o ∨ o ∈ new)
    (hnew : ∀ o' ∈ new, o' < h.objects.length ∧ h.registered o' ≠ some o') :
    Accounted (log ++ new) (h.update o f) where
  named k o' hk := by
    rw [key_update hf]
    exact hacc.named k o' hk
  live o' ho' := by
    rw [registered_update hf, mem_append, ← or_assoc]
    by_cases heq : o' = o
    · subst heq
      rcases hlive ho' with hold | hreg | hmem
      · exact .inl (hacc.live o' hold)
      · exact .inl (.inl hreg)
      · exact .inr hmem
    · refine .inl (hacc.live o' ?_)
      unfold Live at ho' ⊢
      rwa [getElem?_update, if_neg heq] at ho'
  lost o' ho' := by
    rw [registered_update hf]
    have hlen : (h.update o f).objects.length = h.objects.length := length_modify _ _ _
    rw [hlen]
    rcases mem_append.1 ho' with ho' | ho'
    · exact hacc.lost o' ho'
    · exact hnew o' ho'

theorem Accounted.update_keep (hacc : Accounted log h)
    (hf : ∀ ch, (f ch).name = ch.name)
    (hempty : ∀ ch, ch.members.entries = [] → (f ch).members.entries = []) :
    Accounted (log ++ []) (h.update o f) := by
  refine hacc.update hf (fun hlive => .inl ?_) nofun
  obtain ⟨ch, hch, hne⟩ := hlive
  rw [getElem?_update, if_pos rfl] at hch
  obtain ⟨old, hold, rfl⟩ := Option.map_eq_some_iff.1 hch
  exact ⟨old, hold, fun hnil => hne (hempty old hnil)⟩

theorem Accounted.addMember (hacc : Accounted log h) (o : Address) (s : SessionId)
    (nick status : Bytes) :
    Accounted (log ++ h.strayed (.addMember o s nick status))
      (h.update o (·.addMember s nick status)) := by
  refine hacc.update (f := fun ch => ch.addMember s nick status) (fun _ => rfl)
    (fun hlive => .inr ?_) fun o' ho' => ?_
  · obtain ⟨ch, hch, -⟩ := hlive
    rw [getElem?_update, if_pos rfl] at hch
    obtain ⟨old, hold, -⟩ := Option.map_eq_some_iff.1 hch
    obtain ⟨hlt, -⟩ := List.getElem?_eq_some_iff.1 hold
    by_cases hreg : h.registered o = some o
    · exact .inl hreg
    · exact .inr (by simp [strayed, hlt, hreg])
  · simp only [strayed] at ho'
    split at ho'
    · rename_i hstray
      obtain rfl := mem_singleton.1 ho'
      exact hstray
    · cases ho'

theorem Accounted.remove (hacc : Accounted log h) (name : Bytes) :
    Accounted (log ++ h.strayed (.remove name))
      { h with registry := h.registry.erase (toLower name) } := by
  have hlookup (k : Bytes) (o : Address)
      (hk : (h.registry.erase (toLower name)).lookup k = some o) :
      k ≠ toLower name ∧ h.registry.lookup k = some o := by
    rw [Map.lookup_erase_eq] at hk
    split at hk
    · cases hk
    · exact ⟨‹_›, hk⟩
  refine ⟨fun k o hk => hacc.named k o (hlookup k o hk).2, fun o ho => ?_, fun o ho => ?_⟩
  · rcases hacc.live o ho with hreg | hmem
    · obtain ⟨k, hk, hko⟩ := Option.bind_eq_some_iff.1 hreg
      by_cases hname : k = toLower name
      · -- the channel itself is unregistered
        subst hname
        refine .inr (mem_append_right _ (mem_filter.2 ⟨?_, decide_eq_true ho⟩))
        rw [hko]
        exact mem_singleton_self o
      · refine .inl (Option.bind_eq_some_iff.2 ⟨k, hk, ?_⟩)
        rw [Map.lookup_erase_eq, if_neg hname]
        exact hko
    · exact .inr (mem_append_left _ hmem)
  · rcases mem_append.1 ho with ho | ho
    · obtain ⟨hlt, hreg⟩ := hacc.lost o ho
      refine ⟨hlt, fun hreg' => hreg ?_⟩
      obtain ⟨k, hk, hko⟩ := Option.bind_eq_some_iff.1 hreg'
      exact Option.bind_eq_some_iff.2 ⟨k, hk, (hlookup k o hko).2⟩
    · obtain ⟨ho, hlive⟩ := mem_filter.1 ho
      have hlive : h.Live o := of_decide_eq_true hlive
      have hkey := hacc.named _ o (Option.mem_toList.1 ho)
      refine ⟨?_, fun hreg => ?_⟩
      · obtain ⟨ch, hch, -⟩ := hlive
        exact (List.getElem?_eq_some_iff.1 hch).1
      · obtain ⟨k, hk, hko⟩ := Option.bind_eq_some_iff.1 hreg
        exact (hlookup k o hko).1 (Option.some.inj (hk.symm.trans hkey))

theorem Accounted.create (hacc : Accounted log h) {name : Bytes} {ch : Channel}
    (hname : ch.name = name) (hmembers : ch.members.entries = [])
    (hnone : h.registry.lookup (toLower name) = none) :
    Accounted (log ++ []) (h.create (toLower name) ch) := by
  have hold {o : Address} (hlt : o < h.objects.length) :
      (h.create (toLower name) ch).key o = h.key o := by
    unfold key
    rw [getElem?_create, if_neg (ne_of_lt hlt)]
  have hlookup (k : Bytes) : (h.create (toLower name) ch).registry.lookup k =
      if k = toLower name then some h.objects.length else h.registry.lookup k :=
    Map.lookup_insert_eq _ _ _ _
  have hlt_of_key {o : Address} {k : Bytes} (hk : h.key o = some k) : o < h.objects.length := by
    obtain ⟨ch', hch', -⟩ := Option.map_eq_some_iff.1 hk
    exact (List.getElem?_eq_some_iff.1 hch').1
  rw [append_nil]
  refine ⟨fun k o hk => ?_, fun o ho => ?_, fun o ho => ?_⟩
  · rw [hlookup] at hk
    split at hk
    · rename_i heq
      cases hk
      unfold key
      rw [getElem?_create, if_pos rfl, heq, Option.map_some, hname]
    · have hkey := hacc.named k o hk
      rw [hold (hlt_of_key hkey)]
      exact hkey
  · unfold Live at ho
    rw [getElem?_create] at ho
    split at ho
    · obtain ⟨ch', hch', hne⟩ := ho
      cases hch'
      exact absurd hmembers hne
    · refine (hacc.live o ho).imp_left fun hreg => ?_
      obtain ⟨k, hk, hko⟩ := Option.bind_eq_some_iff.1 hreg
      refine Option.bind_eq_some_iff.2 ⟨k, ?_, ?_⟩
      · rw [hold (hlt_of_key hk)]
        exact hk
      · rw [hlookup, if_neg fun heq => ?_]
        · exact hko
        · rw [heq, hnone] at hko
          cases hko
  · obtain ⟨hlt, hreg⟩ := hacc.lost o ho
    refine ⟨?_, fun hreg' => hreg ?_⟩
    · have hlen : (h.create (toLower name) ch).objects.length = h.objects.length + 1 :=
        length_append
      rw [hlen]
      exact Nat.lt_succ_of_lt hlt
    · obtain ⟨k, hk, hko⟩ := Option.bind_eq_some_iff.1 hreg'
      rw [hold hlt] at hk
      refine Option.bind_eq_some_iff.2 ⟨k, hk, ?_⟩
      rw [hlookup] at hko
      split at hko
      · cases hko
        exact absurd hlt (lt_irrefl _)
      · exact hko

theorem Accounted.congr {h' : ChannelHeap} (hacc : Accounted log h)
    (hobjects : h'.objects = h.objects) (hregistry : h'.registry = h.registry) :
    Accounted (log ++ []) h' := by
  rw [append_nil]
  cases h
  cases h'
  cases hobjects
  cases hregistry
  exact ⟨hacc.named, hacc.live, hacc.lost⟩

theorem Accounted.run (hacc : Accounted log h) (env : Env) (op : ChannelOp) :
    Accounted (log ++ h.strayed op) (op.run env h).2 := by
  cases op with
  | getOrCreate name =>
    simp only [ChannelOp.run]
    split
    · exact hacc.congr rfl rfl
    · have htick : Accounted log h.tick := by
        rw [← append_nil log]
        exact hacc.congr rfl rfl
      exact htick.create rfl rfl ‹_›
  | addMember o s nick status => exact hacc.addMember o s nick status
  | removeMember o nick =>
    refine hacc.update_keep (f := fun ch => ch.removeMember nick) (fun _ => rfl) fun ch hnil => ?_
    have herase : (ch.removeMember nick).members.entries =
        ch.members.entries.kerase (toLower nick) := rfl
    rw [herase, hnil]
    rfl
  | applyMode o change =>
    refine hacc.update_keep (fun ch => ?_) fun ch hnil => ?_
    · obtain ⟨modes, members, heq, -⟩ := applyChannelMode_eq ch change
      rw [heq]
    · obtain ⟨modes, members, heq, hempty⟩ := applyChannelMode_eq ch change
      rw [heq]
      exact hempty hnil
  | appendHistory o entry =>
    exact hacc.update_keep (f := fun ch => ch.appendHistory entry) (fun _ => rfl) fun _ => id
  | get name | all | read o | now | randText | finish s => exact hacc.congr rfl rfl
  | remove name => exact hacc.remove name

/-- A channel that strays has members. -/
theorem live_of_mem_strayed {op : ChannelOp} (ho : o ∈ h.strayed op) (env : Env) :
    (op.run env h).2.Live o := by
  cases op with
  | addMember o' s nick status =>
    simp only [strayed] at ho
    split at ho
    · rename_i hstray
      obtain rfl := mem_singleton.1 ho
      have hlt := hstray.1
      refine ⟨h.objects[o].addMember s nick status, ?_, ?_⟩
      · show (h.update o _).objects[o]? = _
        rw [getElem?_update, if_pos rfl, List.getElem?_eq_getElem hlt, Option.map_some]
      · exact ne_nil_of_mem (Map.lookup_eq_some_iff.1 (AList.lookup_insert _))
    · cases ho
  | remove name => exact of_decide_eq_true (mem_filter.1 ho).2
  | _ => cases ho

theorem Accounted.run_iff (hacc : Accounted [] h) (env : Env) (op : ChannelOp) :
    Accounted [] (op.run env h).2 ↔ h.strayed op = [] := by
  have hrun := hacc.run env op
  rw [nil_append] at hrun
  refine ⟨fun hnil => eq_nil_iff_forall_not_mem.2 fun o ho => ?_, fun hnil => hnil ▸ hrun⟩
  rcases hnil.live o (live_of_mem_strayed ho env) with hreg | hmem
  · exact (hrun.lost o ho).2 hreg
  · cases hmem

end ChannelHeap

/-! ## Runs -/

def strays : List Address :=
  (channelHandlers env users).collected ChannelHeap.strayed es

theorem accounted_init : ChannelHeap.Accounted [] (channelHandlers env users).init := by
  refine ⟨fun k o hk => (by cases hk), fun o ho => ?_, nofun⟩
  obtain ⟨ch, hch, -⟩ := ho
  cases hch

theorem accounted_after :
    ChannelHeap.Accounted (strays env users es)
      ((channelHandlers env users).system.after es).shared :=
  Pool.invariant_collected _ (accounted_init env users) (fun _ _ op hacc => hacc.run env op) es

variable {es}

/-- **No channel is orphaned** at any moment of exactly the runs in which no operation lets a channel
stray, and so in these runs none is when no handler is in progress. -/
theorem placed_iff_no_strays (hv : (channelHandlers env users).system.Valid es) :
    ((channelHandlers env users).system.Throughout (fun _ w => w.shared.Placed) es ↔
      (channelHandlers env users).system.Each
        (fun _ w e => ∀ op ∈ w.next e, w.shared.strayed op = []) es) ∧
    ((channelHandlers env users).system.Each
        (fun _ w e => ∀ op ∈ w.next e, w.shared.strayed op = []) es →
      (channelHandlers env users).system.Throughout (fun _ w => w.Idle → w.shared.Placed) es) := by
  have hplaced : (channelHandlers env users).system.Throughout (fun _ w => w.shared.Placed) es ↔
      (channelHandlers env users).system.Throughout
        (fun _ w => ChannelHeap.Accounted [] w.shared) es :=
    forall₂_congr fun es' _ => (accounted_after env users es').placed_iff_nil
  have hiff := Pool.throughout_iff (channelHandlers env users) (A := ChannelHeap.Accounted [])
    (G := fun h op => h.strayed op = []) (accounted_init env users)
    (fun h op hacc => hacc.run_iff env op) hv
  rw [hplaced, hiff]
  exact ⟨.rfl, fun h es' hes' _ => hplaced.2 (hiff.2 h) es' hes'⟩

end

section
attribute [local instance] asciiTables

def leavesRoom (s : SessionId) : Pool.Event SessionId ChannelCommand :=
  .start s (.part { command := Verb.PART.name, params := [lit "#a"] })

/-- Bob joins the channel of Alice, who leaves it. -/
def joinedInTime : List (Pool.Event SessionId ChannelCommand) :=
  [joinsRoom 0] ++ advances 0 10 ++ [joinsRoom 1] ++ advances 1 10 ++
    [leavesRoom 0] ++ advances 0 4

theorem placed_iff_no_strays_joinedInTime :
    (channelHandlers (Config.still {}) twoUsers).system.Throughout
      (fun _ w => w.Idle → w.shared.Placed) joinedInTime :=
  (placed_iff_no_strays (Config.still {}) twoUsers (by decide +kernel)).2 (by decide +kernel)

/-- Bob has looked up the channel when Alice, its only member, leaves it, and is added when it is
unregistered. -/
def joinedBehind : List (Pool.Event SessionId ChannelCommand) :=
  [joinsRoom 0] ++ advances 0 10 ++ [joinsRoom 1] ++ advances 1 1 ++
    [leavesRoom 0] ++ advances 0 5 ++ advances 1 9

/-- No handler is in progress, and Bob is in a channel that the registry does not return. -/
theorem not_placed_joinedBehind :
    (channelHandlers (Config.still {}) twoUsers).system.Valid joinedBehind ∧
      ((channelHandlers (Config.still {}) twoUsers).system.after joinedBehind).Idle ∧
      ¬ ((channelHandlers (Config.still {}) twoUsers).system.after joinedBehind).shared.Placed := by
  refine ⟨by decide +kernel, fun s => ?_, fun hp => ?_⟩
  · by_cases hs : s = 0 ∨ s = 1
    · rcases hs with rfl | rfl
      · decide +kernel
      · decide +kernel
    · have hworker : ∀ e ∈ joinedBehind, e.worker = 0 ∨ e.worker = 1 := by decide +kernel
      have hnone : ((channelHandlers (Config.still {}) twoUsers).system.after
          joinedBehind).routine s = .done () :=
        Pool.routine_after_of_notMem _ fun e he heq => hs (heq ▸ hworker e he)
      rw [hnone]
      rfl
  · have hacc := accounted_after (Config.still {}) twoUsers joinedBehind
    exact hacc.placed_iff.1 hp 0 (by decide +kernel) (by decide +kernel)

end

end Irc
