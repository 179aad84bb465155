import GoProtocols.Irc.Bouncer.Network

/-!
# Who is in which channel

The bouncer is to know who is in which channel as the protocol has it: a `JOIN` adds a nick to a
channel, a `PART` takes it out of that channel only, a `QUIT` out of all, and a `NICK` renames it
everywhere (`Present`). But `handleUpstream` treats a `PART` as a `QUIT`: what it tracks is right as
long as nobody parts who is in another channel (`members_tracked_iff`).
-/

namespace Irc

open Go System Option

/-! ## The protocol -/

/-- What a message says of the presence of nicks in channels. -/
inductive Presence
  | join (nick ch : Bytes)
  | part (nick : Bytes) (ch : Option Bytes)
  | quit (nick : Bytes)
  | nick (oldNick newNick : Bytes)
  | none

/-- The pairs of a nick and a channel after a message, given those before it. -/
def Presence.after (R : Bytes → Bytes → Prop) : Presence → Bytes → Bytes → Prop
  | join p ch => fun q d => R q d ∨ q = p ∧ d = ch
  | part p ch => fun q d => R q d ∧ ¬ (q = p ∧ some d = ch)
  | quit p => fun q d => R q d ∧ q ≠ p
  | nick p p' => fun q d => R q d ∧ q ≠ p ∨ q = p' ∧ R p d
  | none => R

/-! ## What the bouncer tracks -/

variable {n : NetworkState} {p q ch d : Bytes}

def NetworkState.Has (n : NetworkState) (p d : Bytes) : Prop := p ∈ n.members d

instance (n : NetworkState) (p d : Bytes) : Decidable (n.Has p d) :=
  inferInstanceAs (Decidable (_ ∈ _))

theorem NetworkState.has_join : (n.join ch p).Has q d ↔ n.Has q d ∨ q = p ∧ d = ch := by
  unfold Has join members
  rw [Map.lookup_insert_eq]
  by_cases hd : d = ch
  · subst hd
    simp only [if_true, getD_some, AList.mem_insert, and_true]
    exact or_comm
  · simp [hd]

theorem NetworkState.has_leave : (n.leave p).Has q d ↔ n.Has q d ∧ q ≠ p := by
  unfold Has leave members
  rw [Map.lookup_mapValues]
  cases n.channels.lookup d with
  | none => simp
  | some cs =>
    simp only [map_some, getD_some, AList.mem_erase]
    exact and_comm

theorem ChannelState.mem_rename {cs : ChannelState} {p' : Bytes} :
    q ∈ (cs.rename p p').members ↔ q ∈ cs.members ∧ q ≠ p ∨ q = p' ∧ p ∈ cs.members := by
  unfold ChannelState.rename
  cases hp : cs.members.lookup p with
  | none =>
    have hnot : p ∉ cs.members := AList.lookup_eq_none.1 hp
    have hne (hq : q ∈ cs.members) : q ≠ p := fun he => hnot (he ▸ hq)
    simp only [elim_none, hnot, and_false, or_false]
    exact ⟨fun hq => ⟨hq, hne hq⟩, And.left⟩
  | some mark =>
    have hmem : p ∈ cs.members := AList.lookup_isSome.1 (by simp [hp])
    simp only [elim_some, AList.mem_insert, AList.mem_erase, hmem, and_true]
    rw [or_comm, and_comm]

theorem NetworkState.has_rename {p' : Bytes} :
    (n.rename p p').Has q d ↔ n.Has q d ∧ q ≠ p ∨ q = p' ∧ n.Has p d := by
  unfold Has rename members
  rw [Map.lookup_mapValues]
  cases n.channels.lookup d with
  | none => simp
  | some cs => exact ChannelState.mem_rename

theorem NetworkState.has_congr {n' : NetworkState} (h : n'.channels = n.channels) :
    n'.Has = n.Has := by
  funext p d
  simp [Has, members, h]

/-- What `handleUpstream` makes of a message. -/
def Presence.tracked (R : Bytes → Bytes → Prop) : Presence → Bytes → Bytes → Prop
  | part p _ => Presence.after R (quit p)
  | pr => pr.after R

/-- If the message is a `PART`, the nick is a member of no channel but the one that it names. -/
def PartsOnly (n : NetworkState) : Presence → Prop
  | .part p ch => ∀ e ∈ n.channels.entries, p ∈ e.2.members → some e.1 = ch
  | _ => True

instance (n : NetworkState) : (pr : Presence) → Decidable (PartsOnly n pr)
  | .part p ch =>
    inferInstanceAs (Decidable (∀ e ∈ n.channels.entries, p ∈ e.2.members → some e.1 = ch))
  | .join _ _ | .quit _ | .nick _ _ | .none => .isTrue trivial

theorem partsOnly_part_iff {ch : Option Bytes} :
    PartsOnly n (.part p ch) ↔ ∀ d, n.Has p d → some d = ch := by
  unfold PartsOnly NetworkState.Has NetworkState.members
  refine ⟨fun h d hd => ?_, fun h e he hp => h e.1 ?_⟩
  · cases hcs : n.channels.lookup d with
    | none => simp [hcs] at hd
    | some cs =>
      rw [hcs] at hd
      exact h ⟨d, cs⟩ (Map.lookup_eq_some_iff.1 hcs) hd
  · rw [Map.lookup_eq_some_iff.2 he]
    exact hp

/-- The bouncer and the protocol agree on a message, unless somebody parts who is in another
channel. -/
theorem tracked_eq_after {pr : Presence} (h : PartsOnly n pr) :
    pr.tracked n.Has = pr.after n.Has := by
  cases pr with
  | part p ch =>
    rw [partsOnly_part_iff] at h
    funext q d
    refine propext (and_congr_right fun hd => ⟨fun hq hc => hq hc.1, fun hc hq => hc ⟨hq, ?_⟩⟩)
    exact h d (hq ▸ hd)
  | join p ch | quit p | nick p p' | none => rfl

section
variable [UnicodeTables] (i : Nat) (es : List Incoming) (cfg : BouncerConfig) (st : Upstreams)
  (msg : Message) {e : Incoming}

/-! ## Messages -/

/-- Channels are told apart by their names in lower case. A `PART` that names no channel is one of
no channel. -/
def presence : Presence :=
  match msg.source with
  | none => .none
  | some source =>
    if msg.command = Verb.JOIN.name then
      msg.params.head?.elim .none fun ch => .join source.nick (toLower ch)
    else if msg.command = Verb.PART.name then .part source.nick (msg.params.head?.map toLower)
    else if msg.command = Verb.QUIT.name then .quit source.nick
    else if msg.command = Verb.NICK.name then
      msg.params.head?.elim .none fun newNick => .nick source.nick newNick
    else .none

/-- **Who is where** after the messages of network `i`. -/
def Present : Bytes → Bytes → Prop :=
  es.foldl (fun R e => if e.network = i then (presence e.msg).after R else R) fun _ _ => False

theorem present_concat_self {i : Nat} (h : e.network = i) (es : List Incoming) :
    Present i (es ++ [e]) = (presence e.msg).after (Present i es) := by
  simp [Present, h]

theorem present_concat_other {i : Nat} (h : e.network ≠ i) (es : List Incoming) :
    Present i (es ++ [e]) = Present i es := by
  simp [Present, h]

theorem NetworkState.has_track : (n.track msg).Has q d ↔ (presence msg).tracked n.Has q d := by
  unfold track presence
  cases msg.source with
  | none => rfl
  | some source =>
    simp only
    by_cases hjoin : msg.command = Verb.JOIN.name
    · rw [if_pos hjoin, if_pos hjoin]
      cases msg.params.head? with
      | none => rfl
      | some ch => exact has_join
    · rw [if_neg hjoin, if_neg hjoin]
      by_cases hpart : msg.command = Verb.PART.name
      · rw [if_pos (.inl hpart), if_pos hpart]
        exact has_leave
      · by_cases hquit : msg.command = Verb.QUIT.name
        · rw [if_pos (.inr hquit), if_neg hpart, if_pos hquit]
          exact has_leave
        · rw [if_neg (not_or.2 ⟨hpart, hquit⟩), if_neg hpart, if_neg hquit]
          split
          · cases msg.params.head? with
            | none => rfl
            | some newNick => exact has_rename
          · rfl

/-- **What the bouncer knows after a message** is what it knew, with what the message says of it as
`handleUpstream` has it. -/
theorem has_receive (e : Incoming) (i : Nat) :
    ((st.receive cfg e).network i).Has =
      if e.network = i then (presence e.msg).tracked (st.network i).Has
      else (st.network i).Has := by
  unfold Upstreams.receive
  split
  · rename_i h
    subst h
    simp only [Function.update_self]
    rw [NetworkState.has_congr (handleUpstream_channels ..)]
    funext q d
    rw [eq_iff_iff, NetworkState.has_track, NetworkState.has_congr (handleWelcome_channels ..)]
  · rename_i h
    simp only [Function.update_of_ne (Ne.symm h)]

/-! ## Runs -/

/-- What is tracked of network `i` is who is there. -/
def TracksMembers : Prop :=
  ∀ p ch, (st.network i).Has p (toLower ch) ↔ Present i es p (toLower ch)

def Lower (R : Bytes → Bytes → Prop) : Prop := ∀ p d, R p d → ∃ ch, toLower ch = d

theorem lower_of_join {msg : Message} (h : presence msg = .join p ch) : ∃ c, toLower c = ch := by
  unfold presence at h
  cases hs : msg.source with
  | none => simp [hs] at h
  | some source =>
    simp only [hs] at h
    split_ifs at h
    · cases hp : msg.params.head? with
      | none => simp [hp] at h
      | some c =>
        simp only [hp, elim_some, Presence.join.injEq] at h
        exact ⟨c, h.2⟩
    · cases hp : msg.params.head? <;> simp [hp] at h

theorem Lower.after {R : Bytes → Bytes → Prop} (h : Lower R) (msg : Message) :
    Lower ((presence msg).after R) := by
  intro q d hd
  generalize hpr : presence msg = pr at hd
  cases pr with
  | join p ch =>
    rcases hd with hd | ⟨-, rfl⟩
    · exact h q d hd
    · exact lower_of_join hpr
  | part p ch | quit p => exact h q d hd.1
  | nick p p' =>
    rcases hd with hd | hd
    · exact h q d hd.1
    · exact h p d hd.2
  | none => exact h q d hd

/-- What the induction over a run keeps. -/
structure Exact (i : Nat) (es : List Incoming) (st : Upstreams) : Prop where
  has : (st.network i).Has = Present i es
  lower : Lower (Present i es)

variable {cfg : BouncerConfig} {i : Nat} {es : List Incoming} {st : Upstreams} {e : Incoming}

theorem Exact.step (h : Exact i es st)
    (hg : e.network = i → PartsOnly (st.network i) (presence e.msg)) :
    Exact i (es ++ [e]) (st.receive cfg e) := by
  by_cases hi : e.network = i
  · refine ⟨?_, ?_⟩
    · rw [has_receive, if_pos hi, tracked_eq_after (hg hi), present_concat_self hi, h.has]
    · rw [present_concat_self hi]
      exact h.lower.after e.msg
  · refine ⟨?_, ?_⟩
    · rw [has_receive, if_neg hi, present_concat_other hi, h.has]
    · rw [present_concat_other hi]
      exact h.lower

/-- Where what is tracked is right before and after a message, nobody has parted who was in another
channel. -/
theorem Exact.partsOnly (h : Exact i es st) (ht : TracksMembers i (es ++ [e]) (st.receive cfg e))
    (hi : e.network = i) : PartsOnly (st.network i) (presence e.msg) := by
  cases hpr : presence e.msg with
  | part p ch =>
    rw [partsOnly_part_iff]
    intro d hd
    by_contra hne
    have hpresent : Present i es p d := h.has ▸ hd
    obtain ⟨c, rfl⟩ := h.lower p d hpresent
    -- the protocol has the nick there still, and the bouncer has it nowhere
    have hafter : Present i (es ++ [e]) p (toLower c) := by
      rw [present_concat_self hi, hpr]
      exact ⟨hpresent, fun hc => hne hc.2⟩
    have hgone := (ht p c).2 hafter
    rw [has_receive, if_pos hi, hpr] at hgone
    exact hgone.2 rfl
  | join p ch | quit p | nick p p' | none => exact trivial

/-- **What the bouncer tracks is who is there, throughout exactly the runs in which nobody parts who
is in another channel.** -/
theorem members_tracked_iff (cfg : BouncerConfig) (i : Nat) {es : List Incoming}
    (hv : (upstreams cfg).Valid es) :
    (upstreams cfg).Throughout (TracksMembers i) es ↔
      (upstreams cfg).Each (fun _ st e => e.network = i →
        PartsOnly (st.network i) (presence e.msg)) es := by
  refine (upstreams cfg).throughout_iff (I := Exact i) ?_ ?_ ?_ ?_ hv
  · refine ⟨?_, fun _ _ h => h.elim⟩
    funext p d
    simp [NetworkState.Has, NetworkState.members, upstreams, Present]
  · intro es st h p ch
    rw [h.has]
  · intro es e h _ hg
    exact h.step hg
  · intro es e h _ ht hi
    exact h.partsOnly ht hi

end

section
attribute [local instance] asciiTables

/-- A message of a user of the first network. -/
def fromUser (nick : Bytes) (verb : Verb) (params : List Bytes) : Incoming where
  network := 0
  storedAt := ⟨0, 0⟩
  sentAt := ⟨0, 0⟩
  msg := { source := some { nick, user := nick, host := lit "host" }, command := verb.name, params }

def oneNetwork : BouncerConfig where
  networks := [⟨lit "net", true⟩]
  historyLimit := 100
  historyLimit_le := hundred_le_maxInt

/-- Two users join a channel; one is renamed and parts, the other quits. -/
def partsOnlyChannel : List Incoming :=
  [fromUser (lit "alice") .JOIN [lit "#A"], fromUser (lit "bob") .JOIN [lit "#a"],
    fromUser (lit "bob") .NICK [lit "rob"], fromUser (lit "rob") .PART [lit "#a"],
    fromUser (lit "alice") .QUIT []]

theorem members_tracked_iff_partsOnlyChannel :
    (upstreams oneNetwork).Throughout (TracksMembers 0) partsOnlyChannel :=
  (members_tracked_iff oneNetwork 0 (by decide +kernel)).2 (by decide +kernel)

/-- A user joins two channels and parts one of them. -/
def partsOneOfTwo : List Incoming :=
  [fromUser (lit "alice") .JOIN [lit "#a"], fromUser (lit "alice") .JOIN [lit "#b"],
    fromUser (lit "alice") .PART [lit "#a"]]

/-- The user is in the other channel still, and the bouncer has lost it there. -/
theorem not_tracksMembers_partsOneOfTwo :
    (upstreams oneNetwork).Valid partsOneOfTwo ∧
      Present 0 partsOneOfTwo (lit "alice") (toLower (lit "#b")) ∧
      ¬ (((upstreams oneNetwork).after partsOneOfTwo).network 0).Has (lit "alice")
        (toLower (lit "#b")) ∧
      ¬ TracksMembers 0 partsOneOfTwo ((upstreams oneNetwork).after partsOneOfTwo) := by
  have hpresent : Present 0 partsOneOfTwo (lit "alice") (toLower (lit "#b")) := by
    refine ⟨.inr ⟨rfl, rfl⟩, fun h => ?_⟩
    exact absurd h.2 (by decide +kernel)
  have hlost : ¬ (((upstreams oneNetwork).after partsOneOfTwo).network 0).Has (lit "alice")
      (toLower (lit "#b")) := by
    decide +kernel
  exact ⟨by decide +kernel, hpresent, hlost, fun h => hlost ((h _ _).2 hpresent)⟩

end

end Irc
