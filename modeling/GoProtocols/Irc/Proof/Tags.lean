import GoProtocols.Irc.Proof.Quiet

/-!
# The tags that a session sees

What `Session.Send` makes of the tags of a message: a tag is shown to the sessions with its capability
(`lookup_prepare`), and the account of the source is added where there is none
(`lookup_prepare_account`).
-/

namespace Irc

open Go Prog

variable {name : Bytes} {srv : Server} {s : SessionId} {msg out : Message} (u : Session)

theorem lookup_setTag (msg : Message) (tag value name : Bytes) :
    (msg.setTag tag value).tags.lookup name =
      if name = tag then some value else msg.tags.lookup name :=
  Map.lookup_insert_eq msg.tags tag name value

theorem lookup_foldl_erase (keep : Bytes → Bool) (l : List (Sigma fun _ : Bytes => Bytes))
    (tags : Tags) (name : Bytes) :
    (l.foldl (fun tags t => if keep t.1 then tags else tags.erase t.1) tags).lookup name =
      if keep name = false ∧ name ∈ l.map Sigma.fst then none else tags.lookup name := by
  induction l generalizing tags with
  | nil => simp
  | cons t l ih =>
    rw [List.foldl_cons, ih]
    by_cases hname : name = t.1
    · subst hname
      by_cases hkeep : keep t.1 = true
      · simp [hkeep]
      · simp [hkeep]
    · have hmem : name ∈ (t :: l).map Sigma.fst ↔ name ∈ l.map Sigma.fst := by simp [hname]
      have hlookup : (if keep t.1 then tags else tags.erase t.1).lookup name = tags.lookup name := by
        split
        · rfl
        · rw [Map.lookup_erase_eq, if_neg hname]
      rw [hlookup]
      exact if_congr (and_congr_right fun _ => hmem.symm) rfl rfl

theorem lookup_dropTags (msg : Message) (name : Bytes) :
    (dropTags u msg).tags.lookup name =
      if u.capEnabled (tagCapability name) then msg.tags.lookup name else none := by
  have h : (dropTags u msg).tags.lookup name = _ :=
    lookup_foldl_erase (fun tag => u.capEnabled (tagCapability tag)) msg.tags.entries msg.tags name
  rw [h]
  cases hlookup : msg.tags.lookup name with
  | none => simp
  | some value =>
    have hmem : name ∈ msg.tags.entries.map Sigma.fst :=
      List.mem_map.2 ⟨⟨name, value⟩, Map.lookup_eq_some_iff.1 hlookup, rfl⟩
    cases u.capEnabled (tagCapability name) <;> simp [hmem]

theorem lookup_stampTime (msg : Message) (env : Env) (st : State) (h : name ≠ lit "time") :
    (stampTime u msg env st).1.tags.lookup name = msg.tags.lookup name := by
  unfold stampTime
  split
  · exact (lookup_setTag msg _ _ name).trans (if_neg h)
  · rfl

section
variable [UnicodeTables] {u : Session}

/-- The account of the user that a message comes from, as it is now. -/
def accountOf (srv : Server) (source : Option Prefix) : Option Bytes :=
  source.bind fun source =>
    if source.user = [] then none
    else
      (srv.getSession source.nick).bind fun t =>
        if (srv.session t).account = [] then none else some (srv.session t).account

theorem lookup_stampAccount (msg : Message) (h : name ≠ lit "account") :
    (stampAccount srv u msg).tags.lookup name = msg.tags.lookup name := by
  unfold stampAccount
  dsimp only
  repeat' split
  all_goals first | rfl | exact (lookup_setTag msg _ _ name).trans (if_neg h)

theorem lookup_stampAccount_account (srv : Server) (msg : Message)
    (hcap : u.capEnabled .accountTag = true) :
    (stampAccount srv u msg).tags.lookup (lit "account") =
      (msg.tags.lookup (lit "account")).or (accountOf srv msg.source) := by
  have hstays : (msg.tags.lookup (lit "account")).or none = msg.tags.lookup (lit "account") :=
    Option.or_none
  unfold stampAccount accountOf
  rw [if_pos hcap]
  cases msg.source with
  | none => exact hstays.symm
  | some source =>
    by_cases huser : source.user = []
    · simp [huser]
    · cases ht : srv.getSession source.nick with
      | none => simp [huser, ht]
      | some t =>
        by_cases haccount : (srv.session t).account = []
        · simp [huser, ht, haccount]
        · cases hold : msg.tags.lookup (lit "account") with
          | none => simp [huser, ht, haccount, lookup_setTag]
          | some account => simp [huser, ht, hold]

/-- **A tag is shown to the sessions with its capability.** -/
theorem lookup_prepare (s : SessionId) (msg : Message) (env : Env) (st : State)
    (htime : name ≠ lit "time") (haccount : name ≠ lit "account") :
    (prepare s msg env st).1.tags.lookup name =
      if (st.srv.session s).capEnabled (tagCapability name) then msg.tags.lookup name else none := by
  simp only [prepare, bind_run, ite_run]
  split
  · rename_i h
    have hnone : msg.tags.lookup name = none := by
      rw [AList.lookup_eq_none, AList.mem_keys, AList.keys, h.1]
      simp
    simp [pure_run, hnone]
  · simp only [pure_run, lookup_dropTags, lookup_stampAccount _ haccount, server_run,
      lookup_stampTime _ _ _ _ htime]

/-- **The account that a session sees**: the one that the message was given, or else the one that
its source has now. -/
theorem lookup_prepare_account (s : SessionId) (msg : Message) (env : Env) (st : State)
    (hcap : (st.srv.session s).capEnabled .accountTag = true) :
    (prepare s msg env st).1.tags.lookup (lit "account") =
      (msg.tags.lookup (lit "account")).or (accountOf st.srv msg.source) := by
  have hshown : tagCapability (lit "account") = .accountTag := by decide
  simp only [prepare, bind_run, ite_run]
  rw [if_neg fun h => h.2.2 hcap]
  obtain ⟨tags, htime⟩ := stampTime_eq (st.srv.session s) msg env st
  have hsource : (stampTime (st.srv.session s) msg env st).1.source = msg.source := by rw [htime]
  simp only [pure_run, server_run, lookup_dropTags, hshown, hcap, if_true,
    lookup_stampAccount_account st.srv _ hcap, hsource,
    lookup_stampTime _ _ _ _ (show lit "account" ≠ lit "time" by decide)]

/-- The message as a session sees it. -/
structure Shown (srv : Server) (s : SessionId) (msg out : Message) : Prop where
  eq : ∃ tags, out = { msg with tags }
  tag : ∀ name, name ≠ lit "time" → name ≠ lit "account" → out.tags.lookup name =
    if (srv.session s).capEnabled (tagCapability name) then msg.tags.lookup name else none
  account : (srv.session s).capEnabled .accountTag = true → out.tags.lookup (lit "account") =
    (msg.tags.lookup (lit "account")).or (accountOf srv msg.source)

theorem prepare_shown (s : SessionId) (msg : Message) (env : Env) (st : State) :
    Shown st.srv s msg (prepare s msg env st).1 where
  eq := prepare_eq s msg env st
  tag _ htime haccount := lookup_prepare s msg env st htime haccount
  account hcap := lookup_prepare_account s msg env st hcap

theorem Shown.command
    (h : Shown srv s msg out) : out.command = msg.command := by
  obtain ⟨tags, rfl⟩ := h.eq
  rfl

theorem Shown.params
    (h : Shown srv s msg out) : out.params = msg.params := by
  obtain ⟨tags, rfl⟩ := h.eq
  rfl

theorem Shown.label (h : Shown srv s msg out)
    (hmsg : msg.tags.lookup (lit "label") = none) : out.tags.lookup (lit "label") = none := by
  rw [h.tag _ (by decide) (by decide), hmsg, ite_self]

end

end Irc
