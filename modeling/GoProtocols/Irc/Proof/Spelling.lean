import GoProtocols.Go.Utf8
import GoProtocols.Irc.Message

/-!
# How messages are spelled

The parts of `Format`, read back by the parts of `Parse`:
-/

namespace Irc

open Go List

/-! ## Tag values -/

variable (m : Message) (order : List (Sigma fun _ : Bytes => Bytes)) (s : Bytes) {c : UInt8}
  (p : Bytes) {ps : List Bytes} {t : Sigma fun _ : Bytes => Bytes} {w : Bytes}

theorem unescapeTagValue_escapeByte (b : UInt8) (s : Bytes) :
    unescapeTagValue (escapeByte b ++ s) = b :: unescapeTagValue s := by
  have hesc (c : UInt8) : unescapeTagValue (92 :: c :: s) = unescapeByte c :: unescapeTagValue s := by
    simp [unescapeTagValue]
  unfold escapeByte
  split_ifs with h1 h2 h3 h4 h5
  · subst h1
    exact hesc 58
  · subst h2
    exact hesc 115
  · subst h3
    exact hesc 92
  · subst h4
    exact hesc 114
  · subst h5
    exact hesc 110
  · cases s <;> simp [unescapeTagValue, h3]

theorem unescapeTagValue_escapeTagValue : unescapeTagValue (escapeTagValue s) = s := by
  induction s with
  | nil => rfl
  | cons b s ih => rw [escapeTagValue, flatMap_cons, unescapeTagValue_escapeByte, ← escapeTagValue, ih]

theorem notMem_escapeTagValue (hc : c = 59 ∨ c = 32) : c ∉ escapeTagValue s := by
  intro h
  obtain ⟨b, -, hb⟩ := mem_flatMap.1 h
  unfold escapeByte at hb
  split_ifs at hb with h1 h2
  case neg =>
    obtain rfl := mem_singleton.1 hb
    exact hc.elim h1 h2
  all_goals
    rcases hc with rfl | rfl <;> revert hb <;> decide

/-! ## Tags -/

/-- A tag whose key can be written: without the bytes that end it. -/
structure TagKey (k : Bytes) : Prop where
  semicolon : 59 ∉ k
  equals : 61 ∉ k
  blank : 32 ∉ k

theorem notMem_formatTag (h : TagKey t.1) (hc : c = 59 ∨ c = 32) : c ∉ formatTag t := by
  have hkey : c ∉ t.1 := by
    rcases hc with rfl | rfl
    · exact h.semicolon
    · exact h.blank
  have heq : c ∉ lit "=" := by
    rcases hc with rfl | rfl <;> decide
  unfold formatTag
  split_ifs
  · simp [hkey, heq, notMem_escapeTagValue t.2 hc]
  · simp [hkey]

def TagLost (t : Sigma fun _ : Bytes => Bytes) : Prop := t.1 = [] ∧ t.2 = []

instance (t : Sigma fun _ : Bytes => Bytes) : Decidable (TagLost t) :=
  inferInstanceAs (Decidable (_ ∧ _))

theorem parseTag_formatTag (h : TagKey t.1) (tags : Tags) :
    parseTag tags (formatTag t) = if TagLost t then tags else tags.insert t.1 t.2 := by
  obtain ⟨k, v⟩ := t
  by_cases hv : v = []
  · subst hv
    have hcut : cut k 61 = none := cut_eq_none.2 h.equals
    by_cases hk : k = [] <;> simp [parseTag, formatTag, TagLost, hk, hcut]
  · have hlit : lit "=" = [61] := by decide
    have hcut : cut (k ++ 61 :: escapeTagValue v) 61 = some (k, escapeTagValue v) :=
      cut_append h.equals _
    simp [parseTag, formatTag, TagLost, hv, hlit, hcut, unescapeTagValue_escapeTagValue]

theorem lookup_foldl_parseTag {k : Bytes} (l : List (Sigma fun _ : Bytes => Bytes))
    (hkey : ∀ t ∈ l, TagKey t.1) (hl : l.NodupKeys) (tags : Tags) :
    ((l.map formatTag).foldl parseTag tags).lookup k =
      (l.dlookup k).elim (tags.lookup k) fun v =>
        if TagLost ⟨k, v⟩ then tags.lookup k else some v := by
  induction l generalizing tags with
  | nil => rfl
  | cons t l ih =>
    obtain ⟨k', v'⟩ := t
    obtain ⟨hnot, hl⟩ := nodupKeys_cons.1 hl
    rw [map_cons, foldl_cons, parseTag_formatTag (hkey _ (by simp)),
      ih (forall_mem_cons.1 hkey).2 hl]
    by_cases hk : k = k'
    · subst hk
      rw [dlookup_eq_none.2 hnot, dlookup_cons_eq, Option.elim_none, Option.elim_some]
      split <;> simp
    · have hsame (p : Prop) [Decidable p] :
          (if p then tags else tags.insert k' v').lookup k = tags.lookup k := by
        split
        · rfl
        · exact AList.lookup_insert_ne hk
      rw [dlookup_cons_ne _ _ hk, hsame]

def TagOrder : Prop :=
  order.Perm m.tags.entries

/-- The tags in the order in which they are written: the client-only ones last. -/
def written : List (Sigma fun _ : Bytes => Bytes) :=
  order.filter (!hasPrefix ·.1 (lit "+")) ++ order.filter (hasPrefix ·.1 (lit "+"))

/-- The tags between the `@` and the blank. -/
def tagText : Bytes :=
  join ((written order).map formatTag) (lit ";")

theorem formatTags_eq :
    formatTags order = if order = [] then [] else 64 :: (tagText order ++ [32]) := by
  unfold formatTags tagText written
  split
  · rfl
  · rw [show lit "@" = [64] by decide, show lit " " = [32] by decide]
    simp

section
variable {m : Message} {order : List (Sigma fun _ : Bytes => Bytes)}

theorem TagOrder.perm_written (h : TagOrder m order) : (written order).Perm m.tags.entries :=
  (perm_append_comm.trans (filter_append_perm _ order)).trans h

theorem TagOrder.nil_iff (h : TagOrder m order) : order = [] ↔ m.tags.entries = [] :=
  ⟨fun he => (he ▸ h : [].Perm _).nil_eq.symm, fun he => (he ▸ h : order.Perm []).eq_nil⟩

variable (h : TagOrder m order) (hkey : ∀ t ∈ m.tags.entries, TagKey t.1)

include h hkey

theorem notMem_written {l : Bytes} (hl : l ∈ (written order).map formatTag) (hc : c = 59 ∨ c = 32) :
    c ∉ l := by
  obtain ⟨t, ht, rfl⟩ := mem_map.1 hl
  exact notMem_formatTag (hkey t (h.perm_written.mem_iff.1 ht)) hc

theorem blank_notMem_tagText : 32 ∉ tagText order := by
  intro hmem
  rcases mem_join hmem with hsep | ⟨l, hl, hl'⟩
  · revert hsep
    decide
  · exact notMem_written h hkey hl (.inr rfl) hl'

/-- **The tags are read back**, but for one that is empty altogether. -/
theorem lookup_parseTags (hne : order ≠ []) (k : Bytes) :
    (parseTags (tagText order)).lookup k =
      (m.tags.lookup k).elim none fun v => if TagLost ⟨k, v⟩ then none else some v := by
  have hperm := h.perm_written
  have hkeys := m.tags.nodupKeys
  have hwritten : (written order).map formatTag ≠ [] := fun he => by
    rw [map_eq_nil_iff.1 he] at hperm
    exact hne (h.nil_iff.2 hperm.nil_eq.symm)
  have hparts : split (tagText order) 59 = (written order).map formatTag :=
    splitOn_intercalate (59 : UInt8) (fun l hl => notMem_written h hkey hl (.inl rfl)) hwritten
  rw [parseTags, hparts, lookup_foldl_parseTag _ (fun t ht => hkey t (hperm.mem_iff.1 ht))
    ((perm_nodupKeys hperm).2 hkeys), perm_dlookup k ((perm_nodupKeys hperm).2 hkeys)
    hperm]
  rfl

end

/-! ## Prefixes -/

/-- A prefix that `parsePrefix` can give. -/
structure Prefix.Spelled (p : Prefix) : Prop where
  nick : 33 ∉ p.nick ∧ 64 ∉ p.nick
  user : 64 ∉ p.user

theorem parsePrefix_spelled : (parsePrefix s).Spelled := by
  have hbang (s : Bytes) (hs : 64 ∉ s) :
      (33 ∉ ((cut s 33).getD (s, [])).1 ∧ 64 ∉ ((cut s 33).getD (s, [])).1) ∧
        64 ∉ ((cut s 33).getD (s, [])).2 := by
    cases hc : cut s 33 with
    | none => exact ⟨⟨cut_eq_none.1 hc, hs⟩, by simp⟩
    | some q =>
      obtain ⟨hq, rfl⟩ := cut_eq_some.1 (show cut s 33 = some (q.1, q.2) from hc)
      simp only [mem_append, mem_cons, not_or] at hs
      exact ⟨⟨hq, hs.1⟩, hs.2.2⟩
  have hat : 64 ∉ ((cut s 64).getD (s, [])).1 := by
    cases hc : cut s 64 with
    | none => exact cut_eq_none.1 hc
    | some q => exact (cut_eq_some.1 (show cut s 64 = some (q.1, q.2) from hc)).1
  obtain ⟨hnick, huser⟩ := hbang _ hat
  exact ⟨hnick, huser⟩

/-- **The prefix is read back**, but for a user without a host. -/
theorem parsePrefix_string {p : Prefix} (h : p.Spelled) :
    parsePrefix p.string = if p.host = [] then { nick := p.nick } else p := by
  have hbang : lit "!" = [33] := by decide
  have hat : lit "@" = [64] := by decide
  by_cases hhost : p.host = []
  · have hstring : p.string = p.nick := by simp [Prefix.string, hhost]
    rw [hstring, if_pos hhost]
    simp [parsePrefix, cut_eq_none.2 h.nick.1, cut_eq_none.2 h.nick.2]
  · have hstring : p.string = (p.nick ++ 33 :: p.user) ++ 64 :: p.host := by
      simp [Prefix.string, Prefix.isServer, hhost, hbang, hat]
    have hnot : 64 ∉ p.nick ++ 33 :: p.user := by simp [h.nick.2, h.user]
    rw [hstring, if_neg hhost]
    simp only [parsePrefix, cut_append hnot, cut_append h.nick.1, Option.getD_some]

theorem blank_notMem_string {p : Prefix} (hn : 32 ∉ p.nick) (hu : 32 ∉ p.user) (hh : 32 ∉ p.host) :
    32 ∉ p.string := by
  have hbang : 32 ∉ lit "!" := by decide
  have hat : 32 ∉ lit "@" := by decide
  unfold Prefix.string
  split_ifs <;> simp [hn, hu, hh, hbang, hat]

/-! ## Parameters -/

/-- A parameter that can stand before another: not empty, in one piece, not taken for the last. -/
structure Middle (p : Bytes) : Prop where
  nonempty : p ≠ []
  blank : 32 ∉ p
  colon : p.head? ≠ some 58

theorem Middle.trimLeft {p : Bytes} (h : Middle p) (s : Bytes) :
    Go.trimLeft (p ++ s) (lit " ") = p ++ s := by
  obtain ⟨b, t, rfl⟩ := exists_cons_of_ne_nil h.nonempty
  refine trimLeft_of_head fun c hc => ?_
  obtain rfl : b = c := by simpa using hc
  intro hb
  have hb32 : b = 32 := by
    have hblank : lit " " = [32] := by decide
    simpa [hblank] using hb
  exact h.blank (by simp [hb32])

theorem hasPrefix_colon : hasPrefix s (lit ":") = decide (s.head? = some 58) := by
  have hlit : lit ":" = [58] := by decide
  rw [Bool.eq_iff_iff, hasPrefix_iff, hlit, decide_eq_true_iff]
  cases s with
  | nil => simp
  | cons b s => simp [cons_prefix_cons, eq_comm]

theorem parseParams_trailing (fuel : Nat) (t : Bytes) : parseParams (fuel + 1) (58 :: t) = [t] := by
  simp [parseParams, hasPrefix_colon]

theorem parseParams_word (h : Middle w) (fuel : Nat) : parseParams (fuel + 1) w = [w] := by
  simp [parseParams, hasPrefix_colon, h.nonempty, h.colon, cut_eq_none.2 h.blank]

theorem parseParams_cut (hb : 32 ∉ w) (hc : w.head? ≠ some 58) (fuel : Nat) (r : Bytes) :
    parseParams (fuel + 1) (w ++ 32 :: r) = w :: parseParams fuel (trimLeft r (lit " ")) := by
  have hhead : (w ++ 32 :: r).head? ≠ some 58 := by
    cases w with
    | nil => simp
    | cons b w => simpa using hc
  rw [parseParams, if_neg (by simp), hasPrefix_colon, decide_eq_false hhead, if_neg (by simp),
    cut_append hb]

def ColonLast : Prop := containsAny p (lit " :") = true ∨ p = []

instance : Decidable (ColonLast p) := inferInstanceAs (Decidable (_ ∨ _))

theorem formatParams_single : formatParams [p] = 32 :: if ColonLast p then 58 :: p else p := by
  have hblank : lit " " = [32] := by decide
  have hcolon : lit ":" = [58] := by decide
  by_cases h : ColonLast p
  · have h' : containsAny p (lit " :") = true ∨ p = [] := h
    simp [formatParams, hblank, hcolon, h, h']
  · have h' : ¬ (containsAny p (lit " :") = true ∨ p = []) := h
    simp [formatParams, hblank, h, h']

theorem formatParams_cons (h : ps ≠ []) :
    formatParams (p :: ps) = 32 :: (p ++ formatParams ps) := by
  have hblank : lit " " = [32] := by decide
  obtain ⟨q, qs, rfl⟩ := exists_cons_of_ne_nil h
  simp [formatParams, hblank]

theorem middle_of_not_colonLast {p : Bytes} (h : ¬ ColonLast p) : Middle p := by
  have hlit : lit " :" = [32, 58] := by decide
  simp only [ColonLast, containsAny, hlit, not_or, any_eq_true, not_exists, not_and] at h
  obtain ⟨hmem, hne⟩ := h
  refine ⟨hne, fun hb => hmem 32 hb (by decide), fun hc => ?_⟩
  exact hmem 58 (mem_of_mem_head? hc) (by decide)

/-- **A command and its parameters are read back** if they are in one piece each; the last may be
anything. -/
theorem parseParams_format (hb : 32 ∉ w) (hc : w.head? ≠ some 58) (hne : w ≠ [] ∨ ps ≠ [])
    (hps : ∀ p ∈ ps.dropLast, Middle p) {fuel : Nat} (hf : (w ++ formatParams ps).length ≤ fuel) :
    parseParams fuel (w ++ formatParams ps) = w :: ps := by
  induction ps generalizing w fuel with
  | nil =>
    have hw : w ≠ [] := by simpa using hne
    obtain ⟨b, t, rfl⟩ := exists_cons_of_ne_nil hw
    obtain ⟨fuel, rfl⟩ : ∃ f, fuel = f + 1 := ⟨fuel - 1, by simp at hf; omega⟩
    simpa [formatParams] using parseParams_word ⟨hw, hb, hc⟩ fuel
  | cons p ps ih =>
    cases ps with
    | nil =>
      by_cases hcolon : ColonLast p
      · rw [formatParams_single, if_pos hcolon] at hf ⊢
        obtain ⟨fuel, rfl⟩ : ∃ f, fuel = f + 2 := ⟨fuel - 2, by simp at hf; omega⟩
        rw [parseParams_cut hb hc, trimLeft_of_head (by simpa using by decide), parseParams_trailing]
      · have hp := middle_of_not_colonLast hcolon
        have hpos : 0 < p.length := length_pos_iff.2 hp.nonempty
        have htrim := hp.trimLeft []
        rw [append_nil] at htrim
        rw [formatParams_single, if_neg hcolon] at hf ⊢
        obtain ⟨fuel, rfl⟩ : ∃ f, fuel = f + 2 := ⟨fuel - 2, by simp at hf; omega⟩
        rw [parseParams_cut hb hc, htrim, parseParams_word hp]
    | cons q qs =>
      have hp : Middle p := hps p (by simp)
      rw [formatParams_cons p (by simp)] at hf ⊢
      obtain ⟨fuel, rfl⟩ : ∃ f, fuel = f + 1 := ⟨fuel - 1, by simp at hf; omega⟩
      rw [parseParams_cut hb hc, hp.trimLeft]
      have hqs : ∀ p' ∈ (q :: qs).dropLast, Middle p' := fun p' hp' => hps p' (by
        rw [dropLast_cons_cons]
        exact mem_cons_of_mem _ hp')
      rw [ih hp.blank hp.colon (.inr (by simp)) hqs]
      simp only [length_append, length_cons] at hf ⊢
      omega

end Irc
