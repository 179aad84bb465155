import GoProtocols.Irc.Proof.Legible

/-!
# Line breaks in tags

`Parse` reads an escape in a tag value as a CR or an LF, and `Format` writes it as an escape again:
whichever tags of a line without line breaks are written, there is none in what is written
(`clear_format_of_parse`). The command is written in upper case; what is used of the tables there is
that no rune beyond ASCII becomes a CR or an LF (`UpperClear`).
-/

namespace Irc

open Go List

variable {raw s a : Bytes} {c : UInt8} {order : List (Sigma fun _ : Bytes => Bytes)}

/-! ## Upper case -/

theorem decodeRune_of_lt (h : (decodeRune (c :: s)).1 < 0x80) :
    (decodeRune (c :: s)).1 = c.toNat := by
  by_cases hc : c < 0x80
  · simp [decodeRune_ascii hc]
  exfalso
  have hlt : @LT.lt Nat _ (decodeRune (c :: s)).1 0x80 := h
  clear h
  match s with
  | [] | [_] | [_, _] | _ :: _ :: _ :: _ =>
    simp only [decodeRune, if_neg hc, Bool.and_eq_true, decide_eq_true_eq, isCont_iff, runeError,
      UInt8.le_iff_toNat_le, apply_ite UInt8.toNat, ← UInt8.toNat_inj, UInt8.reduceToNat] at hlt
    split_ifs at hlt <;> dsimp only at hlt <;> omega

theorem mem_of_mem_tokensFrom {skip : Nat} {t : Rune × Bytes} (h : t ∈ tokensFrom skip s)
    (hc : c < 0x80) (ht : t.1 = c.toNat) : c ∈ s := by
  induction s generalizing skip with
  | nil => simp [tokensFrom] at h
  | cons b s ih =>
    cases skip with
    | succ skip => exact mem_cons_of_mem _ (ih h)
    | zero =>
      rcases mem_cons.1 h with rfl | h
      · have hb := decodeRune_of_lt (ht ▸ UInt8.lt_iff_toNat_lt.1 hc)
        exact mem_cons.2 (.inl (UInt8.toNat_inj.1 (ht.symm.trans hb)))
      · exact mem_cons_of_mem _ (ih h)

/-- No rune beyond ASCII has a CR or an LF as its upper case. -/
def UpperClear [UnicodeTables] : Prop :=
  ∀ r, 0x80 ≤ r → UnicodeTables.upper r ≠ 13 ∧ UnicodeTables.upper r ≠ 10

theorem Clear.toUpper [UnicodeTables] (htables : UpperClear) (h : Clear s) :
    Clear (Go.toUpper s) := by
  have hmem {c : UInt8} (hc : c = 13 ∨ c = 10) (hup : c ∈ Go.toUpper s) : c ∈ s := by
    have hascii : c < 0x80 := by rcases hc with rfl | rfl <;> decide
    have hrune := mem_runes_of_mem hascii hup
    rw [runes_toUpper] at hrune
    obtain ⟨r, hr, he⟩ := mem_map.1 hrune
    obtain ⟨t, ht, rfl⟩ := mem_map.1 hr
    refine mem_of_mem_tokensFrom ht hascii ?_
    rcases hc with rfl | rfl <;> grind [scalar, upperRune, UpperClear, runeError]
  exact ⟨fun hb => h.1 (hmem (.inl rfl) hb), fun hb => h.2 (hmem (.inr rfl) hb)⟩

/-! ## Reading -/

theorem Clear.cut {b : Bytes} (h : Clear s) (hcut : Go.cut s c = some (a, b)) :
    Clear a ∧ Clear b := by
  rw [(cut_eq_some.1 hcut).2, clear_append] at h
  exact ⟨h.1, h.2.of_subset (subset_cons_self ..)⟩

theorem Clear.trimLeft (h : Clear s) (cutset : Bytes) : Clear (Go.trimLeft s cutset) :=
  h.of_subset (dropWhile_sublist _).subset

theorem Clear.parseLead {what rest : Bytes} {lead : Option Bytes} (h : Clear raw)
    (hlead : Irc.parseLead c what raw = .ok (lead, rest)) : Clear (lead.getD []) ∧ Clear rest := by
  unfold Irc.parseLead at hlead
  split at hlead
  · split at hlead
    · cases hlead
    · rename_i hcut
      obtain ⟨hword, hrest⟩ := h.cut hcut
      cases Except.ok.inj hlead
      exact ⟨hword.of_subset (drop_subset 1 _), hrest.trimLeft _⟩
  · cases Except.ok.inj hlead
    exact ⟨clear_nil, h⟩

theorem Clear.parseParams {fuel : Nat} (h : Clear raw) : ∀ p ∈ Irc.parseParams fuel raw, Clear p := by
  induction fuel generalizing raw with
  | zero => simp [Irc.parseParams]
  | succ fuel ih =>
    unfold Irc.parseParams
    split
    · simp
    split
    · exact forall_mem_singleton.2 (h.of_subset (drop_subset 1 _))
    split
    · exact forall_mem_singleton.2 h
    · rename_i hcut
      obtain ⟨hword, hrest⟩ := h.cut hcut
      exact forall_mem_cons.2 ⟨hword, ih (hrest.trimLeft _)⟩

theorem Clear.parsePrefix (h : Clear s) : Clear (Irc.parsePrefix s).string := by
  have hnick : Clear (Irc.parsePrefix s).nick :=
    h.of_subset fun _ hb => mem_of_mem_parsePrefix (.inl hb)
  have huser : Clear (Irc.parsePrefix s).user :=
    h.of_subset fun _ hb => mem_of_mem_parsePrefix (.inr (.inl hb))
  have hhost : Clear (Irc.parsePrefix s).host :=
    h.of_subset fun _ hb => mem_of_mem_parsePrefix (.inr (.inr hb))
  have hbang : Clear (lit "!") := by decide
  have hat : Clear (lit "@") := by decide
  unfold Prefix.string
  split_ifs
  · exact hnick
  · simp only [clear_append]
    exact ⟨⟨⟨⟨hnick, hbang⟩, huser⟩, hat⟩, hhost⟩
  · exact hnick

/-! ## Writing -/

theorem clear_escapeTagValue (s : Bytes) : Clear (escapeTagValue s) := by
  refine .flatMap fun b _ => ?_
  unfold escapeByte
  split_ifs with _ _ _ hcr hlf
  all_goals first | decide | exact ⟨by simpa using Ne.symm hcr, by simpa using Ne.symm hlf⟩

theorem clear_formatTags (h : ∀ t ∈ order, Clear t.1) : Clear (formatTags order) := by
  have hjoin (l : List (Sigma fun _ : Bytes => Bytes)) (hl : l ⊆ order) :
      Clear (join (l.map formatTag) (lit ";")) := by
    refine .join (by decide) fun e he => ?_
    obtain ⟨t, ht, rfl⟩ := mem_map.1 he
    refine clear_append.2 ⟨h t (hl ht), ?_⟩
    split
    · exact clear_append.2 ⟨by decide, clear_escapeTagValue _⟩
    · exact clear_nil
  unfold formatTags
  dsimp only
  split
  · exact clear_nil
  · refine clear_append.2 ⟨clear_append.2 ⟨by decide, hjoin _ ?_⟩, by decide⟩
    exact append_subset.2 ⟨filter_subset_self _, filter_subset_self _⟩

theorem clear_formatParams {ps : List Bytes} (h : ∀ p ∈ ps, Clear p) : Clear (formatParams ps) := by
  induction ps with
  | nil => exact clear_nil
  | cons p ps ih =>
    obtain ⟨hp, hps⟩ := forall_mem_cons.1 h
    have hblank : Clear (lit " ") := by decide
    cases ps with
    | nil =>
      refine clear_append.2 ⟨clear_append.2 ⟨hblank, ?_⟩, hp⟩
      split <;> decide
    | cons q ps => exact clear_append.2 ⟨clear_append.2 ⟨hblank, hp⟩, ih hps⟩

/-- **Nothing that is read from a line without line breaks is written with one**, whichever of its
tags are written. -/
theorem clear_format_of_parse [UnicodeTables] (htables : UpperClear) (hraw : Clear raw) {m : Message}
    (h : parse raw = .ok m) {tags : Tags} (hsub : tags.entries ⊆ m.tags.entries)
    (ho : TagOrder { m with tags } order) : Clear (format order { m with tags }) := by
  obtain ⟨-, lead, raw₁, source, raw₂, command, h₁, h₂, -, hparams, htags, hsource, hcommand⟩ :=
    Parsed.of_parse h
  have htrim : trimRight raw (lit "\r\n") ⊆ raw := fun b hb =>
    mem_reverse.1 ((dropWhile_sublist _).subset (mem_reverse.1 hb))
  obtain ⟨hlead, hraw₁⟩ := (hraw.of_subset htrim).parseLead h₁
  obtain ⟨hwho, hraw₂⟩ := hraw₁.parseLead h₂
  have hwords : ∀ p ∈ command :: m.params, Clear p := hparams ▸ hraw₂.parseParams
  obtain ⟨hword, hps⟩ := forall_mem_cons.1 hwords
  have hkeys : m.tags.All fun key _ => Clear key := by
    rw [htags]
    cases lead with
    | none => exact Map.all_empty
    | some lead =>
      intro t ht
      obtain ⟨part, hpart, hkey, -⟩ := all_parseTags t ht
      exact (hlead.split part hpart).of_subset hkey
  refine clear_append.2 ⟨clear_append.2 ⟨clear_append.2
    ⟨clear_formatTags fun t ht => hkeys t (hsub (ho.subset ht)), ?_⟩, ?_⟩, clear_formatParams hps⟩
  · show Clear ((m.source.map _).getD [])
    rw [hsource]
    cases source with
    | none => exact clear_nil
    | some source => exact clear_append.2 ⟨clear_append.2 ⟨by decide, hwho.parsePrefix⟩, by decide⟩
  · show Clear m.command
    rw [hcommand]
    exact hword.toUpper htables

attribute [local instance] asciiTables

theorem clear_format_of_parse_escape :
    ∃ m, parse (lit "@a=x\\r\\n;b JOIN #go") = .ok m ∧
      m.tags.lookup (lit "a") = some (lit "x\r\n") ∧ Clear (format m.tags.entries m) := by
  refine ⟨_, rfl, by decide +kernel, ?_⟩
  have hraw : Clear (lit "@a=x\\r\\n;b JOIN #go") := by decide
  exact clear_format_of_parse (fun r hr =>
      ⟨fun he : r = 13 => absurd hr (he ▸ by decide), fun he : r = 10 => absurd hr (he ▸ by decide)⟩)
    hraw rfl (Subset.refl _) (.refl _)

end Irc
