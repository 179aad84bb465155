import GoProtocols.Irc.Proof.Spelling

/-!
# Reading back a message

What `Parse` returns consists of parts that can be written (`spelled_of_parse`). A message of such
parts is read back from what `Format` writes if it meets the condition `Reformats`, with its tags in
whatever order (`Reformats.parsesBack`). For the command and the parameters alone less is enough
(`Rereads.parse_eq`).
-/

namespace Irc

open Go List

variable {mark : UInt8} {raw s : Bytes} (order : List (Sigma fun _ : Bytes => Bytes)) (m : Message)

/-! ## Parsing, step by step -/

theorem parseLead_none {what : Bytes} (h : raw.head? ≠ some mark) :
    parseLead mark what raw = .ok (none, raw) := if_neg h

theorem parseLead_some (hmark : mark ≠ 32) {word : Bytes} (h : 32 ∉ word)
    (what r : Bytes) :
    parseLead mark what (mark :: (word ++ 32 :: r)) = .ok (some word, trimLeft r (lit " ")) := by
  have hcut : cut (mark :: word ++ 32 :: r) 32 = some (mark :: word, r) :=
    cut_append (by simp [h, hmark.symm]) r
  rw [cons_append] at hcut
  simp [parseLead, hcut]

theorem parseLead_eq_ok (hmark : mark ≠ 32) {what rest : Bytes}
    {lead : Option Bytes} (h : parseLead mark what raw = .ok (lead, rest)) :
    (raw.head? ≠ some mark ∧ lead = none ∧ rest = raw) ∨
      ∃ word r, raw = mark :: (word ++ 32 :: r) ∧ 32 ∉ word ∧ lead = some word ∧
        rest = trimLeft r (lit " ") := by
  unfold parseLead at h
  split at h
  · rename_i hhead
    split at h
    · cases h
    · rename_i word r hcut
      obtain ⟨hword, hraw⟩ := cut_eq_some.1 hcut
      cases Except.ok.inj h
      cases word with
      | nil =>
        rw [hraw] at hhead
        exact absurd (Option.some.inj hhead).symm hmark
      | cons b word =>
        obtain rfl : b = mark := by
          rw [hraw] at hhead
          exact Option.some.inj hhead
        exact .inr ⟨word, r, hraw, fun hm => hword (mem_cons_of_mem _ hm), rfl, rfl⟩
  · rename_i hhead
    cases Except.ok.inj h
    exact .inl ⟨hhead, rfl, rfl⟩

/-- What a successful `Parse` has done. -/
structure Parsed [UnicodeTables] (raw : Bytes) (m : Message) : Prop where
  nonempty : trimRight raw (lit "\r\n") ≠ []
  parts : ∃ tags raw₁ source raw₂ command,
    parseLead 64 (lit "tags") (trimRight raw (lit "\r\n")) = .ok (tags, raw₁) ∧
    parseLead 58 (lit "prefix") raw₁ = .ok (source, raw₂) ∧ raw₂ ≠ [] ∧
    parseParams raw₂.length raw₂ = command :: m.params ∧
    m.tags = (tags.map parseTags).getD ∅ ∧ m.source = source.map parsePrefix ∧
    m.command = toUpper command

section
variable [UnicodeTables]

theorem Parsed.of_parse {m : Message} (h : parse raw = .ok m) : Parsed raw m := by
  simp only [parse, bind, Except.bind, pure, Except.pure, throw, throwThe, MonadExceptOf.throw] at h
  split at h
  · cases h
  rename_i hne
  split at h
  · cases h
  rename_i _ lead₁ h₁
  obtain ⟨tags, raw₁⟩ := lead₁
  split at h
  · cases h
  rename_i _ lead₂ h₂
  obtain ⟨source, raw₂⟩ := lead₂
  split at h
  · cases h
  rename_i hne₂
  split at h
  · cases h
  rename_i command params hparams
  cases h
  exact ⟨hne, tags, raw₁, source, raw₂, command, h₁, h₂, hne₂, hparams, rfl, rfl, rfl⟩

theorem parse_of_steps {raw₁ raw₂ command : Bytes} {params : List Bytes}
    {tags source : Option Bytes} (hne : trimRight raw (lit "\r\n") ≠ [])
    (h₁ : parseLead 64 (lit "tags") (trimRight raw (lit "\r\n")) = .ok (tags, raw₁))
    (h₂ : parseLead 58 (lit "prefix") raw₁ = .ok (source, raw₂)) (hne₂ : raw₂ ≠ [])
    (hparams : parseParams raw₂.length raw₂ = command :: params) :
    parse raw = .ok { tags := (tags.map parseTags).getD ∅, source := source.map parsePrefix
                      command := toUpper command, params } := by
  simp only [parse, bind, Except.bind, pure, Except.pure, if_neg hne, h₁, h₂, if_neg hne₂, hparams]

end

/-! ## Messages that can be written -/

/-- Every part of the message can be written: what `Parse` returns is like this. -/
structure Message.Spelled (m : Message) : Prop where
  tags : ∀ t ∈ m.tags.entries, TagKey t.1
  source : ∀ p ∈ m.source, p.Spelled ∧ 32 ∉ p.nick ∧ 32 ∉ p.user ∧ 32 ∉ p.host
  params : ∀ p ∈ m.params.dropLast, Middle p

theorem all_parseTags :
    (parseTags s).All fun key _ => ∃ part ∈ split s 59, key ⊆ part ∧ 61 ∉ key := by
  refine foldlRecOn (split s 59) parseTag Map.all_empty fun tags h part hpart => ?_
  unfold parseTag
  split
  · exact h
  split
  · rename_i hcut
    obtain ⟨hkey, rfl⟩ := cut_eq_some.1 hcut
    exact h.insert ⟨_, hpart, subset_append_left .., hkey⟩
  · rename_i hcut
    exact h.insert ⟨_, hpart, Subset.refl _, cut_eq_none.1 hcut⟩

theorem tagKey_parseTags (hs : 32 ∉ s) : ∀ t ∈ (parseTags s).entries, TagKey t.1 := by
  intro t ht
  obtain ⟨part, hpart, hsub, hequals⟩ := all_parseTags t ht
  exact ⟨fun hb => sep_notMem_of_mem_split hpart (hsub hb), hequals,
    fun hb => hs (mem_of_mem_split hpart (hsub hb))⟩

theorem mem_of_mem_parsePrefix {b : UInt8}
    (h : b ∈ (parsePrefix s).nick ∨ b ∈ (parsePrefix s).user ∨ b ∈ (parsePrefix s).host) : b ∈ s := by
  have hcut (s : Bytes) (sep : UInt8) :
      ((cut s sep).getD (s, [])).1 ⊆ s ∧ ((cut s sep).getD (s, [])).2 ⊆ s := by
    cases hc : cut s sep with
    | none => simp
    | some q =>
      obtain ⟨-, rfl⟩ := cut_eq_some.1 (show cut s sep = some (q.1, q.2) from hc)
      simp
  have hat := hcut s 64
  have hbang := hcut ((cut s 64).getD (s, [])).1 33
  rcases h with h | h | h
  · exact hat.1 (hbang.1 h)
  · exact hat.1 (hbang.2 h)
  · exact hat.2 h

theorem blank_notMem_head_trimLeft (r : Bytes) : (trimLeft r (lit " ")).head? ≠ some 32 :=
  fun h => trimLeft_head h (by decide)

theorem parseParams_cases (fuel : Nat) (raw : Bytes) :
    (raw = [] ∧ parseParams (fuel + 1) raw = []) ∨
    (∃ t, raw = 58 :: t ∧ parseParams (fuel + 1) raw = [t]) ∨
    (Middle raw ∧ parseParams (fuel + 1) raw = [raw]) ∨
    ∃ w r, raw = w ++ 32 :: r ∧ 32 ∉ w ∧ w.head? ≠ some 58 ∧
      parseParams (fuel + 1) raw = w :: parseParams fuel (trimLeft r (lit " ")) := by
  by_cases hnil : raw = []
  · exact .inl ⟨hnil, by simp [parseParams, hnil]⟩
  by_cases hcolon : raw.head? = some 58
  · obtain ⟨t, rfl⟩ := List.head?_eq_some_iff.1 hcolon
    exact .inr (.inl ⟨t, rfl, parseParams_trailing fuel t⟩)
  cases hcut : cut raw 32 with
  | none =>
    have hmid : Middle raw := ⟨hnil, cut_eq_none.1 hcut, hcolon⟩
    exact .inr (.inr (.inl ⟨hmid, parseParams_word hmid fuel⟩))
  | some q =>
    obtain ⟨hw, hraw⟩ := cut_eq_some.1 (show cut raw 32 = some (q.1, q.2) from hcut)
    have hhead : q.1.head? ≠ some 58 := by
      intro hh
      rw [hraw] at hcolon
      obtain ⟨t, ht⟩ := List.head?_eq_some_iff.1 hh
      simp [ht] at hcolon
    refine .inr (.inr (.inr ⟨q.1, q.2, hraw, hw, hhead, ?_⟩))
    conv_lhs => rw [hraw]
    exact parseParams_cut hw hhead fuel q.2

/-- Of a line that does not begin with a blank, all words but the last can stand before another. -/
theorem middle_of_mem_parseParams {fuel : Nat} (hraw : raw.head? ≠ some 32) :
    ∀ p ∈ (parseParams fuel raw).dropLast, Middle p := by
  induction fuel generalizing raw with
  | zero => intro p hp; cases hp
  | succ fuel ih =>
    rcases parseParams_cases fuel raw with ⟨-, h⟩ | ⟨t, -, h⟩ | ⟨-, h⟩ | ⟨w, r, rfl, hw, hc, h⟩
    · rw [h]; intro p hp; cases hp
    · rw [h]; intro p hp; cases hp
    · rw [h]; intro p hp; cases hp
    · rw [h]
      intro p hp
      cases hrest : parseParams fuel (trimLeft r (lit " ")) with
      | nil =>
        rw [hrest] at hp
        cases hp
      | cons q qs =>
        rw [hrest, dropLast_cons_cons, mem_cons] at hp
        rcases hp with rfl | hp
        · refine ⟨fun hnil => hraw ?_, hw, hc⟩
          simp [hnil]
        · exact ih (blank_notMem_head_trimLeft r) p (hrest ▸ hp)

theorem middle_parseParams {fuel : Nat} {w : Bytes} {ws : List Bytes}
    (h : parseParams fuel raw = w :: ws) : ∀ p ∈ ws.dropLast, Middle p := by
  cases fuel with
  | zero => cases h
  | succ fuel =>
    rcases parseParams_cases fuel raw with ⟨-, h'⟩ | ⟨t, -, h'⟩ | ⟨-, h'⟩ | ⟨w', r, -, -, -, h'⟩
    · rw [h'] at h
      cases h
    · rw [h'] at h
      obtain ⟨-, rfl⟩ := List.cons.inj h
      intro p hp; cases hp
    · rw [h'] at h
      obtain ⟨-, rfl⟩ := List.cons.inj h
      intro p hp; cases hp
    · rw [h'] at h
      obtain ⟨-, rfl⟩ := List.cons.inj h
      exact middle_of_mem_parseParams (blank_notMem_head_trimLeft r)

section
variable [UnicodeTables]

theorem spelled_of_parse {m : Message} (h : parse raw = .ok m) : m.Spelled := by
  obtain ⟨-, tags, raw₁, source, raw₂, command, h₁, h₂, -, hparams, htags, hsource, -⟩ :=
    Parsed.of_parse h
  refine ⟨?_, ?_, middle_parseParams hparams⟩
  · rw [htags]
    rcases parseLead_eq_ok (by decide) h₁ with ⟨-, rfl, -⟩ | ⟨word, r, -, hword, rfl, -⟩
    · intro t ht
      cases ht
    · exact tagKey_parseTags hword
  · rw [hsource]
    rcases parseLead_eq_ok (by decide) h₂ with ⟨-, rfl, -⟩ | ⟨word, r, -, hword, rfl, -⟩
    · intro p hp
      cases hp
    · intro p hp
      obtain rfl : parsePrefix word = p := by simpa using hp
      exact ⟨parsePrefix_spelled word, fun hb => hword (mem_of_mem_parsePrefix (.inl hb)),
        fun hb => hword (mem_of_mem_parsePrefix (.inr (.inl hb))),
        fun hb => hword (mem_of_mem_parsePrefix (.inr (.inr hb)))⟩

end

/-! ## The text of a message -/

def sourceText : Bytes :=
  (m.source.map fun p => 58 :: (p.string ++ [32])).getD []

def bodyText : Bytes := m.command ++ formatParams m.params

theorem format_eq : format order m = formatTags order ++ (sourceText m ++ bodyText m) := by
  have hblank : lit " " = [32] := by decide
  have hcolon : lit ":" = [58] := by decide
  cases hs : m.source <;> simp [format, sourceText, bodyText, hs, hblank, hcolon]

/-- The messages agree in all that Go can tell apart: not in the order of the tags. -/
structure Message.Equiv (m m' : Message) : Prop where
  tags : ∀ k, m.tags.lookup k = m'.tags.lookup k
  source : m.source = m'.source
  command : m.command = m'.command
  params : m.params = m'.params

/-- What it takes for the command and the parameters of a message to be read back. -/
structure Rereads [UnicodeTables] (m : Message) : Prop where
  tags : ∀ t ∈ m.tags.entries, TagKey t.1
  source : ∀ p ∈ m.source, 32 ∉ p.string
  params : ∀ p ∈ m.params.dropLast, Middle p
  upper : toUpper m.command = m.command
  blank : 32 ∉ m.command
  colon : m.command.head? ≠ some 58
  at_sign : m.tags.entries = [] → m.source = none → m.command.head? ≠ some 64
  nonempty : m.command = [] → m.tags.entries = [] ∧ m.source = none ∧ m.params ≠ []
  last : ∀ b ∈ (m.params.getLastD m.command).getLast?, b ≠ 13 ∧ b ≠ 10

/-- What it takes for a message to be read back. -/
structure Reformats [UnicodeTables] (m : Message) : Prop where
  tags : m.tags.lookup [] ≠ some []
  source : ∀ p ∈ m.source, p.user = [] ∨ p.host ≠ []
  upper : toUpper m.command = m.command
  blank : 32 ∉ m.command
  colon : m.command.head? ≠ some 58
  at_sign : m.tags.entries = [] → m.source = none → m.command.head? ≠ some 64
  nonempty : m.command = [] → m.tags.entries = [] ∧ m.source = none ∧ m.params ≠ []
  last : ∀ b ∈ (m.params.getLastD m.command).getLast?, b ≠ 13 ∧ b ≠ 10

/-- The last byte of the text is that of the last parameter, or the colon before an empty one. -/
theorem getLast?_format (w : Bytes) (ps : List Bytes) :
    (w ++ formatParams ps).getLast? =
      (ps.getLastD w).getLast?.or (if ps = [] then none else some 58) := by
  induction ps generalizing w with
  | nil => simp [formatParams]
  | cons p ps ih =>
    cases ps with
    | nil =>
      rw [formatParams_single]
      split
      · cases hp : p.getLast? <;> simp [hp, List.getLast?_cons]
      · rename_i hcolon
        have hp := (middle_of_not_colonLast hcolon).nonempty
        simp [List.getLast?_cons, List.getLast?_eq_some_getLast hp]
    | cons q qs =>
      have hlast := ih p
      rw [if_neg (by simp)] at hlast
      rw [formatParams_cons p (by simp), List.getLast?_append, List.getLast?_cons, hlast,
        if_neg (by simp)]
      simp only [getLastD_cons]
      cases (qs.getLastD q).getLast? <;> rfl

/-! ## Enough to be read back -/

theorem trimLeft_blank (h : s.head? ≠ some 32) : trimLeft s (lit " ") = s := by
  refine trimLeft_of_head fun b hb hmem => h ?_
  have hblank : lit " " = [32] := by decide
  rw [hblank, mem_singleton] at hmem
  exact hmem ▸ hb

theorem head?_bodyText :
    (bodyText m).head? = m.command.head?.or (if m.params = [] then none else some 32) := by
  cases hc : m.command with
  | cons b c => simp [bodyText, hc]
  | nil =>
    cases hp : m.params with
    | nil => simp [bodyText, hc, hp, formatParams]
    | cons p ps =>
      cases ps with
      | nil => simp [bodyText, hc, hp, formatParams_single]
      | cons q qs => simp [bodyText, hc, hp, formatParams_cons]

section
variable {m : Message} {order : List (Sigma fun _ : Bytes => Bytes)}

theorem parseLead_formatTags (htags : ∀ t ∈ m.tags.entries, TagKey t.1) (ho : TagOrder m order)
    (rest : Bytes) (hblank : order ≠ [] → rest.head? ≠ some 32)
    (hat : order = [] → rest.head? ≠ some 64) :
    parseLead 64 (lit "tags") (formatTags order ++ rest) =
      .ok (if order = [] then none else some (tagText order), rest) := by
  rw [formatTags_eq]
  by_cases hnil : order = []
  · rw [if_pos hnil, if_pos hnil, nil_append]
    exact parseLead_none (hat hnil)
  · rw [if_neg hnil, if_neg hnil, cons_append, append_assoc, singleton_append,
      parseLead_some (by decide) (blank_notMem_tagText ho htags), trimLeft_blank (hblank hnil)]

theorem parseLead_sourceText (hsource : ∀ p ∈ m.source, 32 ∉ p.string) (rest : Bytes)
    (hblank : m.source ≠ none → rest.head? ≠ some 32)
    (hcolon : m.source = none → rest.head? ≠ some 58) :
    parseLead 58 (lit "prefix")
    (sourceText m ++ rest) = .ok (m.source.map Prefix.string, rest) := by
  cases hs : m.source with
  | none =>
    rw [sourceText, hs]
    exact parseLead_none (hcolon hs)
  | some p =>
    have hlead := parseLead_some (show (58 : UInt8) ≠ 32 by decide) (hsource p hs) (lit "prefix")
      rest
    rw [trimLeft_blank (hblank (by simp [hs]))] at hlead
    simpa [sourceText, hs] using hlead

theorem head?_sourceText {p : Prefix} (hs : m.source = some p) (rest : Bytes) :
    (sourceText m ++ rest).head? = some 58 := by
  simp [sourceText, hs]

theorem sourceText_of_none (hs : m.source = none) : sourceText m = [] := by
  simp [sourceText, hs]

theorem bodyText_head_ne {b : UInt8} (hb : b ≠ 32) (hc : m.command.head? ≠ some b) :
    (bodyText m).head? ≠ some b := by
  rw [head?_bodyText]
  intro hh
  rcases Option.or_eq_some_iff.1 hh with hh | ⟨-, hh⟩
  · exact hc hh
  · split at hh
    · cases hh
    · exact hb (Option.some.inj hh).symm

def readTags (order : List (Sigma fun _ : Bytes => Bytes)) : Tags :=
  ((if order = [] then none else some (tagText order)).map parseTags).getD ∅

theorem lookup_readTags (h : m.Spelled) (ho : TagOrder m order) (k : Bytes) :
    (readTags order).lookup k =
      (m.tags.lookup k).elim none fun v => if TagLost ⟨k, v⟩ then none else some v := by
  by_cases hnil : order = []
  · have hnone : m.tags.lookup k = none := by
      rw [AList.lookup, ho.nil_iff.1 hnil]
      rfl
    rw [hnone, readTags, if_pos hnil]
    rfl
  · rw [readTags, if_neg hnil]
    exact lookup_parseTags ho h.tags hnil k

/-- All tags are read back but one that is empty altogether. -/
theorem lookup_readTags_iff (h : m.Spelled) (ho : TagOrder m order) :
    (∀ k, (readTags order).lookup k = m.tags.lookup k) ↔ m.tags.lookup [] ≠ some [] := by
  constructor
  · intro hall hlost
    have hnone := lookup_readTags h ho []
    rw [hall, hlost] at hnone
    simp [TagLost] at hnone
  · intro hkept k
    rw [lookup_readTags h ho]
    cases hk : m.tags.lookup k with
    | none => rfl
    | some v =>
      refine if_neg ?_
      rintro ⟨rfl, rfl⟩
      exact hkept hk

/-- The prefix is read back but for a user without a host. -/
theorem map_parsePrefix_iff (h : m.Spelled) :
    (m.source.map Prefix.string).map parsePrefix = m.source ↔
      ∀ p ∈ m.source, p.user = [] ∨ p.host ≠ [] := by
  cases hs : m.source with
  | none => simp
  | some p =>
    have hp := parsePrefix_string (h.source p hs).1
    by_cases hhost : p.host = []
    · rw [if_pos hhost] at hp
      simp only [Option.map_some, hp, Option.some.injEq, Option.mem_def, forall_eq']
      constructor
      · intro he
        exact .inl (he ▸ rfl)
      · rintro (huser | hne)
        · cases p
          simp_all
        · exact absurd hhost hne
    · rw [if_neg hhost] at hp
      simp [hp, hhost]

variable [UnicodeTables]

theorem Rereads.bodyText_ne_nil (hr : Rereads m) : bodyText m ≠ [] := by
  intro hnil
  have hhead := head?_bodyText m
  rw [hnil] at hhead
  cases hc : m.command with
  | cons b c =>
    rw [hc] at hhead
    cases hhead
  | nil =>
    rw [hc, if_neg (hr.nonempty hc).2.2] at hhead
    cases hhead

theorem Rereads.trimRight (hr : Rereads m) :
    Go.trimRight (format order m) (lit "\r\n") = format order m := by
  have hcrlf : lit "\r\n" = [13, 10] := by decide
  refine trimRight_of_last fun b hb => ?_
  obtain ⟨c, hc⟩ : ∃ c, (bodyText m).getLast? = some c :=
    ⟨_, List.getLast?_eq_some_getLast hr.bodyText_ne_nil⟩
  have hlast := getLast?_format m.command m.params
  rw [format_eq, List.getLast?_append, List.getLast?_append, hc] at hb
  obtain rfl : c = b := by simpa using hb
  rw [show m.command ++ formatParams m.params = bodyText m from rfl, hc] at hlast
  rw [hcrlf]
  cases hl : (m.params.getLastD m.command).getLast? with
  | some d =>
    rw [hl] at hlast
    obtain rfl : c = d := by simpa using hlast
    have hd := hr.last c hl
    simp [hd.1, hd.2]
  | none =>
    rw [hl] at hlast
    split at hlast
    · cases hlast
    · obtain rfl : c = 58 := by simpa using hlast
      decide

theorem Rereads.head_ne_blank (hr : Rereads m)
    (hlead : ¬ (m.tags.entries = [] ∧ m.source = none)) : (bodyText m).head? ≠ some 32 := by
  intro hb
  rw [head?_bodyText] at hb
  cases hc : m.command with
  | nil => exact hlead ⟨(hr.nonempty hc).1, (hr.nonempty hc).2.1⟩
  | cons b c =>
    rw [hc] at hb
    obtain rfl : b = 32 := by simpa using hb
    exact hr.blank (by simp [hc])

/-- **The command and the parameters are read back**, and the tags and the prefix as far as they
can be written. -/
theorem Rereads.parse_eq (hr : Rereads m) (ho : TagOrder m order) :
    parse (format order m) = .ok
      { tags := readTags order, source := (m.source.map Prefix.string).map parsePrefix
        command := m.command, params := m.params } := by
  have hbody := hr.bodyText_ne_nil
  have h₁ := parseLead_formatTags hr.tags ho (sourceText m ++ bodyText m)
    (fun hne => by
      cases hs : m.source with
      | some p =>
        rw [head?_sourceText hs]
        decide
      | none =>
        rw [sourceText_of_none hs]
        exact hr.head_ne_blank fun hlead => hne (ho.nil_iff.2 hlead.1))
    (fun hnil => by
      cases hs : m.source with
      | some p =>
        rw [head?_sourceText hs]
        decide
      | none =>
        rw [sourceText_of_none hs]
        exact bodyText_head_ne (by decide) (hr.at_sign (ho.nil_iff.1 hnil) hs))
  rw [← format_eq] at h₁
  have h₂ := parseLead_sourceText hr.source (bodyText m)
    (fun hs => hr.head_ne_blank fun hlead => hs hlead.2)
    (fun _ => bodyText_head_ne (by decide) hr.colon)
  have hparams : parseParams (bodyText m).length (bodyText m) = m.command :: m.params := by
    refine parseParams_format hr.blank hr.colon ?_ hr.params le_rfl
    by_cases hc : m.command = []
    · exact .inr (hr.nonempty hc).2.2
    · exact .inl hc
  have hne : Go.trimRight (format order m) (lit "\r\n") ≠ [] := by
    rw [hr.trimRight, format_eq]
    simp [hbody]
  rw [parse_of_steps hne (hr.trimRight.symm ▸ h₁) h₂ hbody hparams, hr.upper]
  rfl

theorem Reformats.rereads (hr : Reformats m) (h : m.Spelled) : Rereads m where
  tags := h.tags
  source p hp := blank_notMem_string (h.source p hp).2.1 (h.source p hp).2.2.1 (h.source p hp).2.2.2
  params := h.params
  upper := hr.upper
  blank := hr.blank
  colon := hr.colon
  at_sign := hr.at_sign
  nonempty := hr.nonempty
  last := hr.last

theorem Reformats.parsesBack (h : m.Spelled) (ho : TagOrder m order) (hr : Reformats m) :
    ∃ m', parse (format order m) = .ok m' ∧ m'.Equiv m := by
  refine ⟨_, (hr.rereads h).parse_eq ho, ?_, ?_, rfl, rfl⟩
  · exact (lookup_readTags_iff h ho).2 hr.tags
  · exact (map_parsePrefix_iff h).2 hr.source

end

end Irc
