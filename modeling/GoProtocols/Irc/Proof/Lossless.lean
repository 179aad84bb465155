import GoProtocols.Irc.Proof.Reparse

/-!
# No less to be read back

The condition `Reformats` is not only enough (`Irc/Proof/Reparse.lean`): a message that is read back
meets it. The argument counts runes. What `Parse` takes for command and parameters has, with a blank
before each parameter, at most the runes of the text it reads (`weight_parseParams`), and `Format`
writes no more than these, but for a colon (`runeCount_format`). So where the message comes back,
nothing of the text was skipped (`bodyText_of_cuts`), and it was taken apart where it was put
together.
-/

namespace Irc

open Go List

variable {raw₁ s t : Bytes} {tags : Option Bytes} (w : Bytes) (ps : List Bytes) {m : Message}
  {fuel : Nat} {raw command : Bytes} (ws : List Bytes)

/-! ## Counting -/

def runeCount (s : Bytes) : Nat := (runes s).length

theorem runeCount_append {b : UInt8} (hb : b < 0x80) (a s : Bytes) :
    runeCount (a ++ b :: s) = runeCount a + 1 + runeCount s := by
  simp only [runeCount, runes_append_ascii a hb, length_append, length_cons]
  omega

theorem runeCount_cons {b : UInt8} (hb : b < 0x80) (s : Bytes) :
    runeCount (b :: s) = 1 + runeCount s := by
  simpa [runeCount] using runeCount_append hb [] s

def weight : Nat := (ws.map fun w => runeCount w + 1).sum

@[simp] theorem weight_nil : weight [] = 0 := rfl

@[simp] theorem weight_cons : weight (w :: ws) = runeCount w + 1 + weight ws := by
  simp [weight]

theorem runeCount_le_weight {w : Bytes} {ws : List Bytes} (h : w ∈ ws) :
    runeCount w + 1 ≤ weight ws := by
  induction ws with
  | nil => cases h
  | cons v ws ih =>
    rw [weight_cons]
    rcases mem_cons.1 h with rfl | h
    · omega
    · have := ih h
      omega

/-! ## Cuts -/

/-- The text `t` is `s` from its start, or from a blank on. -/
def Cuts (s t : Bytes) : Prop := t = s ∨ ∃ r, s = r ++ 32 :: t

theorem Cuts.trans {u : Bytes} (h : Cuts s t) (h' : Cuts t u) : Cuts s u := by
  rcases h with rfl | ⟨r, rfl⟩
  · exact h'
  · rcases h' with rfl | ⟨r', rfl⟩
    · exact .inr ⟨r, rfl⟩
    · exact .inr ⟨r ++ 32 :: r', by simp⟩

theorem cuts_trimLeft (s : Bytes) : Cuts s (trimLeft s (lit " ")) := by
  obtain ⟨w, hw, hs⟩ := trimLeft_split s (lit " ")
  have hblank : lit " " = [32] := by decide
  rcases eq_nil_or_concat w with rfl | ⟨w, b, rfl⟩
  · exact .inl hs.symm
  · obtain rfl : b = 32 := by simpa [hblank] using hw b (by simp)
    refine .inr ⟨w, ?_⟩
    simpa using hs

theorem Cuts.runeCount_lt (h : Cuts s t) (hne : t ≠ s) : runeCount t < runeCount s := by
  rcases h with rfl | ⟨r, rfl⟩
  · exact absurd rfl hne
  · rw [runeCount_append (by decide)]
    omega

theorem Cuts.runeCount_le (h : Cuts s t) : runeCount t ≤ runeCount s := by
  by_cases hne : t = s
  · rw [hne]
  · exact (h.runeCount_lt hne).le

/-! ## What the words of a line weigh -/

def HasColon (s : Bytes) : Prop := s.head? = some 58 ∨ [32, 58] <:+: s

theorem hasColon_append {w r : Bytes} (hw : 32 ∉ w) (h : HasColon (w ++ 32 :: r))
    (hc : w.head? ≠ some 58) : HasColon r := by
  rcases h with h | ⟨x, y, h⟩
  · cases w with
    | nil => simp at h
    | cons b w => exact absurd (by simpa using h) hc
  · -- the blank before the colon is the one after `w` or stands in `r`
    rw [append_assoc] at h
    rcases append_eq_append_iff.1 h with ⟨a, rfl, ha⟩ | ⟨a, rfl, ha⟩
    · cases a with
      | nil =>
        obtain ⟨-, rfl⟩ := List.cons.inj (show 32 :: 58 :: y = 32 :: r from ha)
        exact .inl rfl
      | cons b a =>
        obtain ⟨rfl, -⟩ := List.cons.inj ha
        exact absurd (by simp) hw
    · cases a with
      | nil =>
        obtain ⟨-, rfl⟩ := List.cons.inj (show 32 :: r = 32 :: 58 :: y from ha)
        exact .inl rfl
      | cons b a =>
        obtain ⟨-, rfl⟩ := List.cons.inj ha
        exact .inr ⟨a, y, by simp⟩

/-- **The words of a line weigh no more than the line**, and less if a word begins with a colon. -/
theorem weight_parseParams (fuel : Nat) (raw : Bytes) :
    weight (parseParams fuel raw) ≤ runeCount raw + 1 ∧
      (HasColon raw → weight (parseParams fuel raw) ≤ runeCount raw) := by
  induction fuel generalizing raw with
  | zero => simp [parseParams]
  | succ fuel ih =>
    rcases parseParams_cases fuel raw with ⟨-, h⟩ | ⟨t, rfl, h⟩ | ⟨hmid, h⟩ | ⟨w, r, rfl, hw, hc, h⟩
    · simp [h]
    · rw [h, runeCount_cons (by decide)]
      simp only [weight_cons, weight_nil]
      omega
    · rw [h]
      simp only [weight_cons, weight_nil]
      refine ⟨by omega, fun hcolon => ?_⟩
      rcases hcolon with hcolon | ⟨x, y, hxy⟩
      · exact absurd hcolon hmid.colon
      · exact absurd (hxy ▸ by simp) hmid.blank
    · obtain ⟨hle, hlt⟩ := ih (trimLeft r (lit " "))
      have htrim := (cuts_trimLeft r).runeCount_le
      rw [h, weight_cons, runeCount_append (by decide)]
      refine ⟨by omega, fun hcolon => ?_⟩
      by_cases hr : trimLeft r (lit " ") = r
      · rw [hr] at hlt ⊢
        have := hlt (hasColon_append hw hcolon hc)
        omega
      · have := (cuts_trimLeft r).runeCount_lt hr
        omega

def colonLast : Option Bytes := ps.getLast?.filter fun p => ColonLast p

/-- What `Format` writes weighs what it writes down, but for the colon. -/
theorem runeCount_format :
    runeCount (w ++ formatParams ps) + 1 =
      weight (w :: ps) + if (colonLast ps).isSome then 1 else 0 := by
  induction ps generalizing w with
  | nil => simp [formatParams, colonLast]
  | cons p ps ih =>
    cases ps with
    | nil =>
      rw [formatParams_single, runeCount_append (by decide)]
      by_cases hp : ColonLast p
      · rw [if_pos hp, runeCount_cons (by decide)]
        simp [colonLast, hp]
        omega
      · simp [colonLast, hp]
        omega
    | cons q qs =>
      have hlast : colonLast (p :: q :: qs) = colonLast (q :: qs) := by
        simp [colonLast, List.getLast?_cons_cons]
      have := ih p
      rw [formatParams_cons p (by simp), runeCount_append (by decide), hlast, weight_cons]
      omega

theorem formatParams_colonLast {ps : List Bytes} {p : Bytes} (h : colonLast ps = some p) :
    p ∈ ps ∧ ∃ x, formatParams ps = x ++ 32 :: 58 :: p := by
  induction ps with
  | nil => cases h
  | cons q ps ih =>
    cases ps with
    | nil =>
      obtain ⟨hq, hcolon⟩ := Option.filter_eq_some_iff.1 h
      obtain rfl : q = p := by simpa using hq
      refine ⟨by simp, [], ?_⟩
      rw [formatParams_single, if_pos (by simpa using hcolon)]
      rfl
    | cons r rs =>
      have hlast : colonLast (q :: r :: rs) = colonLast (r :: rs) := by
        simp [colonLast, List.getLast?_cons_cons]
      obtain ⟨hmem, x, hx⟩ := ih (hlast ▸ h)
      refine ⟨mem_cons_of_mem _ hmem, 32 :: (q ++ x), ?_⟩
      rw [formatParams_cons q (by simp), hx]
      simp

/-! ## Nothing is skipped -/

/-- A cut of a text that ends in a word with a colon keeps the colon, or is a cut of the word. -/
theorem hasColon_of_cuts {x p : Bytes} (h : Cuts (x ++ 32 :: 58 :: p) raw) :
    HasColon raw ∨ runeCount raw < runeCount p := by
  rcases h with rfl | ⟨r, hr⟩
  · exact .inl (.inr ⟨x, p, by simp⟩)
  · rcases append_eq_append_iff.1 hr with ⟨a, -, ha⟩ | ⟨a, -, ha⟩
    · match a with
      | [] =>
        obtain ⟨-, rfl⟩ := List.cons.inj (show 32 :: 58 :: p = 32 :: raw from ha)
        exact .inl (.inl rfl)
      | [b] => simp at ha
      | b :: c :: a =>
        obtain rfl : p = a ++ 32 :: raw := by simpa using (List.cons.inj (List.cons.inj ha).2).2
        right
        rw [runeCount_append (by decide)]
        omega
    · cases a with
      | nil =>
        obtain ⟨-, rfl⟩ := List.cons.inj (show 32 :: raw = 32 :: 58 :: p from ha)
        exact .inl (.inl rfl)
      | cons b a =>
        obtain ⟨-, rfl⟩ := List.cons.inj (show 32 :: raw = b :: (a ++ 32 :: 58 :: p) from ha)
        exact .inl (.inr ⟨a, p, by simp⟩)

theorem runeCount_trimRight_lt (h : trimRight s (lit "\r\n") ≠ s) :
    runeCount (trimRight s (lit "\r\n")) < runeCount s := by
  obtain ⟨w, hw, hs⟩ := trimRight_split s (lit "\r\n")
  cases w with
  | nil => exact absurd (by simpa using hs.symm) h
  | cons b w =>
    have hb : b < 0x80 := by
      have hcrlf : lit "\r\n" = [13, 10] := by decide
      have hmem := hw b (by simp)
      rw [hcrlf] at hmem
      rcases mem_cons.1 hmem with rfl | hmem
      · decide
      · obtain rfl := mem_singleton.1 hmem
        decide
    conv_rhs => rw [hs]
    rw [runeCount_append hb]
    omega

/-- **If the parameters come back, and a command of as many runes, nothing of the text was
skipped.** -/
theorem bodyText_of_cuts (hcuts : Cuts (trimRight (bodyText m) (lit "\r\n")) raw)
    (hparams : parseParams fuel raw = command :: m.params)
    (hcommand : runeCount command = runeCount m.command) :
    raw = bodyText m ∧ trimRight (bodyText m) (lit "\r\n") = bodyText m := by
  have hformat : runeCount (bodyText m) + 1 = _ := runeCount_format m.command m.params
  have hweight := weight_parseParams fuel raw
  rw [hparams, weight_cons, hcommand, ← weight_cons] at hweight
  have hle : runeCount (bodyText m) ≤ runeCount raw := by
    cases hlast : colonLast m.params with
    | none =>
      rw [hlast] at hformat
      simp only [Option.isSome_none, Bool.false_eq_true, if_false] at hformat
      omega
    | some p =>
      rw [hlast] at hformat
      simp only [Option.isSome_some, if_true] at hformat
      obtain ⟨hmem, x, hx⟩ := formatParams_colonLast hlast
      have hbody : bodyText m = (m.command ++ x ++ [32]) ++ 58 :: p := by simp [bodyText, hx]
      have htrim : trimRight (bodyText m) (lit "\r\n") =
          (m.command ++ x) ++ 32 :: 58 :: trimRight p (lit "\r\n") := by
        rw [hbody, trimRight_append (by decide)]
        simp
      rw [htrim] at hcuts
      rcases hasColon_of_cuts hcuts with hcolon | hlt
      · have := hweight.2 hcolon
        omega
      · have hp : runeCount (trimRight p (lit "\r\n")) ≤ runeCount p := by
          by_cases he : trimRight p (lit "\r\n") = p
          · rw [he]
          · exact (runeCount_trimRight_lt he).le
        have hin := runeCount_le_weight hmem
        rw [weight_cons] at hweight
        omega
  have htrim : trimRight (bodyText m) (lit "\r\n") = bodyText m := by
    by_contra hne
    have := runeCount_trimRight_lt hne
    have := hcuts.runeCount_le
    omega
  refine ⟨?_, htrim⟩
  by_contra hne
  rw [htrim] at hcuts
  have := hcuts.runeCount_lt hne
  omega

/-! ## The text is taken apart where it was put together -/

section
variable {m : Message} {order : List (Sigma fun _ : Bytes => Bytes)} {p : Prefix}
  {source : Option Bytes} {raw₂ : Bytes}

theorem trimRight_format (order : List (Sigma fun _ : Bytes => Bytes)) (m : Message) :
    trimRight (format order m) (lit "\r\n") =
      formatTags order ++ (sourceText m ++ trimRight (bodyText m) (lit "\r\n")) := by
  have hend : formatTags order ++ sourceText m = [] ∨
      ∃ a, formatTags order ++ sourceText m = a ++ [32] := by
    cases hs : m.source with
    | some p => exact .inr ⟨formatTags order ++ 58 :: p.string, by simp [sourceText, hs]⟩
    | none =>
      rw [formatTags_eq, sourceText_of_none hs, append_nil]
      by_cases hnil : order = []
      · exact .inl (if_pos hnil)
      · exact .inr ⟨64 :: tagText order, by rw [if_neg hnil]; simp⟩
  rw [format_eq, ← append_assoc, ← append_assoc]
  rcases hend with hend | ⟨a, ha⟩
  · rw [hend, nil_append, nil_append]
  · rw [ha, append_assoc, append_assoc, singleton_append, singleton_append,
      trimRight_append (by decide)]

/-- Where the text of the command begins, as `Parse` finds it. -/
structure Rest (m : Message) (order : List (Sigma fun _ : Bytes => Bytes)) (tags source : Option Bytes)
    (raw : Bytes) : Prop where
  tags : order ≠ [] → tags = some (tagText order)
  source : m.source ≠ none → source = m.source.map Prefix.string
  cuts : Cuts (trimRight (bodyText m) (lit "\r\n")) raw
  blank : order ≠ [] ∨ m.source ≠ none → raw.head? ≠ some 32
  at_sign : order = [] → m.source = none → raw = trimRight (bodyText m) (lit "\r\n") →
    raw.head? ≠ some 64

/-- The tags are taken off, or what looks like tags. -/
theorem rest_tags (h : m.Spelled) (ho : TagOrder m order) {rest : Bytes}
    (h₁ : parseLead 64 (lit "tags") (formatTags order ++ rest) = .ok (tags, raw₁)) :
    (order ≠ [] → tags = some (tagText order) ∧ raw₁ = trimLeft rest (lit " ")) ∧
      (order = [] → (raw₁ = rest ∧ rest.head? ≠ some 64) ∨
        rest.head? = some 64 ∧ Cuts rest raw₁ ∧ raw₁ ≠ rest) := by
  rw [formatTags_eq] at h₁
  constructor
  · intro hne
    rw [if_neg hne, cons_append, append_assoc, singleton_append,
      parseLead_some (by decide) (blank_notMem_tagText ho h.tags)] at h₁
    cases Except.ok.inj h₁
    exact ⟨rfl, rfl⟩
  · intro hnil
    rw [if_pos hnil, nil_append] at h₁
    rcases parseLead_eq_ok (by decide) h₁ with ⟨hhead, -, rfl⟩ | ⟨word, r, rfl, -, -, rfl⟩
    · exact .inl ⟨rfl, hhead⟩
    · have hcut : Cuts (64 :: (word ++ 32 :: r)) r := .inr ⟨64 :: word, rfl⟩
      have hcuts := hcut.trans (cuts_trimLeft r)
      refine .inr ⟨rfl, hcuts, fun he => ?_⟩
      have hlt := hcut.runeCount_lt fun he' => by
        have := congrArg List.length he'
        simp at this
        omega
      have hle := (cuts_trimLeft r).runeCount_le
      rw [he] at hle
      omega

theorem rest_of_source (hs : m.source = some p) (h : m.Spelled) (ho : TagOrder m order)
    (h₁ : parseLead 64 (lit "tags") (formatTags order ++
      (sourceText m ++ trimRight (bodyText m) (lit "\r\n"))) = .ok (tags, raw₁))
    (h₂ : parseLead 58 (lit "prefix") raw₁ = .ok (source, raw₂)) :
    Rest m order tags source raw₂ := by
  obtain ⟨hne, hnil⟩ := rest_tags h ho h₁
  have hhead := head?_sourceText hs (trimRight (bodyText m) (lit "\r\n"))
  have hraw₁ : raw₁ = sourceText m ++ trimRight (bodyText m) (lit "\r\n") := by
    by_cases ho' : order = []
    · rcases hnil ho' with ⟨hr, -⟩ | ⟨hat, -⟩
      · exact hr
      · exact absurd (hhead.symm.trans hat) (by decide)
    · rw [(hne ho').2]
      exact trimLeft_blank (hhead ▸ by decide)
  obtain ⟨-, hn, hu, hh⟩ := h.source p hs
  have hlead := parseLead_some (show (58 : UInt8) ≠ 32 by decide) (blank_notMem_string hn hu hh)
    (lit "prefix") (trimRight (bodyText m) (lit "\r\n"))
  have htext : raw₁ = 58 :: (p.string ++ 32 :: trimRight (bodyText m) (lit "\r\n")) := by
    rw [hraw₁]
    simp [sourceText, hs]
  rw [htext, hlead] at h₂
  cases Except.ok.inj h₂
  exact ⟨fun ho' => (hne ho').1, fun _ => by simp [hs], cuts_trimLeft _,
    fun _ => blank_notMem_head_trimLeft _, fun _ hs' => absurd hs' (by simp [hs])⟩

theorem rest_of_no_source (hs : m.source = none) (h : m.Spelled) (ho : TagOrder m order)
    (h₁ : parseLead 64 (lit "tags") (formatTags order ++
      (sourceText m ++ trimRight (bodyText m) (lit "\r\n"))) = .ok (tags, raw₁))
    (h₂ : parseLead 58 (lit "prefix") raw₁ = .ok (none, raw₂)) : Rest m order tags none raw₂ := by
  obtain ⟨hne, hnil⟩ := rest_tags h ho h₁
  rw [sourceText_of_none hs, nil_append] at hne hnil
  rcases parseLead_eq_ok (by decide) h₂ with ⟨-, -, rfl⟩ | ⟨_, _, _, _, hnone, _⟩
  · refine ⟨fun ho' => (hne ho').1, fun hs' => absurd hs hs', ?_, ?_, ?_⟩
    · by_cases ho' : order = []
      · rcases hnil ho' with ⟨hr, -⟩ | ⟨-, hcuts, -⟩
        · exact .inl hr
        · exact hcuts
      · rw [(hne ho').2]
        exact cuts_trimLeft _
    · rintro (ho' | hs')
      · rw [(hne ho').2]
        exact blank_notMem_head_trimLeft _
      · exact absurd hs hs'
    · intro ho' _ hraw
      rcases hnil ho' with ⟨-, hat⟩ | ⟨-, -, hr⟩
      · rwa [hraw]
      · exact absurd hraw hr
  · cases hnone

end

section
variable {m m' : Message} {order : List (Sigma fun _ : Bytes => Bytes)}

/-- If the whole text is read as the words of the line, the command is in one piece. -/
theorem command_of_parseParams (hparams : parseParams (fuel + 1) (bodyText m) = command :: m.params)
    (hcommand : runeCount command = runeCount m.command) :
    32 ∉ m.command ∧ m.command.head? ≠ some 58 := by
  have hcolon : m.command.head? ≠ some 58 := by
    intro hc
    obtain ⟨t, ht⟩ := List.head?_eq_some_iff.1 hc
    rw [bodyText, ht, cons_append, parseParams_trailing] at hparams
    obtain ⟨rfl, hnil⟩ := List.cons.inj hparams
    rw [← hnil, ht, runeCount_cons (by decide)] at hcommand
    simp [formatParams] at hcommand
  refine ⟨fun hb => ?_, hcolon⟩
  obtain ⟨w, r, hwr, hw⟩ := eq_append_cons_of_mem hb
  have hhead : w.head? ≠ some 58 := by
    intro hc
    obtain ⟨t, rfl⟩ := List.head?_eq_some_iff.1 hc
    exact hcolon (by simp [hwr])
  rw [bodyText, hwr, append_assoc, cons_append, parseParams_cut hw hhead] at hparams
  obtain ⟨rfl, -⟩ := List.cons.inj hparams
  rw [hwr, runeCount_append (by decide)] at hcommand
  omega

variable [UnicodeTables]

theorem Reformats.of_parse_format (h : m.Spelled) (ho : TagOrder m order)
    (hp : parse (format order m) = .ok m') (he : m'.Equiv m) : Reformats m := by
  obtain ⟨-, tags, raw₁, source, raw₂, command, h₁, h₂, hne₂, hparams, htags, hsource, hupper⟩ :=
    Parsed.of_parse hp
  rw [trimRight_format] at h₁
  rw [he.params] at hparams
  rw [he.command] at hupper
  have hrest : Rest m order tags source raw₂ := by
    cases hs : m.source with
    | some p => exact rest_of_source hs h ho h₁ h₂
    | none =>
      obtain rfl : source = none := by
        rw [he.source, hs] at hsource
        exact Option.map_eq_none_iff.1 hsource.symm
      exact rest_of_no_source hs h ho h₁ h₂
  have hcount : runeCount command = runeCount m.command := hupper ▸ (length_runes_toUpper _).symm
  obtain ⟨rfl, htrim⟩ := bodyText_of_cuts hrest.cuts hparams hcount
  obtain ⟨n, hn⟩ : ∃ n, (bodyText m).length = n + 1 :=
    ⟨(bodyText m).length - 1, by have := length_pos_iff.2 hne₂; omega⟩
  obtain ⟨hblank, hcolon⟩ := command_of_parseParams (hn ▸ hparams) hcount
  have hhead := head?_bodyText m
  have hwords : m.command ≠ [] ∨ m.params ≠ [] := by
    by_contra hnot
    push Not at hnot
    exact hne₂ (by simp [bodyText, hnot.1, hnot.2, formatParams])
  have hlead : m.command = [] → ¬ (order ≠ [] ∨ m.source ≠ none) := by
    intro hc hlead
    have hps := hwords.resolve_left (not_not.2 hc)
    refine hrest.blank hlead ?_
    rw [hhead, hc, if_neg hps]
    rfl
  refine ⟨?_, ?_, ?_, hblank, hcolon, ?_, ?_, ?_⟩
  · by_cases ho' : order = []
    · have hnone : m.tags.lookup [] = none := by
        rw [AList.lookup, ho.nil_iff.1 ho']
        rfl
      simp [hnone]
    · refine (lookup_readTags_iff h ho).1 fun k => ?_
      rw [← he.tags k, htags, hrest.tags ho', readTags, if_neg ho']
  · refine (map_parsePrefix_iff h).1 ?_
    by_cases hs : m.source = none
    · simp [hs]
    · rw [← hrest.source hs, ← hsource, he.source]
  · have hformat := parseParams_format hblank hcolon hwords h.params le_rfl
    obtain ⟨rfl, -⟩ := List.cons.inj (hparams.symm.trans hformat)
    exact hupper.symm
  · intro htags' hs hat
    refine hrest.at_sign (ho.nil_iff.2 htags') hs htrim.symm ?_
    rw [hhead, hat]
    rfl
  · intro hc
    have hnot := hlead hc
    push Not at hnot
    exact ⟨ho.nil_iff.1 hnot.1, hnot.2, hwords.resolve_left (not_not.2 hc)⟩
  · intro b hb
    have hlast := getLast?_format m.command m.params
    have hcrlf : lit "\r\n" = [13, 10] := by decide
    rw [show (m.params.getLastD m.command).getLast? = some b from hb] at hlast
    have hnot : b ∉ lit "\r\n" := trimRight_last (s := bodyText m) (htrim.symm ▸ hlast)
    simpa [hcrlf] using hnot

/-- **A message is read back exactly if it meets the condition.** -/
theorem parse_format_iff (h : m.Spelled) (ho : TagOrder m order) :
    (∃ m', parse (format order m) = .ok m' ∧ m'.Equiv m) ↔ Reformats m :=
  ⟨fun ⟨_, hp, he⟩ => .of_parse_format h ho hp he, fun hr => hr.parsesBack h ho⟩

end

end Irc
