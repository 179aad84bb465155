import GoProtocols.Go.Utf8

/-!
# `strings.Fields`

A string falls into runes, and where it is cut between two of them both parts fall into the runes
they had (`tokens_bytesOf_left`). So no field has white space in it (`noSpace_of_mem_fields`), a
string without white space is one field (`fields_eq_singleton`), and the fields of words with blanks
between them are those of the words (`fields_join`).
-/

namespace Go

open List

variable {s : Bytes} {ts ts' : List (Rune × Bytes)} {a : Bytes} {b : UInt8} {cur : Bytes}

/-! ## Cuts between runes -/

/-- The bytes of runes. -/
def bytesOf (ts : List (Rune × Bytes)) : Bytes := ts.flatMap Prod.snd

@[simp] theorem bytesOf_nil : bytesOf [] = [] := rfl

@[simp] theorem bytesOf_cons (t : Rune × Bytes) (ts : List (Rune × Bytes)) :
    bytesOf (t :: ts) = t.2 ++ bytesOf ts := rfl

@[simp] theorem bytesOf_append (ts ts' : List (Rune × Bytes)) :
    bytesOf (ts ++ ts') = bytesOf ts ++ bytesOf ts' :=
  flatMap_append

theorem decodeRune_append {b0 : UInt8} (h : (decodeRune (b0 :: a ++ s)).2 ≤ a.length + 1) :
    decodeRune (b0 :: a ++ s) = decodeRune (b0 :: a) := by
  rcases a with _ | ⟨b1, _ | ⟨b2, _ | ⟨b3, a⟩⟩⟩
  · rcases s with _ | ⟨b1, _ | ⟨b2, _ | ⟨b3, s⟩⟩⟩
    · rfl
    all_goals
      simp only [cons_append, nil_append, decodeRune] at h ⊢
      split_ifs at h ⊢ <;> simp_all
  · rcases s with _ | ⟨b2, _ | ⟨b3, s⟩⟩
    · rfl
    all_goals
      simp only [cons_append, nil_append, decodeRune] at h ⊢
      split_ifs at h ⊢ <;> simp_all
  · rcases s with _ | ⟨b3, s⟩
    · rfl
    · simp only [cons_append, nil_append, decodeRune] at h ⊢
      split_ifs at h ⊢ <;> simp_all
  · simp [decodeRune]

theorem tokensFrom_drop (n : Nat) (s : Bytes) : tokensFrom n s = tokens (s.drop n) := by
  induction n generalizing s with
  | zero => rfl
  | succ n ih =>
    cases s with
    | nil => rfl
    | cons b s => exact ih s

theorem tokens_cons (b : UInt8) (s : Bytes) :
    tokens (b :: s) = ((decodeRune (b :: s)).1, (b :: s).take (decodeRune (b :: s)).2) ::
      tokens ((b :: s).drop (decodeRune (b :: s)).2) := by
  obtain ⟨hpos, -⟩ := decodeRune_width b s
  rw [tokens, tokensFrom, tokensFrom_drop]
  obtain ⟨w, hw⟩ : ∃ w, (decodeRune (b :: s)).2 = w + 1 := ⟨_, (Nat.sub_add_cancel hpos).symm⟩
  rw [hw]
  rfl

theorem bytesOf_tokens (s : Bytes) : bytesOf (tokens s) = s := by
  induction hn : s.length using Nat.strongRecOn generalizing s with
  | ind n ih =>
    cases s with
    | nil => rfl
    | cons b s =>
      obtain ⟨hpos, -⟩ := decodeRune_width b s
      rw [tokens_cons, bytesOf_cons, ih _ _ _ rfl, take_append_drop]
      rw [← hn, length_drop, length_cons]
      omega

theorem tokens_bytesOf_right
    (h : tokens s = ts ++ ts') : tokens (bytesOf ts') = ts' := by
  induction ts generalizing s with
  | nil => rw [nil_append] at h; rw [← h, bytesOf_tokens]
  | cons t ts ih =>
    cases s with
    | nil => cases h
    | cons b s =>
      rw [tokens_cons, cons_append, List.cons.injEq] at h
      exact ih h.2

/-- **A string that is cut between two runes keeps those before the cut.** -/
theorem tokens_bytesOf_left
    (h : tokens s = ts ++ ts') : tokens (bytesOf ts) = ts := by
  induction ts generalizing s with
  | nil => rfl
  | cons t ts ih =>
    cases s with
    | nil => cases h
    | cons b s =>
      obtain ⟨hpos, hle⟩ := decodeRune_width b s
      obtain ⟨w, hw⟩ : ∃ w, (decodeRune (b :: s)).2 = w + 1 := ⟨_, (Nat.sub_add_cancel hpos).symm⟩
      have hs : b :: s = t.2 ++ bytesOf ts ++ bytesOf ts' := by
        rw [← bytesOf_cons, ← bytesOf_append, ← h, bytesOf_tokens]
      rw [tokens_cons, cons_append, List.cons.injEq] at h
      obtain ⟨rfl, hrest⟩ := h
      rw [hw, take_succ_cons, cons_append] at hs
      have hdecode : decodeRune (b :: (s.take w ++ bytesOf ts)) = decodeRune (b :: s) := by
        rw [hs]
        refine (decodeRune_append ?_).symm
        rw [← hs, hw, length_append, length_take]
        omega
      have hlen : (s.take w).length = w := by
        rw [length_take]
        omega
      rw [bytesOf_cons, hw, take_succ_cons, cons_append, tokens_cons, hdecode, hw,
        take_succ_cons, drop_succ_cons, take_left' hlen, drop_left' hlen,
        ih hrest]

/-! ## White space -/

/-- No rune of the string is white space. -/
def NoSpace (s : Bytes) : Prop := ∀ r ∈ runes s, isSpace r = false

instance (s : Bytes) : Decidable (NoSpace s) := inferInstanceAs (Decidable (∀ _ ∈ _, _))

theorem noSpace_nil : NoSpace [] := fun _ hr => by cases hr

theorem noSpace_append_ascii (hb : b < 0x80) :
    NoSpace (a ++ b :: s) ↔ NoSpace a ∧ isSpace b.toNat = false ∧ NoSpace s := by
  simp only [NoSpace, runes_append_ascii a hb, mem_append, mem_cons, or_imp, forall_and,
    forall_eq]

theorem NoSpace.notMem (h : NoSpace s) (hb : b < 0x80) (hspace : isSpace b.toNat = true) :
    b ∉ s := by
  intro hmem
  rw [h _ (mem_runes_of_mem hb hmem)] at hspace
  cases hspace

/-! ## Fields -/

theorem fieldsFrom_eq_singleton (h : ∀ t ∈ ts, isSpace t.1 = false) (hne : cur ++ bytesOf ts ≠ []) :
    fieldsFrom cur ts = [cur ++ bytesOf ts] := by
  induction ts generalizing cur with
  | nil =>
    rw [bytesOf_nil, append_nil] at hne ⊢
    exact if_neg hne
  | cons t ts ih =>
    rw [fieldsFrom, if_neg (by simp [h t (by simp)]), ih (forall_mem_cons.1 h).2]
    · rw [bytesOf_cons, append_assoc]
    · rwa [append_assoc, ← bytesOf_cons]

/-- **A string without white space is one field.** -/
theorem fields_eq_singleton (h : NoSpace s) (hne : s ≠ []) : fields s = [s] := by
  have hts : ∀ t ∈ tokens s, isSpace t.1 = false := fun t ht => h t.1 (mem_map_of_mem ht)
  rw [fields, fieldsFrom_eq_singleton hts (by simpa [bytesOf_tokens] using hne), nil_append,
    bytesOf_tokens]

theorem noSpace_bytesOf (hs : tokens s = ts ++ ts')
    (h : ∀ t ∈ ts, isSpace t.1 = false) : NoSpace (bytesOf ts) := by
  intro r hr
  rw [runes, tokens_bytesOf_left hs] at hr
  obtain ⟨t, ht, rfl⟩ := mem_map.1 hr
  exact h t ht

theorem noSpace_of_mem_fieldsFrom (ts₀ ts : List (Rune × Bytes)) {f : Bytes}
    (hs : tokens s = ts₀ ++ ts) (hts₀ : ∀ t ∈ ts₀, isSpace t.1 = false)
    (hf : f ∈ fieldsFrom (bytesOf ts₀) ts) : NoSpace f := by
  induction ts generalizing ts₀ s with
  | nil =>
    rw [fieldsFrom] at hf
    split at hf
    · cases hf
    · rw [mem_singleton.1 hf]
      exact noSpace_bytesOf hs hts₀
  | cons t ts ih =>
    have hs' : tokens s = ts₀ ++ [t] ++ ts := by rw [hs, append_cons]
    have hrest : tokens (bytesOf ts) = [] ++ ts := tokens_bytesOf_right hs'
    rw [fieldsFrom] at hf
    split_ifs at hf with hspace hnil
    · exact ih [] hrest (by simp) hf
    · rcases mem_cons.1 hf with rfl | hf
      · exact noSpace_bytesOf hs hts₀
      · exact ih [] hrest (by simp) hf
    · refine ih (ts₀ ++ [t]) hs' (forall_mem_append.2 ⟨hts₀, ?_⟩) (by simpa using hf)
      exact forall_mem_singleton.2 (eq_false_of_ne_true hspace)

/-- **No field has white space in it.** -/
theorem noSpace_of_mem_fields {f : Bytes} (h : f ∈ fields s) : NoSpace f :=
  noSpace_of_mem_fieldsFrom [] (tokens s) rfl (by simp) h

theorem fieldsFrom_append_space {t : Rune × Bytes} (h : isSpace t.1 = true) :
    fieldsFrom cur (ts ++ t :: ts') = fieldsFrom cur ts ++ fieldsFrom [] ts' := by
  induction ts generalizing cur with
  | nil =>
    have hstep : fieldsFrom cur (t :: ts') =
        if cur = [] then fieldsFrom [] ts' else cur :: fieldsFrom [] ts' := if_pos h
    rw [nil_append, hstep, fieldsFrom]
    split <;> rfl
  | cons t' ts ih =>
    rw [cons_append, fieldsFrom, fieldsFrom]
    split_ifs
    · exact ih
    · rw [ih]
      rfl
    · exact ih

theorem fields_append_blank (a s : Bytes) : fields (a ++ 32 :: s) = fields a ++ fields s := by
  rw [fields, tokens_append_ascii a (by decide), tokens_ascii (by decide),
    fieldsFrom_append_space (by decide)]
  rfl

theorem fields_join (words : List Bytes) :
    fields (join words (lit " ")) = words.flatMap fields := by
  induction words with
  | nil => rfl
  | cons w words ih =>
    cases words with
    | nil => simp [join]
    | cons v words =>
      have hjoin : join (w :: v :: words) (lit " ") = w ++ 32 :: join (v :: words) (lit " ") := by
        rw [join, join, intercalate_cons_cons]
        simp [show lit " " = [32] by decide]
      rw [hjoin, fields_append_blank, ih]
      rfl

end Go
