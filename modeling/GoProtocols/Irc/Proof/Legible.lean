import GoProtocols.Irc.Names
import GoProtocols.Irc.Proof.Reparse

/-!
# Messages that are read as they were meant

`Faithful m`: from what `Format` writes for `m`, `Parse` reads the command and the parameters of
`m`. A message of the server is faithful if its parameters are `Readable`: each but the last in one
piece (`Middle`), the last one without CR or LF at its end (`Ended`). The condition on those before
the last cannot be spared (`Faithful.middle`).

The last section has the texts that the server writes itself: numbers and times.
-/

namespace Irc

open Go List

variable {a command s : Bytes} {b : UInt8} {ps : List Bytes} (p : Bytes) (t : Time) (width : Nat)
  (n : Int)

/-! ## Texts -/

def Clear : Prop := 13 ∉ p ∧ 10 ∉ p

instance : Decidable (Clear p) := inferInstanceAs (Decidable (_ ∧ _))

instance : Decidable (Middle p) :=
  decidable_of_iff (p ≠ [] ∧ 32 ∉ p ∧ p.head? ≠ some 58)
    ⟨fun ⟨h, h', h''⟩ => ⟨h, h', h''⟩, fun ⟨h, h', h''⟩ => ⟨h, h', h''⟩⟩

instance (k : Bytes) : Decidable (TagKey k) :=
  decidable_of_iff (59 ∉ k ∧ 61 ∉ k ∧ 32 ∉ k)
    ⟨fun ⟨h, h', h''⟩ => ⟨h, h', h''⟩, fun ⟨h, h', h''⟩ => ⟨h, h', h''⟩⟩

@[simp] theorem clear_nil : Clear [] := by decide

@[simp] theorem clear_append {b : Bytes} : Clear (a ++ b) ↔ Clear a ∧ Clear b := by
  simp only [Clear, mem_append, not_or]
  tauto

theorem Clear.of_subset {b : Bytes} (h : Clear b) (hsub : a ⊆ b) : Clear a :=
  ⟨fun hm => h.1 (hsub hm), fun hm => h.2 (hsub hm)⟩

theorem clear_of_forall (h : ∀ b ∈ s, b ≠ 13 ∧ b ≠ 10) : Clear s :=
  ⟨fun hm => (h 13 hm).1 rfl, fun hm => (h 10 hm).2 rfl⟩

theorem Clear.flatMap {α : Type} {l : List α} {f : α → Bytes} (h : ∀ a ∈ l, Clear (f a)) :
    Clear (l.flatMap f) := by
  refine clear_of_forall fun b hb => ?_
  obtain ⟨a, ha, hb⟩ := mem_flatMap.1 hb
  exact ⟨fun he => (h a ha).1 (he ▸ hb), fun he => (h a ha).2 (he ▸ hb)⟩

theorem Clear.join {elems : List Bytes} {sep : Bytes} (hsep : Clear sep)
    (h : ∀ e ∈ elems, Clear e) : Clear (join elems sep) := by
  refine clear_of_forall fun b hb => ?_
  rcases mem_join hb with hb | ⟨e, he, hb⟩
  · exact ⟨fun he => hsep.1 (he ▸ hb), fun he => hsep.2 (he ▸ hb)⟩
  · exact ⟨fun heq => (h e he).1 (heq ▸ hb), fun heq => (h e he).2 (heq ▸ hb)⟩

theorem Clear.split {sep : UInt8} (h : Clear s) : ∀ p ∈ split s sep, Clear p :=
  fun _ hp => h.of_subset fun _ hb => mem_of_mem_split hp hb

/-- The text has no CR or LF at its end, where `Parse` would trim it from a line. -/
def Ended : Prop := ∀ b ∈ p.getLast?, b ≠ 13 ∧ b ≠ 10

instance : Decidable (Ended p) := Option.decidableForallMem _

theorem Clear.ended {p : Bytes} (h : Clear p) : Ended p := fun _ hb =>
  have hmem := mem_of_mem_getLast? hb
  ⟨fun he => h.1 (he ▸ hmem), fun he => h.2 (he ▸ hmem)⟩

theorem ended_append_iff {b : Bytes} (hb : b ≠ []) : Ended (a ++ b) ↔ Ended b := by
  rw [Ended, getLast?_append_of_ne_nil _ hb, Ended]

theorem Ended.append {b : Bytes} (ha : Ended a) (hb : Ended b) : Ended (a ++ b) := by
  by_cases hnil : b = []
  · rwa [hnil, append_nil]
  · exact (ended_append_iff hnil).2 hb

theorem Ended.join {elems : List Bytes} {sep : Bytes} (hsep : Ended sep)
    (h : ∀ e ∈ elems, Ended e) : Ended (join elems sep) := by
  unfold Go.join
  induction elems with
  | nil => simp [Ended]
  | cons e elems ih =>
    cases elems with
    | nil => simpa using h e (by simp)
    | cons e' elems =>
      rw [intercalate_cons_cons]
      exact ((h e (by simp)).append hsep).append (ih (forall_mem_cons.1 h).2)

/-- A text that can stand anywhere in a line. -/
structure Word (p : Bytes) : Prop extends Middle p where
  ended : Ended p

instance : Decidable (Word p) :=
  decidable_of_iff (Middle p ∧ Ended p) ⟨fun ⟨h, h'⟩ => { h with ended := h' }, fun h => ⟨h.1, h.2⟩⟩

theorem Middle.append {b : Bytes} (h : Middle a) (hb : 32 ∉ b) : Middle (a ++ b) := by
  obtain ⟨c, t, rfl⟩ := exists_cons_of_ne_nil h.nonempty
  refine ⟨by simp, by simpa [hb] using h.blank, by simpa using h.colon⟩

/-! ## Changes of case -/

section
variable {f : Rune → Rune}

theorem encodeRune_ascii (hb : b < 0x80) : encodeRune b.toNat = [b] := by
  have hlt : b.toNat < 0x80 := by simpa [UInt8.lt_iff_toNat_lt] using hb
  simp [encodeRune, hlt]

theorem flatMap_encodeRune_cons (hb : b < 0x80) (hf : f b.toNat = b.toNat) (s : Bytes) :
    (runes (b :: s)).flatMap (fun r => encodeRune (f r)) =
      b :: (runes s).flatMap fun r => encodeRune (f r) := by
  have hrunes := runes_append_ascii [] hb s
  simp only [nil_append, runes_nil] at hrunes
  simp [hrunes, hf, encodeRune_ascii hb]

theorem mem_flatMap_encodeRune (hb : b < 0x80) (hf : f b.toNat = b.toNat)
    (h : b ∈ s) : b ∈ (runes s).flatMap fun r => encodeRune (f r) :=
  mem_flatMap.2 ⟨b.toNat, mem_runes_of_mem hb h, by simp [hf, encodeRune_ascii hb]⟩

/-- Blanks and a leading colon are there before a change of case if they are there after it. -/
theorem Middle.of_flatMap (hblank : f 32 = 32) (hcolon : f 58 = 58)
    (h : Middle ((runes s).flatMap fun r => encodeRune (f r))) : Middle s where
  nonempty hs := h.nonempty (by simp [hs])
  blank hb := h.blank (mem_flatMap_encodeRune (by decide) hblank hb)
  colon hc := by
    obtain ⟨t, rfl⟩ := List.head?_eq_some_iff.1 hc
    refine h.colon ?_
    rw [flatMap_encodeRune_cons (by decide) hcolon]
    rfl

theorem flatMap_encodeRune_self (h : ∀ b ∈ s, b < 0x80 ∧ f b.toNat = b.toNat) :
    (runes s).flatMap (fun r => encodeRune (f r)) = s := by
  induction s with
  | nil => rfl
  | cons b s ih =>
    obtain ⟨hb, hf⟩ := h b (by simp)
    rw [flatMap_encodeRune_cons hb hf, ih (forall_mem_cons.1 h).2]

variable [UnicodeTables]

theorem Middle.of_toUpper (h : Middle (toUpper s)) : Middle s :=
  h.of_flatMap (by simp [upperRune]) (by simp [upperRune])

theorem upperRune_of_ascii (hb : b < 0x80) (hl : ¬ (97 ≤ b ∧ b ≤ 122)) :
    upperRune b.toNat = b.toNat := by
  have hlt : b.toNat < 0x80 := by simpa [UInt8.lt_iff_toNat_lt] using hb
  have hnot : ¬ (97 ≤ b.toNat ∧ b.toNat ≤ 122) := by simpa [UInt8.le_iff_toNat_le] using hl
  simp [upperRune, hlt, hnot]

theorem toUpper_of_upper (h : ∀ b ∈ s, b < 0x80 ∧ ¬ (97 ≤ b ∧ b ≤ 122)) :
    toUpper s = s :=
  flatMap_encodeRune_self fun b hb => ⟨(h b hb).1, upperRune_of_ascii (h b hb).1 (h b hb).2⟩

end

/-! ## Commands of the server -/

def Known (command : Bytes) : Prop :=
  (∃ v : Verb, command = v.name) ∨ ∃ n : Numeric, command = n.string

theorem known_verb (v : Verb) : Known v.name := .inl ⟨v, rfl⟩

theorem known_numeric (n : Numeric) : Known n.string := .inr ⟨n, rfl⟩

theorem Verb.word (v : Verb) : Word v.name := by
  cases v <;> decide

theorem Numeric.word (n : Numeric) : Word n.string := by
  cases n <;> decide

theorem Known.word (h : Known command) : Word command := by
  rcases h with ⟨v, rfl⟩ | ⟨n, rfl⟩
  · exact v.word
  · exact n.word

theorem Known.upper (h : Known command) :
    ∀ b ∈ command, b < 0x80 ∧ ¬ (97 ≤ b ∧ b ≤ 122) := by
  have hall : command.all (fun b => decide (b < 0x80 ∧ ¬ (97 ≤ b ∧ b ≤ 122))) = true := by
    rcases h with ⟨v, rfl⟩ | ⟨n, rfl⟩
    · cases v <;> decide
    · cases n <;> decide
  exact fun b hb => of_decide_eq_true (all_eq_true.1 hall b hb)

theorem Known.at_sign (h : Known command) : command.head? ≠ some 64 := by
  rcases h with ⟨v, rfl⟩ | ⟨n, rfl⟩
  · cases v <;> decide
  · cases n <;> decide

/-! ## Parameters -/

/-- Parameters that are read back: each but the last in one piece, the last well ended. -/
inductive Readable : List Bytes → Prop
  | nil : Readable []
  | single {p : Bytes} : Ended p → Readable [p]
  | cons {p q : Bytes} {ps : List Bytes} : Middle p → Readable (q :: ps) → Readable (p :: q :: ps)

theorem Readable.middle (h : Readable ps) : ∀ p ∈ ps.dropLast, Middle p := by
  induction h with
  | nil | single _ => intro p hp; cases hp
  | cons hp _ ih =>
    intro p' hp'
    rw [dropLast_cons_cons, mem_cons] at hp'
    rcases hp' with rfl | hp'
    · exact hp
    · exact ih p' hp'

theorem Readable.last (h : Readable ps) : ∀ p ∈ ps.getLast?, Ended p := by
  induction h with
  | nil => intro p hp; cases hp
  | single hp =>
    intro p' hp'
    obtain rfl : _ = p' := by simpa using hp'
    exact hp
  | cons _ _ ih =>
    rw [List.getLast?_cons_cons]
    exact ih

theorem Readable.ended_getLastD (h : Readable ps) {w : Bytes} (hw : Ended w) :
    Ended (ps.getLastD w) := by
  rw [getLastD_eq_getLast?]
  cases hl : ps.getLast? with
  | none => exact hw
  | some p => exact h.last p hl

theorem Readable.word_cons {p : Bytes} (hp : Word p) (h : Readable ps) :
    Readable (p :: ps) := by
  cases ps with
  | nil => exact .single hp.ended
  | cons q ps => exact .cons hp.toMiddle h

theorem readable_of_last (hmid : ∀ p ∈ ps.dropLast, Middle p) (hlast : ∀ p ∈ ps.getLast?, Ended p) :
    Readable ps := by
  induction ps with
  | nil => exact .nil
  | cons p ps ih =>
    cases ps with
    | nil => exact .single (hlast p (by simp))
    | cons q ps =>
      rw [dropLast_cons_cons] at hmid
      rw [List.getLast?_cons_cons] at hlast
      exact .cons (hmid p (by simp)) (ih (forall_mem_cons.1 hmid).2 hlast)

/-! ## Messages -/

/-- The message can be read back from a line. -/
structure Legible (m : Message) : Prop where
  tags : ∀ t ∈ m.tags.entries, TagKey t.1
  source : ∀ p ∈ m.source, 32 ∉ p.string
  command : Known m.command
  params : Readable m.params

theorem clear_getD {l : List Bytes} (h : ∀ p ∈ l, Clear p) (i : Nat) : Clear (l.getD i []) := by
  rw [getD_eq_getElem?_getD]
  cases hp : l[i]? with
  | none => exact clear_nil
  | some p => exact h p (mem_of_getElem? hp)

theorem Message.Spelled.middle_param {m : Message} (h : m.Spelled) {i : Nat}
    (hi : i + 1 < m.params.length) : Middle (m.param i) := by
  have hlt : i < m.params.dropLast.length := by
    rw [length_dropLast]
    omega
  have hget : m.param i = m.params.dropLast[i] := by
    rw [Message.param, getD_eq_getElem?_getD, List.getElem?_eq_getElem (by omega)]
    simp
  rw [hget]
  exact h.params _ (getElem_mem hlt)

section
variable [UnicodeTables] {m : Message}

/-- The line that is written for the message, with the tags in whatever order, is read as its
command and its parameters. -/
def Faithful (m : Message) : Prop :=
  ∀ order, TagOrder m order →
    ∃ m', parse (format order m) = .ok m' ∧ m'.command = m.command ∧ m'.params = m.params

theorem Legible.rereads (h : Legible m) : Rereads m where
  tags := h.tags
  source := h.source
  params := h.params.middle
  upper := toUpper_of_upper h.command.upper
  blank := h.command.word.blank
  colon := h.command.word.colon
  at_sign _ _ := h.command.at_sign
  nonempty hnil := absurd hnil h.command.word.nonempty
  last := h.params.ended_getLastD h.command.word.ended

/-- **A legible message is read as it was meant.** -/
theorem Legible.faithful (h : Legible m) : Faithful m :=
  fun _ ho => ⟨_, h.rereads.parse_eq ho, rfl, rfl⟩

/-- **A parameter before another is read back only if it is in one piece**: `Parse` returns no
others. -/
theorem Faithful.middle (h : Faithful m) : ∀ p ∈ m.params.dropLast, Middle p := by
  obtain ⟨m', hm, -, hparams⟩ := h m.tags.entries (List.Perm.refl _)
  rw [← hparams]
  exact (spelled_of_parse hm).params

end

/-! ## Numbers and times -/

def NumberByte (b : UInt8) : Prop := b = 45 ∨ Decimal.IsDigit b

theorem NumberByte.plain (h : NumberByte b) : b ≠ 13 ∧ b ≠ 10 ∧ b ≠ 32 ∧ b ≠ 58 := by
  rcases h with rfl | h
  · decide
  · rw [Decimal.isDigit_iff] at h
    refine ⟨?_, ?_, ?_, ?_⟩ <;>
    · rintro rfl
      revert h
      decide

theorem numberByte_formatInt : ∀ b ∈ formatInt n, NumberByte b := by
  intro b hb
  unfold formatInt at hb
  split at hb
  · rcases mem_cons.1 hb with rfl | hb
    · exact .inl rfl
    · exact .inr (Decimal.isDigits_render _ b hb)
  · exact .inr (Decimal.isDigits_render _ b hb)

theorem formatInt_ne_nil : formatInt n ≠ [] := by
  unfold formatInt
  split
  · simp
  · exact Decimal.render_ne_nil _

theorem word_formatInt : Word (formatInt n) where
  nonempty := formatInt_ne_nil n
  blank h := (numberByte_formatInt n 32 h).plain.2.2.1 rfl
  colon h := (numberByte_formatInt n 58 (mem_of_mem_head? h)).plain.2.2.2 rfl
  ended b hb :=
    have h := (numberByte_formatInt n b (mem_of_mem_getLast? hb)).plain
    ⟨h.1, h.2.1⟩

theorem word_itoa (n : Nat) : Word (itoa n) := word_formatInt n

theorem clear_zeroPad : Clear (zeroPad width n) := by
  refine clear_of_forall fun b hb => ?_
  have hnum : NumberByte b := by
    simp only [zeroPad, mem_append, mem_replicate] at hb
    rcases hb with (hb | ⟨-, rfl⟩) | hb
    · split at hb
      · exact .inl (mem_singleton.1 hb)
      · cases hb
    · exact .inr (by decide)
    · exact .inr (Decimal.isDigits_render _ b hb)
  exact ⟨hnum.plain.1, hnum.plain.2.1⟩

theorem clear_dayText : Clear t.dayText := by
  have hday := clear_getD (show ∀ p ∈ shortDays, Clear p by decide)
    ((t.unix + t.offset) / 86400 % 7).toNat
  have hmonth := clear_getD (show ∀ p ∈ shortMonths, Clear p by decide) (t.civil.month - 1)
  have hblank : Clear [32] := by decide
  simp only [Time.dayText, clear_append, hday, hmonth, hblank, clear_zeroPad, and_self]

theorem clear_clock (c : Civil) : Clear c.clock := by
  have hcolon : Clear [58] := by decide
  simp only [Civil.clock, clear_append, hcolon, clear_zeroPad, and_self]

theorem clear_formatServer : Clear t.formatServer := by
  have hdash : Clear [45] := by decide
  have ht : Clear [84] := by decide
  have hpoint : Clear [46] := by decide
  have hz : Clear [90] := by decide
  simp only [Time.formatServer, clear_append, hdash, ht, hpoint, hz, clear_clock, clear_zeroPad,
    and_self]

theorem clear_formatLong : Clear t.formatLong := by
  have hblank : Clear [32] := by decide
  simp only [Time.formatLong, clear_append, hblank, clear_dayText, clear_clock, clear_zeroPad,
    and_self]

theorem clear_formatZoned : Clear t.formatZoned := by
  have hblank : Clear [32] := by decide
  have hsign : Clear [if t.offset < 0 then 45 else 43] := by
    split <;> decide
  simp only [Time.formatZoned, clear_append, hblank, hsign, clear_dayText, clear_clock,
    clear_zeroPad, and_self]

end Irc
