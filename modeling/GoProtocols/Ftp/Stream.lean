import GoProtocols.Ftp.Client

/-!
# Streams of replies and commands

Every line of a reply begins with the code, so that what it says is never taken for the end: from
the replies that are written one after the other, as many calls of `ReplyScanner.Read` read them
back, and `Parse` reads a command from its wire form (`control_round_trip`).
-/

namespace Ftp

open Go List

section
variable {code : Nat} (h : 100 ≤ code ∧ code ≤ 999) {ls : List Bytes}
  (hclear : ∀ l ∈ ls, 13 ∉ l ∧ 10 ∉ l) (r : Bytes)

theorem multiLines_cons (l : Bytes) (hne : ls ≠ []) : multiLines code (l :: ls) ++ r =
    itoa code ++ 45 :: ((l ++ [13]) ++ 10 :: (multiLines code ls ++ r)) := by
  obtain ⟨l', ls, rfl⟩ := exists_cons_of_ne_nil hne
  simp [multiLines, show lit "-" = [45] by decide, show lit "\r\n" = [13, 10] by decide]

theorem multiLines_single (l : Bytes) :
    multiLines code [l] ++ r = itoa code ++ 32 :: ((l ++ [13]) ++ 10 :: r) := by
  simp [multiLines, show lit " " = [32] by decide, show lit "\r\n" = [13, 10] by decide]

theorem length_le_multiLines (ls : List Bytes) : ls.length ≤ (multiLines code ls).length := by
  induction ls with
  | nil => simp
  | cons l ls ih =>
    have hlen := congrArg length (show lit "\r\n" = [13, 10] by decide)
    cases ls <;> simp only [multiLines, length_append, length_cons, length_nil] at ih hlen ⊢ <;> omega

variable [UnicodeTables]
include h hclear

theorem readLines_multiLines (hne : ls ≠ []) (acc : List Bytes) {fuel : Nat}
    (hfuel : ls.length ≤ fuel) :
    readLines code fuel acc (multiLines code ls ++ r) = .ok ({ code, lines := acc ++ ls }, r) := by
  induction ls generalizing acc fuel with
  | nil => exact absurd rfl hne
  | cons l ls ih =>
    obtain ⟨fuel, rfl⟩ := Nat.exists_eq_add_of_lt hfuel
    obtain ⟨hl, hls⟩ := forall_mem_cons.1 hclear
    have hl' : 10 ∉ l ++ [13] := by simp [hl.2]
    by_cases hnil : ls = []
    · subst hnil
      rw [multiLines_single]
      simp only [readLines, readString_itoa (.inl rfl) hl', splitReplyLine_itoa h (.inl rfl),
        isMultiLineStart_itoa h, trimRight_crlf hl]
      simp
    · rw [multiLines_cons _ _ hnil]
      simp only [readLines, readString_itoa (.inr rfl) hl', splitReplyLine_itoa h (.inr rfl),
        isMultiLineStart_itoa h, trimRight_crlf hl]
      simpa using ih hls hnil (acc ++ [l]) (Nat.le_add_right _ _)

theorem readReply_multiLines (hne : ls ≠ []) :
    readReply (multiLines code ls ++ r) = .ok ({ code, lines := ls }, r) := by
  obtain ⟨l, ls, rfl⟩ := exists_cons_of_ne_nil hne
  obtain ⟨hl, hls⟩ := forall_mem_cons.1 hclear
  have hl' : 10 ∉ l ++ [13] := by simp [hl.2]
  by_cases hnil : ls = []
  · subst hnil
    rw [multiLines_single, readReply_line h hl', trimRight_crlf hl]
  · have hfuel : ls.length ≤ (multiLines code ls ++ r).length := by
      rw [length_append]
      exact Nat.le_add_right_of_le (length_le_multiLines ls)
    rw [multiLines_cons _ _ hnil]
    simp only [readReply, readString_itoa (.inr rfl) hl', splitReplyLine_itoa h (.inr rfl),
      isMultiLineStart_itoa h, trimRight_crlf hl, decide_true, if_true]
    exact readLines_multiLines h hls r hnil [l] hfuel

end

section
variable [UnicodeTables]

/-- Calls of `Read`, one after the other. -/
def readReplies : Nat → Bytes → Except Bytes (List Reply × Bytes)
  | 0, r => .ok ([], r)
  | n + 1, r => do
    let (reply, r) ← readReply r
    let (replies, r) ← readReplies n r
    return (reply :: replies, r)

/-- The reply has lines, and a code of three digits. -/
def Reply.IsMultiLine (r : Reply) : Prop :=
  (100 ≤ r.code ∧ r.code ≤ 999) ∧ r.lines ≠ [] ∧ ∀ l ∈ r.lines, 13 ∉ l ∧ 10 ∉ l

theorem readReplies_wire {rs : List Reply} (h : ∀ r ∈ rs, r.IsMultiLine) :
    readReplies rs.length (rs.flatMap Reply.wire) =
      .ok (rs.map fun r => { code := r.code, lines := r.lines }, []) := by
  induction rs with
  | nil => rfl
  | cons r rs ih =>
    obtain ⟨⟨hcode, hne, hclear⟩, hrs⟩ := forall_mem_cons.1 h
    rw [length_cons, flatMap_cons, readReplies, Reply.wire, if_neg hne,
      readReply_multiLines hcode hclear _ hne]
    simp only [bind, Except.bind, ih hrs]
    rfl

theorem parse_wire {c : Command} (hne : c.name ≠ []) (hup : toUpper c.name = c.name)
    (hname : ∀ b ∈ c.name, b ≠ 32 ∧ b ≠ 13 ∧ b ≠ 10) (harg : 13 ∉ c.arg ∧ 10 ∉ c.arg) :
    parse c.wire = .ok c := by
  have hclear : 13 ∉ c.name ∧ 10 ∉ c.name :=
    ⟨fun hb => (hname _ hb).2.1 rfl, fun hb => (hname _ hb).2.2 rfl⟩
  have hspace : 32 ∉ c.name := fun hb => (hname _ hb).1 rfl
  have hbreak : lit "\r\n" = [13] ++ [10] := by decide
  obtain ⟨name, arg⟩ := c
  by_cases hnil : arg = []
  · subst hnil
    rw [Command.wire, if_pos rfl, parse, hbreak, ← append_assoc, ← hbreak, trimRight_crlf hclear]
    simp [hne, cut_eq_none.2 hspace, hup]
  · have htext : 13 ∉ name ++ 32 :: arg ∧ 10 ∉ name ++ 32 :: arg := by simp [hclear, harg]
    have hwire : Command.wire ⟨name, arg⟩ = name ++ 32 :: arg ++ [13] ++ [10] := by
      simp [Command.wire, hnil, hbreak, show lit " " = [32] by decide]
    rw [hwire, parse, trimRight_crlf htext]
    simp [cut_append hspace, hup]

/-- **Replies of several lines and commands come back as they were sent.** -/
theorem control_round_trip :
    (∀ rs : List Reply, (∀ r ∈ rs, r.IsMultiLine) →
      readReplies rs.length (rs.flatMap Reply.wire) =
        .ok (rs.map fun r => { code := r.code, lines := r.lines }, [])) ∧
    ∀ c : Command, c.name ≠ [] → toUpper c.name = c.name →
      (∀ b ∈ c.name, b ≠ 32 ∧ b ≠ 13 ∧ b ≠ 10) → 13 ∉ c.arg ∧ 10 ∉ c.arg → parse c.wire = .ok c :=
  ⟨fun _ => readReplies_wire, fun _ => parse_wire⟩

end

section
attribute [local instance] asciiTables

theorem control_round_trip_feat :
    readReplies 1 (newMultiLine 211 [lit "Features:", lit "211 End"]).wire =
      .ok ([newMultiLine 211 [lit "Features:", lit "211 End"]], []) ∧
    parse (Command.wire ⟨lit "STOR", lit "a b"⟩) = .ok ⟨lit "STOR", lit "a b"⟩ :=
  ⟨control_round_trip.1 [newMultiLine 211 [lit "Features:", lit "211 End"]] (by
    simp only [mem_singleton, forall_eq]
    exact ⟨by decide, by decide, by decide⟩),
    control_round_trip.2 _ (by decide) (by decide +kernel) (by decide +kernel) (by decide +kernel)⟩

end

end Ftp
