import GoProtocols.Irc.Proof.Lossless

/-!
# `Parse` and `Format`

* `parse_format_parse_iff`: what `Parse` accepts and `Format` writes again is read as the same
  message exactly if the message meets `Reformats`. `Format` drops a user without a host and a tag
  that is empty altogether, and it writes a command as it is, also one that `Parse` has taken from a
  trailing parameter or from a line of blanks.
-/

namespace Irc

open Go

/-- The parts of the message are in one piece each. -/
structure Formattable [UnicodeTables] (m : Message) : Prop where
  command : m.command ≠ [] ∧ 32 ∉ m.command ∧ toUpper m.command = m.command
  head : m.command.head? ≠ some 58 ∧ m.command.head? ≠ some 64
  params : ∀ p ∈ m.params.dropLast, p ≠ [] ∧ 32 ∉ p ∧ p.head? ≠ some 58
  tags : ∀ t ∈ m.tags.entries, t.1 ≠ [] ∧ 59 ∉ t.1 ∧ 61 ∉ t.1 ∧ 32 ∉ t.1
  source : ∀ p ∈ m.source, (32 ∉ p.nick ∧ 32 ∉ p.user ∧ 32 ∉ p.host) ∧
    (64 ∉ p.nick ∧ 64 ∉ p.user ∧ 33 ∉ p.nick) ∧ (p.user ≠ [] → p.host ≠ [])

section
variable [UnicodeTables] {m : Message} {order : List (Sigma fun _ : Bytes => Bytes)}

theorem Formattable.spelled (h : Formattable m) : m.Spelled where
  tags t ht := by
    obtain ⟨-, hsemi, heq, hblank⟩ := h.tags t ht
    exact ⟨hsemi, heq, hblank⟩
  source p hp := by
    obtain ⟨hblank, ⟨hat, huser, hbang⟩, -⟩ := h.source p hp
    exact ⟨⟨⟨hbang, hat⟩, huser⟩, hblank⟩
  params p hp := by
    obtain ⟨hne, hblank, hcolon⟩ := h.params p hp
    exact ⟨hne, hblank, hcolon⟩

theorem Formattable.reformats (h : Formattable m)
    (hend : ∀ b ∈ (format order m).getLast?, b ≠ 13 ∧ b ≠ 10) : Reformats m where
  tags hlost := (h.tags _ (Map.lookup_eq_some_iff.1 hlost)).1 rfl
  source p hp := by
    by_cases huser : p.user = []
    · exact .inl huser
    · exact .inr ((h.source p hp).2.2 huser)
  upper := h.command.2.2
  blank := h.command.2.1
  colon := h.head.1
  at_sign _ _ := h.head.2
  nonempty hc := absurd hc h.command.1
  last b hb := by
    have hlast := getLast?_format m.command m.params
    rw [show (m.params.getLastD m.command).getLast? = some b from hb] at hlast
    refine hend b ?_
    rw [format_eq, List.getLast?_append, List.getLast?_append,
      show (bodyText m).getLast? = some b from hlast]
    rfl

/-- **`Parse` undoes `Format`.** -/
theorem parse_format (h : Formattable m) (ho : TagOrder m order)
    (hend : ∀ b ∈ (format order m).getLast?, b ≠ 13 ∧ b ≠ 10) :
    ∃ m', parse (format order m) = .ok m' ∧ m'.Equiv m :=
  (h.reformats hend).parsesBack h.spelled ho

/-- **A line that is accepted is written again without loss exactly if its message meets the
condition.** -/
theorem parse_format_parse_iff {raw : Bytes} (h : parse raw = .ok m) (ho : TagOrder m order) :
    (∃ m', parse (format order m) = .ok m' ∧ m'.Equiv m) ↔ Reformats m :=
  parse_format_iff (spelled_of_parse h) ho

end

attribute [local instance] asciiTables

/-- The message of the line `@label=a\s\: :ann!a@h PRIVMSG #go :`. -/
def privmsg : Message :=
  { source := some { nick := lit "ann", user := lit "a", host := lit "h" }
    command := lit "PRIVMSG", params := [lit "#go", []] : Message }.setTag (lit "label") (lit "a ;")

theorem parse_format_privmsg :
    ∃ m', parse (format [⟨lit "label", lit "a ;"⟩] privmsg) = .ok m' ∧ m'.Equiv privmsg :=
  parse_format
    ⟨by decide +kernel, by decide +kernel, by decide +kernel, by decide +kernel, by decide +kernel⟩
    (.refl _) (by decide +kernel)

theorem parse_format_parse_ping :
    let m : Message := { command := lit "PING", params := [lit "x"] }
    parse (lit "ping :x\r\n") = .ok m ∧
      ((∃ m', parse (format [] m) = .ok m' ∧ m'.Equiv m) ↔ Reformats m) :=
  ⟨rfl, parse_format_parse_iff (show parse (lit "ping :x\r\n") = _ from rfl) (.refl _)⟩

theorem not_parse_format_user_without_host : ∃ m, parse (lit ":ann!a QUIT") = .ok m ∧
    ∀ order, TagOrder m order → ¬ ∃ m', parse (format order m) = .ok m' ∧ m'.Equiv m := by
  have hp : parse (lit ":ann!a QUIT") =
      .ok { source := some { nick := lit "ann", user := lit "a" }, command := lit "QUIT" } := rfl
  refine ⟨_, hp, fun order ho hm => ?_⟩
  have hr := (parse_format_iff (spelled_of_parse hp) ho).1 hm
  exact absurd (hr.source _ rfl) (by decide)

end Irc
