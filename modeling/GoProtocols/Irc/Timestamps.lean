import GoProtocols.Go.Calendar
import GoProtocols.Irc.Selection
import GoProtocols.Irc.Proof.Stored

/-!
# Requests by the displayed time of a message

An entry keeps the time of its message in nanoseconds, and the message has it in its `time` tag in
milliseconds (`Stamped`). A client that asks for what comes after the time it was shown so gets the
message again, unless its time is a whole number of milliseconds.

* `after_stamped`: the entries of all runs are stamped.
-/

namespace Irc

open Go List

/-! ## Stamps -/

/-- The `time` tag of the message is the time of the entry as it is shown. -/
structure Stamped (e : ChatHistoryEntry) : Prop where
  utc : e.time.offset = 0
  tag : e.msg.tags.lookup (lit "time") = some e.time.formatServer

theorem stamped_messageEntry (env : Env) (st : State) (s : SessionId) (msg : Message)
    (notice : Bool) : Stamped (messageEntry env st s msg notice) where
  utc := rfl
  tag := by
    unfold messageEntry relayed
    dsimp only
    rw [lookup_relayTags _ _ _ _ (by decide), if_neg fun h => absurd h.1 (by decide)]
    rfl

def ShowsYear (t : Time) : Prop := 0 ≤ t.civil.year ∧ t.civil.year < 10000

theorem parse_timestamp (entries : List ChatHistoryEntry) {value : Bytes} {read : Option Time}
    (h : parseServerTime value = read) :
    parseMessageReference entries (lit "timestamp=" ++ value) =
      read.elim (.error (lit "invalid timestamp")) fun time => .ok (some { time }) := by
  have hp : hasPrefix (lit "timestamp=" ++ value) (lit "timestamp=") = true :=
    hasPrefix_iff.2 (prefix_append _ _)
  have htrim : parseServerTime (trimPrefix (lit "timestamp=" ++ value) (lit "timestamp=")) =
      read := by
    rw [trimPrefix, if_pos hp, drop_left, h]
  refine (if_pos hp).trans ?_
  cases read with
  | none => simp only [htrim, Option.elim_none]
  | some time => simp only [htrim, Option.elim_some]

theorem parse_displayed {t : Time} (h : t.offset = 0) :
    (ShowsYear t ∧ parseServerTime t.formatServer = some ⟨t.nanos / 1000000 * 1000000, 0⟩) ∨
      ¬ ShowsYear t ∧ parseServerTime t.formatServer = none := by
  by_cases hyear : ShowsYear t
  · refine .inl ⟨hyear, ?_⟩
    obtain ⟨hpos, hlt⟩ := hyear
    exact parse_formatServer h (Int.toNat_of_nonneg hpos).symm (by omega)
  · refine .inr ⟨hyear, parse_formatServer_none ?_⟩
    unfold ShowsYear at hyear
    omega

section
variable [UnicodeTables] {entries : List ChatHistoryEntry} {e : ChatHistoryEntry} (env : Env)
  {es : List Event}

theorem after_stamped {env : Env} (hv : (ircd env).Valid es) :
    ((ircd env).after es).srv.EachStored fun entries =>
      entries.length ≤ chatHistoryLimit ∧ ∀ e ∈ entries, Stamped e := by
  refine after_eachStored hv ⟨Nat.zero_le _, by simp⟩ fun st s msg notice old hold => ?_
  exact ⟨length_trimHistory_le _,
    forall_mem_trimHistory hold.2 (stamped_messageEntry env st s msg notice)⟩

/-! ## Specification -/

/-- No request by this time that the server makes returns the entry. -/
def Excluded (entries : List ChatHistoryEntry) (time : Bytes) (e : ChatHistoryEntry) : Prop :=
  ∀ sub selectors (limit : Int) page, toUpper sub ∈ [lit "AFTER", lit "BEFORE", lit "BETWEEN"] →
    lit "timestamp=" ++ time ∈ selectors → limit ≤ chatHistoryLimit →
    selectChatHistory entries sub selectors limit = .ok page → e ∉ page.1

/-! ## Requests -/

theorem excluded_of_whole (h : Stamped e)
    (hwhole : e.time.nanos % 1000000 = 0 ∨ ¬ ShowsYear e.time) :
    Excluded entries e.time.formatServer e := by
  intro sub selectors limit page hsub hmem _ hsel he
  obtain ⟨ref, i, hparse, hside⟩ := mem_select hsub hsel he hmem
  rcases parse_displayed h.utc with ⟨hyear, hp⟩ | ⟨-, hp⟩
  · rw [parse_timestamp entries hp] at hparse
    cases hparse
    have hwhole : e.time.nanos % 1000000 = 0 := by
      rcases hwhole with hwhole | hno
      · exact hwhole
      · exact absurd hyear hno
    have htime : (HistoryEntry.time e).nanos = e.time.nanos := rfl
    simp only [beforeReference, afterReference, ne_eq, not_true_eq_false, if_false,
      decide_eq_true_eq, htime] at hside
    omega
  · rw [parse_timestamp entries hp] at hparse
    cases hparse

/-- What is shown of a fraction of a millisecond is before the entry. -/
theorem not_excluded_of_fraction (h : Stamped e) (hlen : entries.length ≤ chatHistoryLimit)
    (he : e ∈ entries) (hfrac : e.time.nanos % 1000000 ≠ 0) (hyear : ShowsYear e.time) :
    ¬ Excluded entries e.time.formatServer e := by
  intro hex
  have hp : parseServerTime e.time.formatServer = some ⟨e.time.nanos / 1000000 * 1000000, 0⟩ := by
    rcases parse_displayed h.utc with ⟨-, hp⟩ | ⟨hno, -⟩
    · exact hp
    · exact absurd hyear hno
  have hr : (Reference.time ⟨e.time.nanos / 1000000 * 1000000, 0⟩).Denoted
      (lit "timestamp=" ++ e.time.formatServer) := .time hp
  have hupper : toUpper (lit "AFTER") = lit "AFTER" := rfl
  have hlimit : (1 : Int) ≤ chatHistoryLimit := by decide
  refine hex (lit "AFTER") _ chatHistoryLimit _ ?_ (mem_singleton_self _) (Int.le_refl _)
    (select_after hlimit hr hupper) ?_
  · rw [hupper]
    decide
  · -- the limit is that of the history
    have hle := (filterHistory_sublist entries
      ((Reference.time ⟨e.time.nanos / 1000000 * 1000000, 0⟩).isAfter entries)).length_le
    show e ∈ (filterHistory entries _).take chatHistoryLimit
    rw [take_of_length_le (hle.trans hlen)]
    refine mem_filterHistory_of_kept he fun i => ?_
    have htime : (HistoryEntry.time e).nanos = e.time.nanos := rfl
    simp only [Reference.isAfter, htime, decide_eq_true_eq]
    omega

/-- **A request by the displayed time of a message does not return it, exactly if the time is a whole
number of milliseconds** or cannot be read. -/
theorem excluded_iff (hv : (ircd env).Valid es) {key : Bytes} {ch : Channel}
    (hch : ((ircd env).after es).srv.channels.lookup key = some ch) {e : ChatHistoryEntry}
    (he : e ∈ ch.history) :
    ∃ time, e.msg.tags.lookup (lit "time") = some time ∧
      (Excluded ch.history time e ↔ e.time.nanos % 1000000 = 0 ∨ ¬ ShowsYear e.time) := by
  obtain ⟨hlen, hstamped⟩ := after_stamped hv _ (.channel hch)
  have hs := hstamped e he
  refine ⟨_, hs.tag, ?_, excluded_of_whole hs⟩
  intro hex
  by_contra hc
  rw [not_or, not_not] at hc
  exact not_excluded_of_fraction hs hlen he hc.1 hc.2 hex

end

section
attribute [local instance] asciiTables

def clockAt (nanos : Int) : Env := newServer {} { World.still with now := fun _ => ⟨nanos, 0⟩ }

def oneMessage : List Event :=
  registration 0 (lit "alice") ++ [.line 0 (lit "JOIN #a"), .line 0 (lit "PRIVMSG #a :hi")]

/-- The times of what is stored for the channel. -/
def storedTimes (nanos : Int) : Option (List Time) :=
  (((ircd (clockAt nanos)).after oneMessage).srv.channels.lookup (lit "#a")).map fun ch =>
    ch.history.map ChatHistoryEntry.time

theorem exists_of_storedTimes {nanos : Int} {t : Time} (h : storedTimes nanos = some [t]) :
    ∃ ch e, ((ircd (clockAt nanos)).after oneMessage).srv.channels.lookup (lit "#a") = some ch ∧
      e ∈ ch.history ∧ e.time = t := by
  unfold storedTimes at h
  obtain ⟨ch, hch, htimes⟩ := Option.map_eq_some_iff.1 h
  have hmem : t ∈ ch.history.map ChatHistoryEntry.time := by simp [htimes]
  obtain ⟨e, he, ht⟩ := mem_map.1 hmem
  exact ⟨ch, e, hch, he, ht⟩

/-- A whole number of milliseconds. -/
theorem excluded_iff_whole :
    ∃ ch e time, ((ircd (clockAt 1709214305123000000)).after oneMessage).srv.channels.lookup
        (lit "#a") = some ch ∧ e ∈ ch.history ∧ e.msg.tags.lookup (lit "time") = some time ∧
      Excluded ch.history time e := by
  have hv : (ircd (clockAt 1709214305123000000)).Valid oneMessage := by decide +kernel
  have htimes : storedTimes 1709214305123000000 = some [⟨1709214305123000000, 0⟩] := by
    decide +kernel
  obtain ⟨ch, e, hch, he, ht⟩ := exists_of_storedTimes htimes
  obtain ⟨time, htag, hiff⟩ := excluded_iff _ hv hch he
  refine ⟨ch, e, time, hch, he, htag, hiff.2 (.inl ?_)⟩
  rw [ht]
  decide

/-- The message is returned again. -/
theorem not_excluded_fraction :
    (ircd (clockAt 1709214305123456789)).Valid oneMessage ∧
    ∃ ch e time, ((ircd (clockAt 1709214305123456789)).after oneMessage).srv.channels.lookup
        (lit "#a") = some ch ∧ e ∈ ch.history ∧ e.msg.tags.lookup (lit "time") = some time ∧
      ¬ Excluded ch.history time e := by
  have hv : (ircd (clockAt 1709214305123456789)).Valid oneMessage := by decide +kernel
  have htimes : storedTimes 1709214305123456789 = some [⟨1709214305123456789, 0⟩] := by
    decide +kernel
  obtain ⟨ch, e, hch, he, ht⟩ := exists_of_storedTimes htimes
  obtain ⟨hlen, hstamped⟩ := after_stamped hv _ (.channel hch)
  refine ⟨hv, ch, e, _, hch, he, (hstamped e he).tag, ?_⟩
  refine not_excluded_of_fraction (hstamped e he) hlen he ?_ ?_
  · rw [ht]
    decide
  · rw [ht]
    exact ⟨by decide, by decide⟩

end

end Irc
