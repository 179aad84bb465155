import GoProtocols.Irc.CapList
import GoProtocols.Irc.Proof.Says.Channels

/-!
# Replies that list names

`sendNames` and `sendMonitorList` cut a list into lines in two different ways. Either way no item is
lost (`sent_lists`). The names are those of all members of the channel (`shownName`).
-/

namespace Irc

open Go List

variable {sep : UInt8} {max : Nat} {items l : List Bytes} (line : List Bytes) (lineLen : Nat)
  (names : List Bytes)

/-- The payloads are the items in order, taken apart at `sep`, and they are within the limit. -/
structure Lists (sep : UInt8) (max : Nat) (items payloads : List Bytes) : Prop where
  split : payloads.flatMap (split · sep) = items
  nonempty : [] ∉ items → [] ∉ payloads
  length : ∀ p ∈ payloads, p.length ≤ max ∨ p ∈ items

theorem Lists.of_lines {lines : List (List Bytes)} (h : ∀ v ∈ lines.flatten, sep ∉ v)
    (hlines : ∀ l ∈ lines, l ≠ [] ∧ (room l ≤ max ∨ ∃ v, l = [v])) :
    Lists sep max lines.flatten (lines.map (join · [sep])) := by
  have hsplit : ∀ l ∈ lines, Go.split (join l [sep]) sep = l := fun l hl =>
    splitOn_intercalate sep (fun v hv => h v (mem_flatten.2 ⟨l, hl, hv⟩)) (hlines l hl).1
  refine ⟨?_, fun hitems hp => ?_, fun p hp => ?_⟩
  · rw [flatMap_map, flatMap_congr hsplit, flatMap_id']
  · obtain ⟨l, hl, hjoin⟩ := mem_map.1 hp
    have hnil : l = [[]] := (hsplit l hl).symm.trans (by rw [hjoin]; rfl)
    exact hitems (mem_flatten.2 ⟨l, hl, by simp [hnil]⟩)
  · obtain ⟨l, hl, rfl⟩ := mem_map.1 hp
    rcases (hlines l hl).2 with hroom | ⟨v, rfl⟩
    · exact .inl ((length_join_sep sep l).trans hroom)
    · exact .inr (mem_flatten.2 ⟨[v], hl, by simp [join]⟩)

theorem room_of_mem_nameLines {line names : List Bytes}
    (hline : room line ≤ 400 ∨ ∃ v, line = [v]) (h : l ∈ nameLines line (room line) names) :
    l ≠ [] ∧ (room l ≤ 400 ∨ ∃ v, l = [v]) := by
  induction names generalizing line with
  | nil =>
    unfold nameLines at h
    split at h
    · cases h
    · rw [mem_singleton.1 h]
      exact ⟨‹_›, hline⟩
  | cons n names ih =>
    have hroom : room (line ++ [n]) = room line + n.length + 1 := by simp [room, Nat.add_assoc]
    unfold nameLines at h
    split at h
    · rename_i hfull
      rcases mem_cons.1 h with rfl | h
      · exact ⟨hfull.2, hline⟩
      · exact ih (.inr ⟨n, rfl⟩) (by simpa [room] using h)
    · rename_i hfits
      refine ih ?_ (hroom ▸ h)
      rcases eq_or_ne line [] with rfl | hne
      · exact .inr ⟨n, rfl⟩
      · exact .inl (by rw [hroom]; exact Nat.le_of_not_lt fun hlong => hfits ⟨hlong, hne⟩)

/-- What `sendNames` sends for a list of names. -/
def namePayloads : List Bytes :=
  (nameLines [] 0 names).map (join · (lit " "))

/-- What `sendMonitorList` sends for a list of values. -/
def monitorPayloads (values : List Bytes) : List Bytes :=
  (chunks 350 values.length values).map (join · (lit ","))

section
variable [UnicodeTables]

/-- **Lists are cut without loss.** -/
theorem sent_lists (s : SessionId) :
    (∀ ch, sendNames s ch = do
      let srv ← server
      let members ← ch.memberList
      (namePayloads (members.map (shownName srv (srv.session s)))).forM fun p =>
        sendNumeric s .RPL_NAMREPLY [lit "=", ch.name, p]
      sendNumeric s .RPL_ENDOFNAMES [ch.name, lit "End of /NAMES list"]) ∧
    (∀ n values, sendMonitorList s n values =
      (monitorPayloads values).forM fun p => sendNumeric s n [p]) ∧
    (∀ names, (∀ v ∈ names, 32 ∉ v) → Lists 32 400 names (namePayloads names)) ∧
    ∀ values, (∀ v ∈ values, 44 ∉ v) → Lists 44 350 values (monitorPayloads values) := by
  refine ⟨fun ch => ?_, fun n values => ?_, fun names h => ?_, fun values h => ?_⟩
  · unfold sendNames namePayloads
    simp only [forM_eq_forM, forM_map]
    rfl
  · rw [sendMonitorList, monitorPayloads, forM_eq_forM, forM_eq_forM, forM_map]
  · have hflat : (nameLines [] 0 names).flatten = names := nameLines_flatten [] 0 names
    have hlists := @Lists.of_lines 32 400 (nameLines [] 0 names) (by rwa [hflat]) fun l =>
      @room_of_mem_nameLines l [] names (.inl (by decide))
    rwa [hflat] at hlists
  · have hflat := chunks_flatten 350 (le_refl values.length)
    have hlists := @Lists.of_lines 44 350 (chunks 350 values.length values) (by rwa [hflat])
      fun l hl => (room_of_mem_chunks hl).imp_right (.imp_right fun ⟨v, _, hline⟩ => ⟨v, hline⟩)
    rwa [hflat] at hlists

end

section
attribute [local instance] asciiTables

/-- The second name no longer fits into the line of the first, and the third one does. -/
def longNames : List Bytes := [replicate 250 97, replicate 200 98, lit "c"]

theorem sent_lists_longNames :
    ((namePayloads longNames).length = 2 ∧ Lists 32 400 longNames (namePayloads longNames)) ∧
      (monitorPayloads longNames).length = 2 ∧ Lists 44 350 longNames (monitorPayloads longNames) :=
  have hlists := (sent_lists 0).2.2
  ⟨⟨by decide +kernel, hlists.1 longNames (by decide +kernel)⟩, by decide +kernel,
    hlists.2 longNames (by decide +kernel)⟩

end

end Irc
