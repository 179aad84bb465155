import GoProtocols.Sftp.Framing
import GoProtocols.Sftp.Proof.Deeds

/-!
# Directory listings

A `NAME` reply has no number of entries: the client finds the end of an entry from its strings and
from the flags of its attributes. `readEntries_namePacket`: it finds the entries that the server has
put there, but those for the directory itself and its parent.
-/

namespace Sftp

open Go Client List

variable (e : FileStat) {buf : Bytes} {off next : Nat} (id : UInt32) {es : List FileStat}

def isDot (name : Bytes) : Bool := decide (name = lit "." ∨ name = lit "..")

/-- What a client is to see of an entry. -/
def FileStat.entry : DirEntry where
  name := e.name
  attr :=
    { size := e.size, uid := e.uid, gid := e.gid, mode := e.mode
      mtime := if e.mtime = 0 then zeroTime else unixTime e.mtime.toInt, atime := zeroTime }

def FileStat.InRange : Prop := 0 ≤ e.mtime.toInt ∧ e.mtime.toInt < 2 ^ 32

instance : Decidable e.InRange := inferInstanceAs (Decidable (_ ∧ _))

theorem attr_eq : e.attr = e.entry.attr := by
  unfold FileStat.attr FileStat.entry
  by_cases h : e.mtime = 0 <;> simp [h]

theorem FileStat.InRange.storable {e : FileStat} (h : e.InRange) : Storable e.attr.mtime := by
  rw [attr_eq]
  show Storable (if e.mtime = 0 then zeroTime else unixTime e.mtime.toInt)
  split
  · exact .inl rfl
  · obtain ⟨hpos, hlt⟩ := h
    exact .inr ⟨e.mtime.toInt.toNat, by omega, by rw [Int.toNat_of_nonneg hpos]⟩

theorem readEntry_at {e : FileStat} (he : e.InRange) (hname : e.name.length < 2 ^ 32)
    (h : StandsAt buf off (nameEntry e)) :
    readEntry buf off = some (.ok (e.entry, off + (nameEntry e).length)) := by
  rw [nameEntry, appendString_eq _ [], append_assoc] at h
  obtain ⟨h1, h⟩ := standsAt_append.1 h
  obtain ⟨h2, h3⟩ := standsAt_append.1 h
  have hlen : (nameEntry e).length = 4 + e.name.length + (4 + e.attr.encode.length) := by
    rw [nameEntry, appendString_eq _ [], append_assoc, length_append, length_append,
      length_appendString, length_appendString, length_nil]
  rw [length_appendString, ← Nat.add_assoc] at h2 h3
  have hname := readString_at hname h1
  have hlong := readString_at (s := []) (by decide) h2
  have hattrs := decodeAttrs_at he.storable (.inl rfl) h3
  rw [length_appendString, ← Nat.add_assoc] at hattrs
  rw [readEntry, andThen_ok hname, andThen_ok hlong, andThen_ok hattrs, hlen]
  simp only [attr_eq, length_nil, Nat.add_assoc, Nat.zero_add]
  rfl

theorem readEntries_step {e : DirEntry} (hoff : off < buf.length)
    (h : readEntry buf off = some (.ok (e, next))) (entries : List DirEntry) :
    readEntries buf off entries =
      readEntries buf next (if isDot e.name then entries else entries ++ [e]) := by
  rw [readEntries, if_pos hoff]
  split
  · rename_i h'
    cases h.symm.trans h'
  · rename_i h'
    cases h.symm.trans h'
  · rename_i e' next' h'
    cases h.symm.trans h'
    by_cases hdot : e.name = lit "." ∨ e.name = lit ".."
    · simp [hdot, isDot]
    · simp [hdot, isDot]

theorem nameEntry_ne_nil : nameEntry e ≠ [] := by
  simp [nameEntry, appendString, BigEndian.encode]

theorem readEntries_at (hes : ∀ e ∈ es, e.InRange) (hbuf : buf.length < 2 ^ 32)
    (h : buf.drop off = es.flatMap nameEntry) (hoff : off ≤ buf.length) (entries : List DirEntry) :
    readEntries buf off entries =
      some (.ok (entries ++ (es.filter fun e => !isDot e.name).map FileStat.entry)) := by
  induction es generalizing off entries with
  | nil =>
    have hend : ¬ off < buf.length := by
      have hnil : buf.drop off = [] := h
      rw [drop_eq_nil_iff] at hnil
      omega
    rw [readEntries, if_neg hend]
    simp
  | cons e es ih =>
    rw [flatMap_cons] at h
    have hstands : StandsAt buf off (nameEntry e) := ⟨_, h.symm⟩
    have hle := hstands.le (nameEntry_ne_nil e)
    have hpos := length_pos_iff.2 (nameEntry_ne_nil e)
    have hname : e.name.length < 2 ^ 32 := by
      have hlen : e.name.length ≤ (nameEntry e).length := by
        simp [nameEntry, appendString]
        omega
      omega
    have hread := readEntry_at (hes e mem_cons_self) hname hstands
    have hrest : buf.drop (off + (nameEntry e).length) = es.flatMap nameEntry := by
      rw [← drop_drop, h, drop_left]
    rw [readEntries_step (by omega) hread,
      ih (fun e' he' => hes e' (mem_cons_of_mem e he')) hrest hle]
    by_cases hdot : isDot e.name = true
    · have hdot' : isDot e.entry.name = true := hdot
      simp [hdot, hdot']
    · have hdot' : isDot e.entry.name = false := Bool.eq_false_iff.2 hdot
      simp [hdot, hdot']

/-- **The client reads the entries that the server has listed**, in their order and without those
for the directory itself and its parent. -/
theorem readEntries_namePacket (hes : ∀ e ∈ es, e.InRange) (hfits : (namePacket id es).Fits) :
    readEntries (namePacket id es).payload 4 [] =
      some (.ok ((es.filter fun e => !isDot e.name).map FileStat.entry)) := by
  have hlen : 1 + (namePacket id es).payload.length ≤ 2 ^ 24 := hfits
  have hid : (appendUint32 [] id).length = 4 := by simp [appendUint32]
  have hdrop : (namePacket id es).payload.drop 4 = es.flatMap nameEntry :=
    drop_left' hid
  have hoff : 4 ≤ (namePacket id es).payload.length := by
    show 4 ≤ (appendUint32 [] id ++ es.flatMap nameEntry).length
    rw [length_append, hid]
    omega
  simpa using readEntries_at hes (by omega) hdrop hoff []

/-- A directory with two files, one of them without a time. -/
def smallDirectory : List FileStat :=
  [{ name := lit "." , mode := 493, isDir := true, mtime := 1 },
    { name := lit "a", size := 5, mode := 420, mtime := 1700000000, uid := 1000, gid := 0 },
    { name := lit "..", mode := 493, isDir := true }, { name := [], size := 1 }]

theorem readEntries_smallDirectory :
    (∀ e ∈ smallDirectory, e.InRange) ∧ (namePacket 7 smallDirectory).Fits ∧
      readEntries (namePacket 7 smallDirectory).payload 4 [] =
        some (.ok ((smallDirectory.filter fun e => !isDot e.name).map FileStat.entry)) := by
  have hes : ∀ e ∈ smallDirectory, e.InRange := by decide +kernel
  have hfits : (namePacket 7 smallDirectory).Fits := by decide +kernel
  exact ⟨hes, hfits, readEntries_namePacket 7 hes hfits⟩

end Sftp
