import GoProtocols.Sftp.Remote

/-!
# Sequential access to a remote file

A client creates a file, writes to it, opens it again and reads. `Storage b path` is what is asked of
the backend: `Write` overwrites at the offset, and `Read` gives some bytes from the offset on, or
`io.EOF` at the end. Through the client, the channel and the server this is access to a local file
(`sequential_access`): the writes follow one another, and so do the reads.

The offset of a `File` has 64 bits. `store` is what a sequence of writes leaves behind with this; up to
`2 ^ 64` bytes it is what was written (`foldl_store`), and the byte after that is the first byte of
the file again (`not_sequential_access_huge`).
-/

namespace Sftp

open Go List

variable {chunks : List Bytes}

/-! ## Storage -/

def overwrite (old : Bytes) (offset : Nat) (data : Bytes) : Bytes :=
  old.take offset ++ data ++ old.drop (offset + data.length)

namespace Client

/-- The flags of `Create`. -/
def createFlags : UInt32 := openWrite ||| openCreate ||| openTrunc

end Client

/-- A backend that stores the file at a path. -/
structure Storage {W : Type} (b : Backend W) (path : Bytes) where
  content : W → Bytes
  /-- The handle is one for writing the file. -/
  writable : W → Bytes → Prop
  /-- The handle is one for reading the file. -/
  readable : W → Bytes → Prop
  create : ∀ {w real}, (b.open_ path Client.createFlags w).1 = .ok real →
    content (b.open_ path Client.createFlags w).2 = [] ∧
      writable (b.open_ path Client.createFlags w).2 real
  reopen : ∀ {w real}, (b.open_ path Client.openRead w).1 = .ok real →
    content (b.open_ path Client.openRead w).2 = content w ∧
      readable (b.open_ path Client.openRead w).2 real
  close : ∀ {w real}, content (b.close real w).2 = content w
  write : ∀ {w real} offset data, writable w real → offset.toNat ≤ (content w).length →
    (b.write real offset data w).1 = .ok () ∧
      content (b.write real offset data w).2 = overwrite (content w) offset.toNat data ∧
        writable (b.write real offset data w).2 real
  /-- Before the end there are some bytes. -/
  read : ∀ {w real} offset size, readable w real → 0 < size.toNat →
    offset.toNat < (content w).length → (b.read real offset size w).1.err = none ∧
      ∃ data, slice (b.read real offset size w).1.buf 0 (b.read real offset size w).1.n = some data ∧
        data ≠ [] ∧ data <+: (content w).drop offset.toNat
  eof : ∀ {w real} offset size, readable w real → 0 < size.toNat →
    (content w).length ≤ offset.toNat →
      ∃ e, (b.read real offset size w).1.err = some e ∧ e.kind = .eof
  keep : ∀ {w real} offset size, readable w real →
    content (b.read real offset size w).2 = content w ∧ readable (b.read real offset size w).2 real

/-! ## Runs -/

namespace Client

/-- Several calls of `File.Write`. -/
def File.writeAll {W : Type} (do_ : Do W) : File → List Bytes → Ask W (List (Answer Nat) × File)
  | f, [], w => (([], f), w)
  | f, data :: chunks, w =>
    let r := f.write do_ data w
    let s := writeAll do_ r.1.2 chunks r.2
    ((r.1.1 :: s.1.1, s.1.2), s.2)

/-- Several calls of `File.Read`, with buffers of the given sizes. -/
def File.readAll {W : Type} (do_ : Do W) : File → List Nat → Ask W (List (Answer Bytes) × File)
  | f, [], w => (([], f), w)
  | f, size :: sizes, w =>
    let r := f.read do_ size w
    let s := readAll do_ r.1.2 sizes r.2
    ((r.1.1 :: s.1.1, s.1.2), s.2)

/-- What the writes and the reads have returned. -/
structure Transcript where
  writes : List (Answer Nat)
  reads : List (Answer Bytes)

/-- Write a new file, and read it again. There is nothing to say if it cannot be created or opened. -/
def access {W : Type} (do_ : Do W) (path : Bytes) (chunks : List Bytes) (closes : Bool)
    (sizes : List Nat) : Ask W (Option Transcript) := fun w =>
  match create do_ path w with
  | (some (.ok f), w) =>
    let written := f.writeAll do_ chunks w
    let w := if closes then (written.1.2.close do_ written.2).2 else written.2
    match openForRead do_ path w with
    | (some (.ok g), w) =>
      let r := g.readAll do_ sizes w
      (some { writes := written.1.1, reads := r.1.1 }, r.2)
    | (_, w) => (none, w)
  | (_, w) => (none, w)

end Client

open Client

def bytesRead (reads : List (Answer Bytes)) : Bytes :=
  reads.flatMap fun
    | some (.ok data) => data
    | _ => []

/-- The reads return some bytes of the file each, from the first on, and `io.EOF` at its end only. -/
structure Faithful (content : Bytes) (reads : List (Answer Bytes)) : Prop where
  answers : ∀ r ∈ reads, r = some (.error .eof) ∨ ∃ data, r = some (.ok data) ∧ data ≠ []
  bytes : bytesRead reads <+: content
  eof : ∀ before after, reads = before ++ some (.error .eof) :: after → bytesRead before = content

/-- What the reads of the bytes that are left return. -/
inductive Consumes : Bytes → List (Answer Bytes) → Prop
  | nil (rest : Bytes) : Consumes rest []
  | data {data rest : Bytes} {reads : List (Answer Bytes)} (hdata : data ≠ [])
      (h : Consumes rest reads) : Consumes (data ++ rest) (some (.ok data) :: reads)
  | eof {reads : List (Answer Bytes)} (h : Consumes [] reads) :
      Consumes [] (some (.error .eof) :: reads)

theorem Consumes.faithful {content : Bytes} {reads : List (Answer Bytes)}
    (h : Consumes content reads) : Faithful content reads := by
  induction h with
  | nil rest => exact ⟨nofun, nil_prefix, by simp⟩
  | @data data rest reads hdata _ ih =>
    refine ⟨forall_mem_cons.2 ⟨.inr ⟨data, rfl, hdata⟩, ih.answers⟩, ?_, ?_⟩
    · exact (prefix_append_right_inj data).2 ih.bytes
    · intro before after heq
      cases before with
      | nil => cases heq
      | cons r before =>
        obtain ⟨rfl, hrest⟩ := List.cons.inj heq
        exact congrArg (data ++ ·) (ih.eof before after hrest)
  | @eof reads _ ih =>
    refine ⟨forall_mem_cons.2 ⟨.inl rfl, ih.answers⟩, ih.bytes, ?_⟩
    intro before after heq
    cases before with
    | nil => rfl
    | cons r before =>
      obtain ⟨rfl, hrest⟩ := List.cons.inj heq
      exact ih.eof before after hrest

/-! ## What writes leave behind -/

/-- A write at the offset of a `File`: the file, and the number of bytes written so far. -/
def store (s : Bytes × Nat) (data : Bytes) : Bytes × Nat :=
  (overwrite s.1 (s.2 % 2 ^ 64) data, s.2 + data.length)

theorem overwrite_nil (old : Bytes) (offset : Nat) : overwrite old offset [] = old := by
  simp [overwrite]

theorem store_le {s : Bytes × Nat} (h : s.2 % 2 ^ 64 ≤ s.1.length) (data : Bytes) :
    (store s data).2 % 2 ^ 64 ≤ (store s data).1.length := by
  have hlen : s.2 % 2 ^ 64 + data.length ≤ (overwrite s.1 (s.2 % 2 ^ 64) data).length := by
    simp only [overwrite, length_append, length_take]
    omega
  simp only [store]
  omega

theorem foldl_store {c : Bytes}
    (h : (c ++ chunks.flatten).length ≤ 2 ^ 64) :
    chunks.foldl store (c, c.length) = (c ++ chunks.flatten, (c ++ chunks.flatten).length) := by
  induction chunks generalizing c with
  | nil => simp
  | cons data chunks ih =>
    have hstore : store (c, c.length) data = (c ++ data, (c ++ data).length) := by
      cases data with
      | nil => simp [store, overwrite_nil]
      | cons a data =>
        have hlt : c.length < 2 ^ 64 := by
          simp only [flatten_cons, length_append, length_cons] at h
          omega
        rw [store, Nat.mod_eq_of_lt hlt]
        simp [overwrite]
    rw [flatten_cons, ← append_assoc] at h ⊢
    rw [foldl_cons, hstore, ih h]

/-! ## Writes and reads through the channel -/

section
variable {W : Type} {b : Backend W} {path : Bytes} (S : Storage b path)

/-- A file that is being written. -/
structure Writing (l : Link W) (f : File) (s : Bytes × Nat) : Prop where
  exists_link : ∃ w m real, l.Stands w m ∧ m.lookup f.handle = some real ∧ S.writable w real ∧
    S.content w = s.1
  handle : f.handle.length ≤ 11
  off : f.off = UInt64.ofNat s.2
  le : s.2 % 2 ^ 64 ≤ s.1.length

/-- A file that is being read, from a position on. -/
structure Reading (l : Link W) (f : File) (content : Bytes) (pos : Nat) : Prop where
  exists_link : ∃ w m real, l.Stands w m ∧ m.lookup f.handle = some real ∧ S.readable w real ∧
    S.content w = content
  handle : f.handle.length ≤ 11
  off : f.off = UInt64.ofNat pos

variable {S} {l l' : Link W} {f : File} {s : Bytes × Nat} {content data : Bytes} {pos size : Nat}

theorem Writing.write (h : Writing S l f s) (hdata : data.length < shortTransfer) :
    ∃ f' l', f.write (remote b) data l = ((some (.ok data.length), f'), l') ∧
      Writing S l' f' (store s data) := by
  obtain ⟨⟨w, m, real, hl, hreal, hw, hcontent⟩, hhandle, hoff, hle⟩ := h
  have hnat : f.off.toNat = s.2 % 2 ^ 64 := by rw [hoff, UInt64.toNat_ofNat']
  have hend : f.off.toNat ≤ (S.content w).length := by rwa [hnat, hcontent]
  obtain ⟨hok, hnew, hw'⟩ := S.write f.off data hw hend
  obtain ⟨l', hwrite, hl'⟩ := write_remote hl hreal hhandle hdata hok
  refine ⟨{ f with off := f.off + UInt64.ofNat data.length }, l', by rw [File.write, hwrite],
    ⟨_, m, real, hl', hreal, hw', ?_⟩, hhandle, ?_, store_le hle data⟩
  · rw [hnew, hcontent, hnat]
    rfl
  · show f.off + UInt64.ofNat data.length = UInt64.ofNat (s.2 + data.length)
    rw [hoff, UInt64.ofNat_add]

theorem Writing.writeAll (h : Writing S l f s)
    (hchunks : ∀ data ∈ chunks, data.length < shortTransfer) :
    ∃ f' l', f.writeAll (remote b) chunks l =
        ((chunks.map fun data => some (.ok data.length), f'), l') ∧
      Writing S l' f' (chunks.foldl store s) := by
  induction chunks generalizing l f s with
  | nil => exact ⟨f, l, rfl, h⟩
  | cons data chunks ih =>
    obtain ⟨f₁, l₁, hwrite, h₁⟩ := h.write (hchunks data mem_cons_self)
    obtain ⟨f₂, l₂, hall, h₂⟩ := ih h₁ fun d hd => hchunks d (mem_cons_of_mem data hd)
    exact ⟨f₂, l₂, by rw [File.writeAll, hwrite, hall]; rfl, h₂⟩

theorem Reading.read (h : Reading S l f content pos) (hpos : pos < 2 ^ 64) (hsize : 0 < size)
    (hshort : size < shortTransfer) :
    ∃ r f' l', f.read (remote b) size l = ((r, f'), l') ∧
      ((∃ data, r = some (.ok data) ∧ data ≠ [] ∧ data <+: content.drop pos ∧
          Reading S l' f' content (pos + data.length)) ∨
        (r = some (.error .eof) ∧ content.length ≤ pos ∧ Reading S l' f' content pos)) := by
  obtain ⟨⟨w, m, real, hl, hreal, hr, hcontent⟩, hhandle, hoff⟩ := h
  have hnat : f.off.toNat = pos := hoff ▸ UInt64.toNat_ofNat_of_lt hpos
  have hsize32 : 0 < (UInt32.ofNat size).toNat := by
    rw [shortTransfer_eq] at hshort
    have heq : (UInt32.ofNat size).toNat = size :=
      UInt32.toNat_ofNat_of_lt (show size < 2 ^ 32 by omega)
    rwa [heq]
  obtain ⟨hkeep, hr'⟩ := S.keep f.off (UInt32.ofNat size) hr
  by_cases hend : pos < content.length
  · have hlt : f.off.toNat < (S.content w).length := by rwa [hnat, hcontent]
    obtain ⟨herr, data, hslice, hne, hdata⟩ := S.read f.off (UInt32.ofNat size) hr hsize32 hlt
    obtain ⟨l', hread, hl'⟩ := read_remote hl hreal hhandle hshort herr hslice
    rw [hcontent, hnat] at hdata
    refine ⟨_, { f with off := f.off + UInt64.ofNat data.length }, l', by rw [File.read, hread],
      .inl ⟨data, rfl, hne, hdata, ⟨_, m, real, hl', hreal, hr', hkeep.trans hcontent⟩, hhandle, ?_⟩⟩
    show f.off + UInt64.ofNat data.length = UInt64.ofNat (pos + data.length)
    rw [hoff, UInt64.ofNat_add]
  · have hge : (S.content w).length ≤ f.off.toNat := by
      rw [hnat, hcontent]
      exact Nat.le_of_not_lt hend
    obtain ⟨e, herr, heof⟩ := S.eof f.off (UInt32.ofNat size) hr hsize32 hge
    obtain ⟨l', hread, hl'⟩ := read_remote_eof hl hreal hhandle herr heof
    exact ⟨_, f, l', by rw [File.read, hread], .inr ⟨rfl, Nat.le_of_not_lt hend,
      ⟨_, m, real, hl', hreal, hr', hkeep.trans hcontent⟩, hhandle, hoff⟩⟩

theorem Reading.readAll (h : Reading S l f content pos) (hpos : pos ≤ content.length)
    (hcontent : content.length < 2 ^ 64) {sizes : List Nat}
    (hsizes : ∀ n ∈ sizes, 0 < n ∧ n < shortTransfer) :
    ∃ reads f' l', f.readAll (remote b) sizes l = ((reads, f'), l') ∧
      reads.length = sizes.length ∧ Consumes (content.drop pos) reads := by
  induction sizes generalizing l f pos with
  | nil => exact ⟨[], f, l, rfl, rfl, .nil _⟩
  | cons size sizes ih =>
    obtain ⟨hsize, hshort⟩ := hsizes size mem_cons_self
    have hrest : ∀ n ∈ sizes, 0 < n ∧ n < shortTransfer := fun n hn =>
      hsizes n (mem_cons_of_mem size hn)
    obtain ⟨r, f₁, l₁, hread, hcase⟩ := h.read (by omega) hsize hshort
    rcases hcase with ⟨data, rfl, hne, ⟨rest, hdata⟩, h₁⟩ | ⟨rfl, hend, h₁⟩
    · have hle : pos + data.length ≤ content.length := by
        have hlen := congrArg List.length hdata
        rw [length_append, length_drop] at hlen
        omega
      obtain ⟨reads, f₂, l₂, hall, hlen, hconsumes⟩ := ih h₁ hle hrest
      rw [← drop_drop, ← hdata, drop_left] at hconsumes
      exact ⟨some (.ok data) :: reads, f₂, l₂, by rw [File.readAll, hread, hall],
        congrArg (· + 1) hlen, hdata ▸ .data hne hconsumes⟩
    · obtain ⟨reads, f₂, l₂, hall, hlen, hconsumes⟩ := ih h₁ hpos hrest
      rw [drop_eq_nil_of_le hend] at hconsumes ⊢
      exact ⟨some (.error .eof) :: reads, f₂, l₂, by rw [File.readAll, hread, hall],
        congrArg (· + 1) hlen, .eof hconsumes⟩

/-! ## The whole access -/

theorem openFile_eq_ok {V : Type} {do_ : Do V} {flags : UInt32} {v v' : V}
    (h : openFile do_ path flags v = (some (.ok f), v')) :
    open_ do_ path flags v = (some (.ok f.handle), v') ∧ f.off = 0 := by
  obtain ⟨hanswer, rfl⟩ := Prod.mk.inj h
  cases hopen : (open_ do_ path flags v).1 with
  | none => simp [hopen] at hanswer
  | some r =>
    cases r with
    | error e => simp [hopen, Except.map] at hanswer
    | ok handle =>
      simp only [hopen, Option.map_some, Except.map, Option.some.injEq, Except.ok.injEq] at hanswer
      subst hanswer
      exact ⟨Prod.ext hopen rfl, rfl⟩

theorem create_writing (S : Storage b path) (hl : l.alive = true)
    (h : create (remote b) path l = (some (.ok f), l')) : Writing S l' f ([], 0) := by
  obtain ⟨hopen, hoff⟩ := openFile_eq_ok h
  obtain ⟨real, hreal, hlen, hl'⟩ := open_ok ⟨hl, rfl, rfl⟩ hopen
  obtain ⟨hcontent, hw⟩ := S.create hreal
  exact ⟨⟨_, _, real, hl', AList.lookup_insert _, hw, hcontent⟩, hlen, hoff, Nat.zero_le _⟩

theorem reopen_reading {w : W} {m : Map Bytes Bytes} (S : Storage b path) (hl : l.Stands w m)
    (h : openForRead (remote b) path l = (some (.ok f), l')) : Reading S l' f (S.content w) 0 := by
  obtain ⟨hopen, hoff⟩ := openFile_eq_ok h
  obtain ⟨real, hreal, hlen, hl'⟩ := open_ok hl hopen
  obtain ⟨hcontent, hr⟩ := S.reopen hreal
  exact ⟨⟨_, _, real, hl', AList.lookup_insert _, hr, hcontent⟩, hlen, hoff⟩

theorem Writing.close (h : Writing S l f s) (closes : Bool) :
    ∃ w m, (if closes then (f.close (remote b) l).2 else l).Stands w m ∧ S.content w = s.1 := by
  obtain ⟨⟨w, m, real, hl, hreal, hw, hcontent⟩, hhandle, -, -⟩ := h
  cases closes with
  | false => exact ⟨w, m, hl, hcontent⟩
  | true =>
    obtain ⟨l', hclose, hl'⟩ := close_remote (b := b) hl hreal hhandle
    refine ⟨(b.close real w).2, m.erase f.handle, ?_, S.close.trans hcontent⟩
    rw [if_pos rfl, File.close, hclose]
    exact hl'

theorem access_eq_some (S : Storage b path) (hl : l.alive = true)
    (hchunks : ∀ data ∈ chunks, data.length < shortTransfer) {closes : Bool} {sizes : List Nat}
    {t : Transcript} (h : (access (remote b) path chunks closes sizes l).1 = some t) :
    t.writes = chunks.map (fun data => some (.ok data.length)) ∧
      ∃ g l', Reading S l' g (chunks.foldl store ([], 0)).1 0 ∧
        t.reads = (g.readAll (remote b) sizes l').1.1 := by
  unfold access at h
  split at h
  · rename_i f l₁ hcreate
    obtain ⟨f₂, l₂, hwrites, h₂⟩ := (create_writing S hl hcreate).writeAll hchunks
    obtain ⟨w, m, hstands, hcontent⟩ := h₂.close closes
    simp only [hwrites] at h
    split at h
    · rename_i g l₃ hopen
      cases h
      exact ⟨rfl, g, l₃, hcontent ▸ reopen_reading S hstands hopen, rfl⟩
    · cases h
  · cases h

theorem openFile_remote {w : W} {m : Map Bytes Bytes} {real : Bytes} {flags : UInt32}
    (hl : l.Stands w m) (hpath : path.length < shortTransfer)
    (hok : (b.open_ path flags w).1 = .ok real) :
    ∃ f l', openFile (remote b) path flags l = (some (.ok f), l') := by
  obtain ⟨h, l', hopen⟩ := open_remote hl hpath hok
  exact ⟨{ handle := h }, l', by rw [openFile, hopen]; rfl⟩

theorem access_isSome (S : Storage b path) (hl : l.alive = true)
    (hpath : path.length < shortTransfer)
    (hopen : ∀ flags w, ∃ real, (b.open_ path flags w).1 = .ok real)
    (hchunks : ∀ data ∈ chunks, data.length < shortTransfer) (closes : Bool) (sizes : List Nat) :
    ∃ t, (access (remote b) path chunks closes sizes l).1 = some t := by
  obtain ⟨real, hreal⟩ := hopen createFlags l.conn.world.1
  obtain ⟨f, l₁, hcreate⟩ := openFile_remote ⟨hl, rfl, rfl⟩ hpath hreal
  obtain ⟨f₂, l₂, hwrites, h₂⟩ := (create_writing S hl hcreate).writeAll hchunks
  obtain ⟨w, m, hstands, -⟩ := h₂.close closes
  obtain ⟨real', hreal'⟩ := hopen openRead w
  obtain ⟨g, l₃, hread⟩ := openFile_remote hstands hpath hreal'
  have hcreate : create (remote b) path l = (some (.ok f), l₁) := hcreate
  have hread : openForRead (remote b) path _ = (some (.ok g), l₃) := hread
  apply Option.isSome_iff_exists.1
  simp only [access, hcreate, hwrites, hread, Option.isSome_some]

end

/-- **Access to a remote file is access to a local one**: if the file could be created and opened
again, all writes succeed, and the reads return what was written, from the first byte on, and
`io.EOF` only after the last. -/
theorem sequential_access {W : Type} {b : Backend W} {path : Bytes} (S : Storage b path)
    {l : Link W} (hl : l.alive = true) {chunks : List Bytes}
    (hchunks : ∀ data ∈ chunks, data.length < 2 ^ 24 - 64)
    (htotal : chunks.flatten.length < 2 ^ 64) (closes : Bool) {sizes : List Nat}
    (hsizes : ∀ n ∈ sizes, 0 < n ∧ n < 2 ^ 24 - 64) {t : Transcript}
    (h : (access (remote b) path chunks closes sizes l).1 = some t) :
    t.writes = chunks.map (fun data => some (.ok data.length)) ∧
      t.reads.length = sizes.length ∧ Faithful chunks.flatten t.reads := by
  obtain ⟨hwrites, g, l', hreading, hreads⟩ := access_eq_some S hl hchunks h
  have hstore : chunks.foldl store ([], 0) = (chunks.flatten, chunks.flatten.length) :=
    foldl_store (show ([] ++ chunks.flatten).length ≤ 2 ^ 64 from htotal.le)
  rw [hstore] at hreading
  obtain ⟨reads, f', l'', hall, hlen, hconsumes⟩ :=
    hreading.readAll (Nat.zero_le _) htotal hsizes
  rw [hall] at hreads
  subst hreads
  exact ⟨hwrites, hlen, hconsumes.faithful⟩

/-! ## A file in memory -/

/-- A backend with one file, at every path, that gives no more than two bytes at a time. -/
def memory : Backend Bytes where
  stat _ w := (.error {}, w)
  lstat _ w := (.error {}, w)
  open_ _ flags w := (.ok (lit "file"), if flags &&& openTrunc ≠ 0 then [] else w)
  read _ offset size w :=
    let data := (w.drop offset.toNat).take (min 2 size.toNat)
    ({ buf := data ++ List.replicate (size.toNat - data.length) 0
       length_buf := by
        rw [length_append, length_replicate, length_take]
        omega
       n := data.length
       err := if offset.toNat < w.length then none else some { kind := .eof } }, w)
  write _ offset data w := (.ok (), overwrite w offset.toNat data)
  close _ w := (.ok (), w)
  readdir _ w := (.error {}, w)
  mkdir _ w := (.error {}, w)
  rmdir _ w := (.error {}, w)
  remove _ w := (.error {}, w)
  rename _ _ w := (.error {}, w)

theorem slice_left (a b : Bytes) : slice (a ++ b) 0 a.length = some a := by
  have hbound : (0 : Int) ≤ 0 ∧ (0 : Int) ≤ a.length ∧ (a.length : Int) ≤ (a ++ b).length := by
    rw [length_append]
    omega
  have htake : (a ++ b).take a.length = a := take_left' rfl
  rw [slice, if_pos hbound, Int.toNat_natCast, htake]
  rfl

def memoryStorage (path : Bytes) : Storage memory path where
  content w := w
  writable _ _ := True
  readable _ _ := True
  create _ := ⟨rfl, trivial⟩
  reopen _ := ⟨rfl, trivial⟩
  close := rfl
  write _ _ _ _ := ⟨rfl, rfl, trivial⟩
  read {w _} offset size _ hsize hlt := by
    refine ⟨if_pos hlt, (w.drop offset.toNat).take (min 2 size.toNat), ?_, ?_, take_prefix _ _⟩
    · exact slice_left _ _
    · intro hnil
      have hlen := congrArg List.length hnil
      rw [length_take, length_drop, length_nil] at hlen
      omega
  eof _ _ _ _ hge := ⟨_, if_neg (Nat.not_lt.2 hge), rfl⟩
  keep _ _ _ := ⟨rfl, trivial⟩

def memoryLink : Link Bytes := { conn := { world := ([], []) } }

theorem sequential_access_memory :
    ∃ t, (access (remote memory) (lit "/f") [lit "ab", [], lit "c"] true [2, 5, 1] memoryLink).1 =
        some t ∧
      t.writes = [lit "ab", [], lit "c"].map (fun data => some (.ok data.length)) ∧
        t.reads.length = 3 ∧ Faithful (lit "abc") t.reads := by
  have hsome : (access (remote memory) (lit "/f") [lit "ab", [], lit "c"] true [2, 5, 1]
      memoryLink).1.isSome = true := by decide +kernel
  obtain ⟨t, ht⟩ := Option.isSome_iff_exists.1 hsome
  exact ⟨t, ht, sequential_access (memoryStorage (lit "/f")) rfl (by decide) (by decide) true
    (by decide) ht⟩

/-- `2 ^ 64` zeros in chunks of eight megabytes, and a one. -/
def hugeChunks : List Bytes := List.replicate (2 ^ 41) (List.replicate (2 ^ 23) 0) ++ [[1]]

theorem flatten_zeros :
    (List.replicate (2 ^ 41) (List.replicate (2 ^ 23) (0 : UInt8))).flatten =
      List.replicate (2 ^ 64) 0 := by
  rw [flatten_replicate_replicate, show 2 ^ 41 * 2 ^ 23 = 2 ^ 64 by decide]

theorem length_hugeChunks : ∀ data ∈ hugeChunks, data.length < 2 ^ 24 - 64 := by
  refine forall_mem_append.2 ⟨fun data h => ?_, by simp⟩
  rw [eq_of_mem_replicate h, length_replicate]
  decide

/-- The byte after `2 ^ 64` bytes is the first byte of the file. -/
theorem foldl_store_wraps (h : chunks.flatten.length = 2 ^ 64) (a : UInt8) :
    ((chunks ++ [[a]]).foldl store ([], 0)).1 = a :: chunks.flatten.drop 1 := by
  have hstore : chunks.foldl store ([], 0) = (chunks.flatten, chunks.flatten.length) :=
    foldl_store (show ([] ++ chunks.flatten).length ≤ 2 ^ 64 from h.le)
  rw [foldl_append, hstore, foldl_cons, foldl_nil, store, h, Nat.mod_self]
  rfl

theorem not_prefix_zeros {n : Nat} (hn : 0 < n) {a : UInt8} (ha : a ≠ 0) (data rest : Bytes) :
    ¬ a :: data <+: List.replicate n 0 ++ rest := by
  cases n with
  | zero => exact absurd hn (lt_irrefl 0)
  | succ n => exact fun h => ha (cons_prefix_cons.1 h).1

/-- After `2 ^ 64` bytes the offset of the file is zero again. -/
theorem not_sequential_access_huge :
    (∀ data ∈ hugeChunks, data.length < 2 ^ 24 - 64) ∧
      ∃ t, (access (remote memory) (lit "/f") hugeChunks true [1] memoryLink).1 = some t ∧
        ¬ Faithful hugeChunks.flatten t.reads := by
  refine ⟨length_hugeChunks, ?_⟩
  obtain ⟨t, ht⟩ := access_isSome (memoryStorage (lit "/f")) (l := memoryLink) rfl (by decide)
    (fun _ _ => ⟨lit "file", rfl⟩) length_hugeChunks true [1]
  refine ⟨t, ht, fun hfaithful => ?_⟩
  obtain ⟨-, g, l, hreading, hreads⟩ :=
    access_eq_some (memoryStorage (lit "/f")) rfl length_hugeChunks ht
  have hlen : (List.replicate (2 ^ 41) (List.replicate (2 ^ 23) (0 : UInt8))).flatten.length =
      2 ^ 64 := by rw [flatten_zeros, length_replicate]
  rw [hugeChunks, foldl_store_wraps hlen] at hreading
  obtain ⟨r, g', l', hread, hcase⟩ := hreading.read (by decide) Nat.one_pos (by decide)
  have hreads : t.reads = [r] := by rw [hreads, File.readAll, hread]; rfl
  rcases hcase with ⟨data, rfl, hne, hdata, -⟩ | ⟨-, hend, -⟩
  · cases data with
    | nil => exact hne rfl
    | cons a data =>
      rw [drop_zero, cons_prefix_cons] at hdata
      have hbytes : bytesRead [some (.ok (a :: data))] <+: hugeChunks.flatten :=
        hreads ▸ hfaithful.bytes
      rw [hugeChunks, flatten_append, flatten_zeros, hdata.1] at hbytes
      have hone : bytesRead [some (.ok (1 :: data))] = 1 :: data := by simp [bytesRead]
      rw [hone] at hbytes
      exact not_prefix_zeros (Nat.two_pow_pos 64) (by decide) data _ hbytes
  · exact cons_ne_nil _ _ (length_eq_zero_iff.1 (Nat.le_zero.1 hend))

end Sftp
