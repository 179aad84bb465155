import GoProtocols.Sftp.Bindings

/-!
# The handle table of the SFTP server

Handles of files and of directories are in one table. A `READDIR` takes the entry of its handle for
that of a directory and cuts four bytes off it, so that with the handle of a file it panics or lists
some other directory.

* `origins`: which handles are open after some exchanges, by what the client has seen of these.
* `Linked`: the table agrees with that; every request keeps it (`served_linked`).
-/

namespace Sftp

open Go List

/-! ## What the client sees -/

/-- What a handle was issued for: an `OPEN` or an `OPENDIR`. -/
inductive Origin
  | file
  | dir
  deriving DecidableEq

/-- The fields of a `READ`: handle, offset and size. -/
def Packet.readFields (p : Packet) : Option (Bytes × UInt64 × UInt32) :=
  p.rest.bind fun rest =>
    (Field.toOption (readString rest 0)).bind fun h =>
      (Field.toOption (readUint64 rest h.2)).bind fun offset =>
        (Field.toOption (readUint32 rest offset.2)).map fun size => (h.1, offset.1, size.1)

/-- What an exchange does to the handles that are open: the reply to an `OPEN` or `OPENDIR` issues
one, and a `CLOSE` that succeeds closes one. -/
def Exchange.update (x : Exchange) (o : Bytes → Option Origin) : Bytes → Option Origin :=
  let issue (k : Origin) := match x.replies with
    | [p] => p.issued.elim o fun h => Function.update o h (some k)
    | _ => o
  match x.request.kind with
  | .open => issue .file
  | .opendir => issue .dir
  | .close =>
    match x.replies with
    | [p] => if p.isOK then x.request.handle.elim o fun h => Function.update o h none else o
    | _ => o
  | _ => o

variable (t : List Exchange)

def origins : Bytes → Option Origin :=
  t.foldl (fun o x => x.update o) fun _ => none

@[simp] theorem origins_concat (x : Exchange) : origins (t ++ [x]) = x.update (origins t) := by
  simp [origins]

/-- A `READDIR` whose handle is not that of an open directory lists nothing and is answered with a
status. -/
def Exchange.Proper (x : Exchange) : Prop :=
  ∀ h, x.request.kind = .readdir → x.request.handle = some h → origins t h ≠ some .dir →
    (∀ path, .readdir path ∉ x.calls) ∧ ∃ p, x.replies = [p] ∧ p.type = typeStatus

variable {W : Type} (env : Env W) (world : W)

/-- No request has panicked, and every `READDIR` was proper. -/
structure Robust (st : Served W) : Prop where
  noPanic : st.ended ≠ some .panicked
  proper : ∀ t x, t ++ [x] <+: st.trace → x.Proper t


/-! ## The table -/

/-- The entry of a handle, by its origin. -/
inductive Entry : Option Origin → Option Bytes → Prop
  | closed : Entry none none
  | file (real : Bytes) : Entry (some .file) (some real)
  | dir (path : Bytes) : Entry (some .dir) (some (lit "dir:" ++ path))

def Linked (o : Bytes → Option Origin) (T : Tables) : Prop := ∀ h, Entry (o h) (T.handles.lookup h)

section
variable {env : Env W} {c : Conn W} {id : UInt32} {rest h : Bytes} {k : Kind} {r : Report}
  {o : Bytes → Option Origin} {p : Packet}

theorem Linked.issue {T : Tables} (ho : Linked o c.tables) {origin : Origin} {real : Bytes}
    (hT : T.handles = c.handles.insert h real) (hreal : Entry (some origin) (some real)) :
    Linked (Function.update o h (some origin)) T := by
  intro key
  rw [hT, Map.lookup_insert_eq, Function.update_apply]
  split
  · exact hreal
  · exact ho key

theorem Linked.drop (ho : Linked o c.tables) (h : Bytes) :
    Linked (Function.update o h none) (c.drop h).tables := by
  intro key
  show Entry _ ((c.handles.erase h).lookup key)
  rw [Map.lookup_erase_eq, Function.update_apply]
  split
  · exact .closed
  · exact ho key

theorem Linked.found (ho : Linked o c.tables) {real : Bytes} (hreal : c.resolve h = some real) :
    o h = some .file ∨ o h = some .dir ∧ ∃ path, real = lit "dir:" ++ path := by
  have hentry := ho h
  have hlookup : c.tables.handles.lookup h = some real := hreal
  rw [hlookup] at hentry
  generalize o h = origin at hentry
  cases hentry with
  | file => exact .inl rfl
  | dir path => exact .inr ⟨rfl, path, rfl⟩

theorem Linked.lost (ho : Linked o c.tables) (hnone : c.resolve h = none) : o h = none := by
  have hentry := ho h
  have hlookup : c.tables.handles.lookup h = none := hnone
  rw [hlookup] at hentry
  generalize o h = origin at hentry
  cases hentry
  rfl

theorem update_status {calls : List Call} {code : UInt32} {msg : Bytes}
    (hcode : p.kind = .close → code ≠ statusOK) :
    Exchange.update ⟨p, calls, [statusPacket id code msg]⟩ o = o := by
  unfold Exchange.update
  dsimp only
  split
  · simp
  · simp
  · rename_i hkind
    simp [hcode hkind]
  · rfl

theorem update_other (hkind : p.kind ≠ .open ∧ p.kind ≠ .opendir ∧ p.kind ≠ .close)
    {calls : List Call} {replies : List Packet} : Exchange.update ⟨p, calls, replies⟩ o = o := by
  obtain ⟨hopen, hopendir, hclose⟩ := hkind
  simp only [Exchange.update]

theorem Linked.deed (ho : Linked o c.tables) (hd : Deed env c id rest k r) (hkind : p.kind = k)
    (hhandle : p.handle = stringArg rest) :
    Linked (Exchange.update ⟨p, r.calls, r.replies⟩ o) r.tables := by
  have hstatus {calls : List Call} {code : UInt32} {msg : Bytes}
      (hcode : p.kind = .close → code ≠ statusOK) :
      Linked (Exchange.update ⟨p, calls, [statusPacket id code msg]⟩ o) c.tables := by
    rwa [update_status hcode]
  cases hd with
  | truncated | noHandle => exact hstatus fun _ => by decide
  | openFailed | opendirFailed => exact hstatus fun hclose => by simp [hkind] at hclose
  | opened path flags real =>
    have hissue := ho.issue (h := (c.newHandle real).1) (T := (c.newHandle real).2.tables) rfl
      (.file real)
    simpa [Exchange.update, hkind] using hissue
  | openedDir path =>
    have hissue := ho.issue (h := (c.newHandle (lit "dir:" ++ path)).1)
      (T := (c.newHandle (lit "dir:" ++ path)).2.tables) rfl (.dir path)
    simpa [Exchange.update, hkind] using hissue
  | closed h real hh => simpa [Exchange.update, hkind, hhandle, hh] using ho.drop h
  | plain k calls reply hk =>
    have hother : p.kind ≠ .open ∧ p.kind ≠ .opendir ∧ p.kind ≠ .close := by
      refine ⟨?_, ?_, ?_⟩ <;> intro hp <;> simp [← hkind, hp, Kind.isPlain] at hk
    rw [update_other hother]
    exact ho
  | _ =>
    rw [update_other (by simp [hkind])]
    exact ho

theorem servePacket_linked (ho : Linked o c.tables) (hc : c.calls = [] ∧ c.replies = [])
    (p : Packet) : Linked ((exchange env c p).update o) (servePacket env c p).1.tables := by
  by_cases hlen : p.payload.length < 4
  · have hupdate : Exchange.update ⟨p, [], []⟩ o = o := by
      simp only [Exchange.update]
      split <;> rfl
    rw [exchange_short hc hlen, hupdate, servePacket, if_pos hlen]
    exact ho
  · exact ho.deed (servePacket_deed hc (if_neg hlen)) rfl (handle_eq hlen)

/-! ## Requests -/

/-- The backend has not read more than fits into the buffer. -/
def Fits (env : Env W) (c : Conn W) (p : Packet) : Prop :=
  ∀ h offset size, p.readFields = some (h, offset, size) → ∀ real, c.resolve h = some real →
    let answer := (env.backend.read real offset size c.world).1
    answer.err = none → 0 ≤ answer.n ∧ answer.n ≤ size.toNat

/-- A `READDIR` names no handle of a file, unless an old mark says that it has been read. -/
def DirOnly (o : Bytes → Option Origin) (c : Conn W) (p : Packet) : Prop :=
  ∀ h, p.handle = some h → o h = some .file → c.isDrained h = true

/-- What the environment and the client have to respect in a request. -/
structure Admissible (env : Env W) (o : Bytes → Option Origin) (c : Conn W) (p : Packet) :
    Prop where
  readdir : p.kind = .readdir → DirOnly o c p
  read : p.kind = .read → Fits env c p

theorem Deed.noPanic (hd : Deed env c id (p.payload.drop 4) p.kind r)
    (hlen : ¬ p.payload.length < 4)
    (ho : Linked o c.tables) (hp : Admissible env o c p) : r.outcome ≠ .panic := by
  generalize hk : p.kind = k at hd
  cases hd with
  | readTooMuch h real offset size hargs hreal _ herr hn =>
    have hfields : p.readFields = some (h, offset, size) := by
      rw [Packet.readFields, rest_eq_some hlen]
      exact hargs
    exact absurd (hp.read hk h offset size hfields real hreal herr) hn
  | short h real hh hreal hdrained hshort =>
    rcases ho.found hreal with hfile | ⟨-, path, rfl⟩
    · cases hdrained.symm.trans (hp.readdir hk h ((handle_eq hlen).trans hh) hfile)
    · cases hshort.symm.trans (slice_dir path)
  | _ => simp

theorem Deed.proper (hd : Deed env c id rest .readdir r) (ho : Linked o c.tables)
    (hh : stringArg rest = some h) (hnot : o h ≠ some .dir)
    (hfile : o h = some .file → c.isDrained h = true) :
    (∀ path, .readdir path ∉ r.calls) ∧ ∃ q, r.replies = [q] ∧ q.type = typeStatus := by
  have hlost {h' real : Bytes} (hh' : stringArg rest = some h') (hreal : c.resolve h' = some real)
      (hdrained : c.isDrained h' = false) : False := by
    cases hh.symm.trans hh'
    rcases ho.found hreal with horigin | ⟨horigin, -⟩
    · cases hdrained.symm.trans (hfile horigin)
    · exact hnot horigin
  cases hd with
  | truncated | noHandle | drained => exact ⟨nofun, _, rfl, rfl⟩
  | short _ _ hh' hreal hdrained
  | listFailed _ _ _ _ hh' hreal hdrained
  | listed _ _ _ _ hh' hreal hdrained => exact (hlost hh' hreal hdrained).elim
  | plain _ _ _ hk => cases hk

theorem Deed.listsFile (hd : Deed env c id rest .readdir r) (ho : Linked o c.tables)
    (hh : stringArg rest = some h) (hfile : o h = some .file) (hdrained : c.isDrained h = false) :
    r.outcome = .panic ∨ ∃ path, .readdir path ∈ r.calls := by
  cases hd with
  | truncated _ _ _ hshort => cases (complete_of_stringArg hh).symm.trans hshort
  | noHandle _ h' _ hh' hnone =>
    cases hh.symm.trans hh'
    cases hfile.symm.trans (ho.lost hnone)
  | drained h' hh' hdrained' =>
    cases hh.symm.trans hh'
    cases hdrained.symm.trans hdrained'
  | short => exact .inl rfl
  | listFailed _ _ path | listed _ _ path => exact .inr ⟨path, by simp⟩
  | plain _ _ _ hk => cases hk

theorem serveRead_panic (hrest : p.rest = some rest) (hfits : ¬ Fits env c p) :
    (serveRead env c id rest).2 = .panic := by
  simp only [Fits, Packet.readFields, hrest, not_forall] at hfits
  obtain ⟨h, offset, size, hfields, real, hreal, herr, hn⟩ := hfits
  simp only [Option.bind_some, Option.bind_eq_some_iff, Option.map_eq_some_iff,
    Prod.mk.injEq] at hfields
  obtain ⟨⟨h, off⟩, hh, ⟨offset, off'⟩, hoffset, ⟨size, off''⟩, hsize, rfl, rfl, rfl⟩ := hfields
  rw [serveRead, field_eq hh, field_eq hoffset, field_eq hsize]
  simp only [Conn.withHandle, hreal, Conn.ask, herr, (slice_zero _).2 hn]

/-! ## Runs -/

theorem served_linked (env : Env W) (world : W) (packets : List Packet) :
    Linked (origins ((serve env world).after packets).trace)
      ((serve env world).after packets).conn.tables := by
  refine serve_invariant env world (P := fun t T => Linked (origins t) T) (G := fun _ _ => True)
    (fun _ => .closed) (fun t c p h hc _ => ?_) fun _ _ _ => trivial
  rw [origins_concat]
  exact servePacket_linked h hc p

theorem handshake_noPanic (env : Env W) (c : Conn W) (p : Packet) :
    (handshake env c p).2 ≠ .panic := by
  unfold handshake
  split
  · simp
  · split
    · simp
    · rename_i hlen
      rw [beUint32, if_neg hlen]
      dsimp only
      split
      · simp
      · split <;> simp

def Respects (env : Env W) (st : Served W) (p : Packet) : Prop :=
  st.ended = none → st.ready = true → Admissible env (origins st.trace) st.conn p

section
variable {st : Served W} (hlinked : Linked (origins st.trace) st.conn.tables)
include hlinked

theorem Robust.step (h : Robust st) (hp : Respects env st p) : Robust (st.step env p) := by
  cases hended : st.ended with
  | some e => rwa [step_ended hended]
  | none =>
    cases hready : st.ready with
    | false =>
      rw [step_handshake hended hready]
      exact ⟨Outcome.end_ne_panicked.2 (handshake_noPanic env st.fresh p), h.proper⟩
    | true =>
      have hadm : Admissible env (origins st.trace) st.fresh p :=
        ⟨(hp hended hready).readdir, (hp hended hready).read⟩
      have hfresh : Linked (origins st.trace) st.fresh.tables := hlinked
      rw [step_loop hended hready]
      refine ⟨Outcome.end_ne_panicked.2 ?_, fun t x htx => ?_⟩
      · by_cases hlen : p.payload.length < 4
        · simp [servePacket, if_pos hlen]
        · exact (servePacket_deed ⟨rfl, rfl⟩ (if_neg hlen)).noPanic hlen hfresh hadm
      · rcases prefix_concat_iff.1 htx with heq | htx
        · obtain ⟨rfl, hx⟩ := append_inj' heq rfl
          obtain rfl := singleton_inj.1 hx
          intro key hkind hkey hnot
          have hlen : ¬ p.payload.length < 4 := fun hlt => by
            simp [exchange, Packet.handle, Packet.rest, hlt] at hkey
          have hd := @servePacket_deed _ W env st.fresh _ ⟨rfl, rfl⟩ (if_neg hlen)
          have hkind' : p.kind = .readdir := hkind
          rw [hkind'] at hd
          exact hd.proper hfresh ((handle_eq hlen).symm.trans hkey) hnot
            (hadm.readdir hkind key hkey)
        · exact h.proper t x htx

theorem Robust.respects (hrobust : Robust (st.step env p)) : Respects env st p := by
  intro hended hready
  rw [step_loop hended hready] at hrobust
  have hpanic : (servePacket env st.fresh p).2 ≠ .panic := Outcome.end_ne_panicked.1 hrobust.noPanic
  refine ⟨fun hkind key hkey hfile => ?_, fun hkind => ?_⟩
  · -- a file's handle would be listed, or the server would panic
    have hlen : ¬ p.payload.length < 4 := fun hlt => by
      simp [Packet.handle, Packet.rest, hlt] at hkey
    have hd := @servePacket_deed _ W env st.fresh _ ⟨rfl, rfl⟩ (if_neg hlen)
    rw [hkind] at hd
    by_contra hdrained
    have hfresh : Linked (origins st.trace) st.fresh.tables := hlinked
    have harg : stringArg (p.payload.drop 4) = some key := (handle_eq hlen).symm.trans hkey
    rcases hd.listsFile hfresh harg hfile (Bool.eq_false_iff.2 hdrained) with hp | ⟨path, hpath⟩
    · exact hpanic hp
    · have hproper := hrobust.proper st.trace (exchange env st.fresh p) prefix_rfl key hkind
        hkey (by simp [hfile])
      exact hproper.1 path hpath
  · by_contra hfits
    by_cases hlen : p.payload.length < 4
    · exact hfits fun h offset size hfields => by
        simp [Packet.readFields, Packet.rest, hlen] at hfields
    · refine hpanic ?_
      rw [servePacket_request env st.fresh (if_neg hlen), hkind]
      exact serveRead_panic (rest_eq_some hlen) hfits

end

end

theorem robust_init : Robust (serve env world).init :=
  ⟨nofun, fun t x h => by simp [serve] at h⟩

/-- **The server is robust exactly in the runs in which no `READDIR` names the handle of a file and
the backend reads no more than it was asked to.** -/
theorem robust_iff (packets : List Packet) :
    (serve env world).Throughout (fun _ st => Robust st) packets ↔
      (serve env world).Each (fun _ st p => Respects env st p) packets := by
  have hvalid : (serve env world).Valid packets := fun _ _ _ => trivial
  exact (serve env world).throughout_iff (I := fun _ st => Robust st) (robust_init env world)
    (fun _ _ h => h) (fun ps _ h _ hp => h.step (served_linked env world ps) hp)
    (fun ps _ _ _ hp => Robust.respects (served_linked env world ps) hp) hvalid

/-! ## A file read as a directory -/

/-- A buffer of zeros. -/
def ReadAnswer.zeros (size : Nat) (n : Int) (err : Option BackendError) : ReadAnswer size where
  buf := List.replicate size 0
  length_buf := length_replicate
  n := n
  err := err

/-- A backend with one file, whose handles are short. -/
def smallBackend : Backend Unit where
  stat _ w := (.ok {}, w)
  lstat _ w := (.ok {}, w)
  open_ _ _ w := (.ok (lit "h1"), w)
  read _ _ size w :=
    (.zeros size.toNat 0 (some { kind := .eof }), w)
  write _ _ _ w := (.ok (), w)
  close _ w := (.ok (), w)
  readdir _ w := (.ok [], w)
  mkdir _ w := (.ok (), w)
  rmdir _ w := (.ok (), w)
  remove _ w := (.ok (), w)
  rename _ _ w := (.ok (), w)

/-- A client that opens a file and reads it as a directory. -/
def misuse : List Packet :=
  [{ type := typeInit, payload := appendUint32 [] version },
    { type := 3, payload := appendUint32 (appendString (appendUint32 [] 1) (lit "/f")) 1 },
    { type := 12, payload := appendString (appendUint32 [] 2) (lit "h1") }]

theorem not_robust_misuse :
    ¬ (serve { backend := smallBackend, write := fun _ w => (.ok (), w) } ()).Throughout
      (fun _ st => Robust st) misuse := by
  intro h
  have hpanic := (h misuse prefix_rfl).noPanic
  revert hpanic
  decide +kernel

end Sftp
