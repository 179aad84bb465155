import GoProtocols.Sftp.Handles

/-!
# Handles do not interfere

While fewer than `2 ^ 32` handles have been issued the counter has not wrapped around: every handle
is new (`Numbered`), and the marks of the directories that have been read are those of handles that
are live (`Marked`). What a request does with a handle is then what the handle stands for
(`Isolated`), in every exchange of a connection (`handles_isolated`).
-/

namespace Sftp

open Go List Option

/-! ## Specification -/

/-- The fields of a `WRITE`: handle, offset and data. -/
def Packet.writeFields (p : Packet) : Option (Bytes × UInt64 × Bytes) := p.rest.bind writeArgs

def Packet.Names (p : Packet) (h : Bytes) : Prop := p.kind.namesHandle = true ∧ p.handle = some h

/-- The exchange uses the handle for the backend handle `real`. -/
structure Exchange.AppliedTo (x : Exchange) (h real : Bytes) : Prop where
  read : ∀ offset size, x.request.kind = .read → x.request.readFields = some (h, offset, size) →
    x.calls = [.read real offset size]
  write : ∀ offset data, x.request.kind = .write → x.request.writeFields = some (h, offset, data) →
    x.calls = [.write real offset data]
  close : x.request.kind = .close → x.request.handle = some h → x.calls = [.close real]

/-- An error that is not the end of a directory. -/
def Exchange.Fails (x : Exchange) : Prop :=
  ∃ id code msg, x.replies = [statusPacket id code msg] ∧
    (code = statusFailure ∨ code = statusBadMessage)

/-- The answer to a `READDIR` that lists a directory: the listing, if the backend gives one. -/
def Exchange.Lists (x : Exchange) (answer : Except BackendError (List FileStat)) : Prop :=
  ∃ id, x.request.requestID = some id ∧
    x.replies = [match answer with
      | .ok entries => namePacket id entries
      | .error e => statusPacket id (mapErr e) e.text]

variable {W : Type} {rest key : Bytes} {offset : UInt64} {size : UInt32} (env : Env W) {c : Conn W}
  {data : Bytes}

/-- What an exchange does with handles, given what they stand for and those issued so far. -/
structure Isolated (b : Backend W) (world : W) (used : List Bytes) (m : Bindings) (x : Exchange) :
    Prop where
  /-- A handle that is issued is not live, and has never been. -/
  fresh : ∀ h ∈ x.issues, m.lookup h = none ∧ h ∉ used
  /-- The handle of a file is used for what `Open` has returned. -/
  file : ∀ h real, m.lookup h = some (.file real) → x.AppliedTo h real
  /-- A handle that is not live is refused, and the backend is not called. -/
  closed : ∀ h, x.request.Names h → m.lookup h = none → x.calls = [] ∧ x.Fails
  /-- A `CLOSE` leaves the other handles what they are. -/
  others : ∀ h key, x.request.kind = .close → x.request.handle = some h → key ≠ h →
    (x.record m).lookup key = m.lookup key
  /-- A directory that has not been listed is listed. -/
  first : ∀ h path, x.request.kind = .readdir → x.request.handle = some h →
    m.lookup h = some (.dir path false) →
      x.calls = [.readdir path] ∧ x.Lists (b.readdir path world).1
  /-- A directory that has been listed is at its end. -/
  later : ∀ h path, x.request.kind = .readdir → x.request.handle = some h →
    m.lookup h = some (.dir path true) →
      x.calls = [] ∧ ∃ id, x.request.requestID = some id ∧ x.replies = [statusPacket id statusEOF []]

/-! ## Marks and numbers -/

/-- The directories that have been read are marked, and no mark is left of a handle that was
closed. -/
structure Marked (m : Bindings) (T : Tables) : Prop where
  closed : ∀ h, m.lookup h = none → (T.drained.lookup h).getD false = false
  dir : ∀ h path listed, m.lookup h = some (.dir path listed) →
    (T.drained.lookup h).getD false = listed

def handleName (n : Nat) : Bytes := lit "h" ++ itoa n

theorem handleName_injective {m n : Nat} (h : handleName m = handleName n) : m = n := by
  have hitoa : itoa m = itoa n := append_cancel_left h
  rw [itoa_eq_render, itoa_eq_render] at hitoa
  exact Decimal.render_injective hitoa

/-- The counter has counted the handles issued, which are those with the first numbers. -/
structure Numbered (used : List Bytes) (m : Bindings) (T : Tables) : Prop where
  counter : T.nextID.toNat = used.length
  names : ∀ h ∈ used, ∃ i ≤ used.length, h = handleName i
  live : ∀ h, m.lookup h ≠ none → h ∈ used

section
variable {c : Conn W} {m m' : Bindings} {x : Exchange} {T : Tables} {used hs : List Bytes}

theorem Numbered.nextID (h : Numbered used m c.tables) (hn : used.length + 1 < 2 ^ 32) :
    (c.nextID + 1).toNat = used.length + 1 := by
  have hcounter : c.nextID.toNat = used.length := h.counter
  rw [UInt32.toNat_add, hcounter]
  exact Nat.mod_eq_of_lt hn

theorem Numbered.newHandle (h : Numbered used m c.tables) (hn : used.length + 1 < 2 ^ 32)
    (real : Bytes) : (c.newHandle real).1 = handleName (used.length + 1) := by
  show lit "h" ++ itoa (c.nextID + 1).toNat = _
  rw [h.nextID hn]
  rfl

theorem Numbered.fresh (h : Numbered used m c.tables) (hn : used.length + 1 < 2 ^ 32)
    (real : Bytes) : (c.newHandle real).1 ∉ used := by
  intro hused
  obtain ⟨i, hi, hname⟩ := h.names _ hused
  rw [h.newHandle hn real] at hname
  have := handleName_injective hname
  omega

theorem Numbered.lookup_fresh (h : Numbered used m c.tables) (hn : used.length + 1 < 2 ^ 32)
    (real : Bytes) : m.lookup (c.newHandle real).1 = none := by
  by_contra hlive
  exact h.fresh hn real (h.live _ hlive)

theorem lookup_list_ne_none {h : Bytes} : (m.list h).lookup key ≠ none ↔ m.lookup key ≠ none := by
  have hentry := lookup_list m h key
  cases hm : (m.list h).lookup key <;> cases hm' : m.lookup key <;> simp_all

theorem Numbered.effect (h : Numbered used m c.tables) (he : Effect c m x T m' hs)
    (hn : (used ++ hs).length < 2 ^ 32) : Numbered (used ++ hs) m' T := by
  cases he with
  | keep => simpa using h
  | issue live hnew =>
    have hn : used.length + 1 < 2 ^ 32 := by simpa using hn
    refine ⟨?_, fun key hkey => ?_, fun key hkey => ?_⟩
    · show (c.nextID + 1).toNat = _
      rw [h.nextID hn, length_append]
      rfl
    · rw [length_append]
      rcases mem_append.1 hkey with hkey | hkey
      · obtain ⟨i, hi, heq⟩ := h.names key hkey
        exact ⟨i, by omega, heq⟩
      · exact ⟨used.length + 1, le_refl _, (mem_singleton.1 hkey).trans (h.newHandle hn _)⟩
    · rw [Map.lookup_insert_eq] at hkey
      split at hkey
      · rename_i heq
        exact mem_append_right _ (heq ▸ mem_singleton_self _)
      · exact mem_append_left _ (h.live key hkey)
  | drop h' =>
    rw [append_nil]
    refine ⟨h.counter, h.names, fun key hkey => ?_⟩
    rw [Map.lookup_erase_eq] at hkey
    split at hkey
    · exact absurd rfl hkey
    · exact h.live key hkey
  | mark h' =>
    rw [append_nil]
    exact ⟨h.counter, h.names, fun key hkey => h.live key (lookup_list_ne_none.1 hkey)⟩

theorem Marked.effect (h : Marked m c.tables) (htab : Tabled m c.tables)
    (hnum : Numbered used m c.tables) (he : Effect c m x T m' hs)
    (hn : (used ++ hs).length < 2 ^ 32) : Marked m' T := by
  cases he with
  | keep => exact h
  | issue live hnew =>
    have hfresh := h.closed _ (hnum.lookup_fresh (by simpa using hn) live.entry)
    refine ⟨fun key hkey => ?_, fun key path listed hkey => ?_⟩ <;>
      rw [Map.lookup_insert_eq] at hkey <;> split at hkey
    · cases hkey
    · exact h.closed key hkey
    · rename_i heq
      cases hkey
      cases listed with
      | true => exact absurd rfl (hnew path)
      | false => exact heq ▸ hfresh
    · exact h.dir key path listed hkey
  | drop h' =>
    have hdrop (key : Bytes) : (((c.drop h').tables).drained.lookup key).getD false =
        if key = h' then false else (c.drained.lookup key).getD false := by
      show ((c.drained.erase h').lookup key).getD false = _
      rw [Map.lookup_erase_eq]
      split <;> rfl
    refine ⟨fun key hkey => ?_, fun key path listed hkey => ?_⟩ <;>
      rw [Map.lookup_erase_eq] at hkey <;> rw [hdrop] <;> split at hkey
    · rename_i heq
      exact if_pos heq
    · rename_i hne
      rw [if_neg hne]
      exact h.closed key hkey
    · cases hkey
    · rename_i hne
      rw [if_neg hne]
      exact h.dir key path listed hkey
  | mark h' hlive =>
    have hmark (key : Bytes) : (((c.markDrained h').tables).drained.lookup key).getD false =
        if key = h' then true else (c.drained.lookup key).getD false := by
      show ((AList.insert h' true c.drained).lookup key).getD false = _
      rw [Map.lookup_insert_eq]
      split <;> rfl
    have hlookup : m.lookup h' ≠ none := fun hnone => by
      have hentry : c.handles.lookup h' = (m.lookup h').map Live.entry := htab h'
      rw [hnone] at hentry
      exact hlive hentry
    refine ⟨fun key hkey => ?_, fun key path listed hkey => ?_⟩ <;> rw [hmark]
    · have hnone : m.lookup key = none := by
        by_contra hne
        exact lookup_list_ne_none.2 hne hkey
      rw [if_neg fun heq : key = h' => hlookup (heq ▸ hnone)]
      exact h.closed key hnone
    · unfold Bindings.list at hkey
      split at hkey
      · rw [Map.lookup_insert_eq] at hkey
        split at hkey
        · rename_i heq
          rw [if_pos heq]
          cases hkey
          rfl
        · rename_i hne
          rw [if_neg hne]
          exact h.dir key path listed hkey
      · rename_i hfile
        rw [if_neg fun heq : key = h' => hfile path listed (heq ▸ hkey)]
        exact h.dir key path listed hkey

end

/-! ## Single requests -/

theorem readArgs_eq_some (h : readArgs rest = some (key, offset, size)) :
    stringArg rest = some key ∧ complete rest 0 Kind.read.layout = true := by
  simp only [readArgs, bind_eq_some_iff, map_eq_some_iff, Prod.mk.injEq] at h
  obtain ⟨⟨key, off⟩, hkey, ⟨offset, off'⟩, hoffset, ⟨size, off''⟩, hsize, rfl, rfl, rfl⟩ := h
  refine ⟨stringArg_eq hkey, ?_⟩
  simp [Kind.layout, complete, FieldType.next, hkey, hoffset, hsize]

theorem writeArgs_eq_some (h : writeArgs rest = some (key, offset, data)) :
    stringArg rest = some key ∧ complete rest 0 Kind.write.layout = true := by
  simp only [writeArgs, bind_eq_some_iff, map_eq_some_iff, Prod.mk.injEq] at h
  obtain ⟨⟨key, off⟩, hkey, ⟨offset, off'⟩, hoffset, ⟨data, off''⟩, hdata, rfl, rfl, rfl⟩ := h
  refine ⟨stringArg_eq hkey, ?_⟩
  simp [Kind.layout, complete, FieldType.next, hkey, hoffset, hdata]

section
variable {env : Env W} {c : Conn W} {id : UInt32} {rest key real path : Bytes} {k : Kind}
  {r : Report}

theorem Deed.issued (h : Deed env c id rest k r) {reply : Packet} (hreply : reply ∈ r.replies)
    (hkey : reply.issued = some key) : ∃ real, key = (c.newHandle real).1 := by
  cases h with
  | opened path flags real =>
    obtain rfl := mem_singleton.1 hreply
    exact ⟨real, (Option.some.inj ((issued_newHandle id c real).symm.trans hkey)).symm⟩
  | openedDir path =>
    obtain rfl := mem_singleton.1 hreply
    exact ⟨_, (Option.some.inj ((issued_newHandle id c _).symm.trans hkey)).symm⟩
  | plain _ calls reply' _ _ _ htype =>
    obtain rfl := mem_singleton.1 hreply
    simp [issued_of_type htype] at hkey
  | readTooMuch | short => cases hreply
  | _ =>
    obtain rfl := mem_singleton.1 hreply
    simp at hkey

theorem Deed.closedHandle (h : Deed env c id rest k r) (hk : k.namesHandle = true)
    (harg : stringArg rest = some key) (hnone : c.resolve key = none)
    (hdrained : c.isDrained key = false) :
    r.calls = [] ∧ ∃ code msg, r.replies = [statusPacket id code msg] ∧
      (code = statusFailure ∨ code = statusBadMessage) := by
  -- a handle that is named by the request is this one
  have hlive {key' real : Bytes} (hkey : stringArg rest = some key')
      (hreal : c.resolve key' = some real) : False := by
    cases harg.symm.trans hkey
    cases hnone.symm.trans hreal
  cases h with
  | truncated => exact ⟨rfl, _, _, rfl, .inr rfl⟩
  | noHandle => exact ⟨rfl, _, _, rfl, .inl rfl⟩
  | closed _ _ hh hreal | short _ _ hh hreal
  | listFailed _ _ _ _ hh hreal | listed _ _ _ _ hh hreal => exact (hlive hh hreal).elim
  | readFailed _ _ _ _ _ _ hargs hreal
  | read _ _ _ _ _ _ hargs hreal
  | readTooMuch _ _ _ _ hargs hreal => exact (hlive (readArgs_eq_some hargs).1 hreal).elim
  | wrote _ _ _ _ _ _ hargs hreal => exact (hlive (writeArgs_eq_some hargs).1 hreal).elim
  | drained key' hh hd =>
    cases harg.symm.trans hh
    cases hdrained.symm.trans hd
  | plain _ _ _ hplain => cases k <;> simp [Kind.namesHandle, Kind.isPlain] at hk hplain
  | _ => cases hk

theorem Deed.readOf (h : Deed env c id rest .read r)
    (hargs : readArgs rest = some (key, offset, size)) (hreal : c.resolve key = some real) :
    r.calls = [.read real offset size] := by
  obtain ⟨harg, hfields⟩ := readArgs_eq_some hargs
  have hsame {key' real' : Bytes} {offset' : UInt64} {size' : UInt32}
      (hargs' : readArgs rest = some (key', offset', size')) (hreal' : c.resolve key' = some real') :
      [Call.read real' offset' size'] = [.read real offset size] := by
    cases hargs.symm.trans hargs'
    cases hreal.symm.trans hreal'
    rfl
  cases h with
  | truncated _ _ _ hshort => cases hfields.symm.trans hshort
  | noHandle _ key' _ hh hnone =>
    cases harg.symm.trans hh
    cases hreal.symm.trans hnone
  | readFailed _ _ _ _ _ _ hargs' hreal'
  | read _ _ _ _ _ _ hargs' hreal' | readTooMuch _ _ _ _ hargs' hreal' => exact hsame hargs' hreal'
  | plain _ _ _ hplain => cases hplain

theorem Deed.writeOf (h : Deed env c id rest .write r)
    (hargs : writeArgs rest = some (key, offset, data)) (hreal : c.resolve key = some real) :
    r.calls = [.write real offset data] := by
  obtain ⟨harg, hfields⟩ := writeArgs_eq_some hargs
  cases h with
  | truncated _ _ _ hshort => cases hfields.symm.trans hshort
  | noHandle _ key' _ hh hnone =>
    cases harg.symm.trans hh
    cases hreal.symm.trans hnone
  | wrote _ _ _ _ _ _ hargs' hreal' =>
    cases hargs.symm.trans hargs'
    cases hreal.symm.trans hreal'
    rfl
  | plain _ _ _ hplain => cases hplain

theorem Deed.closeOf (h : Deed env c id rest .close r) (harg : stringArg rest = some key)
    (hreal : c.resolve key = some real) : r.calls = [.close real] := by
  cases h with
  | truncated _ _ _ hshort => cases (complete_of_stringArg harg).symm.trans hshort
  | noHandle _ key' _ hh hnone =>
    cases harg.symm.trans hh
    cases hreal.symm.trans hnone
  | closed key' real' hh hreal' =>
    cases harg.symm.trans hh
    cases hreal.symm.trans hreal'
    rfl
  | plain _ _ _ hplain => cases hplain

theorem Deed.listOf (h : Deed env c id rest .readdir r) (harg : stringArg rest = some key)
    (hreal : c.resolve key = some (lit "dir:" ++ path)) (hdrained : c.isDrained key = false) :
    r.calls = [.readdir path] ∧ r.replies = [match (env.backend.readdir path c.world).1 with
      | .ok entries => namePacket id entries
      | .error e => statusPacket id (mapErr e) e.text] := by
  have hpath {key' real' : Bytes} {o : Option Bytes} (hh : stringArg rest = some key')
      (hreal' : c.resolve key' = some real') (hslice : slice real' 4 real'.length = o) :
      o = some path := by
    cases harg.symm.trans hh
    cases hreal.symm.trans hreal'
    exact hslice.symm.trans (slice_dir path)
  cases h with
  | truncated _ _ _ hshort => cases (complete_of_stringArg harg).symm.trans hshort
  | noHandle _ key' _ hh hnone =>
    cases harg.symm.trans hh
    cases hreal.symm.trans hnone
  | drained key' hh hd =>
    cases harg.symm.trans hh
    cases hdrained.symm.trans hd
  | short key' real' hh hreal' _ hshort => cases hpath hh hreal' hshort
  | listFailed key' real' path' e hh hreal' _ hslice hlist
  | listed key' real' path' entries hh hreal' _ hslice hlist =>
    cases hpath hh hreal' hslice
    exact ⟨rfl, by rw [hlist]⟩
  | plain _ _ _ hplain => cases hplain

theorem Deed.endOf (h : Deed env c id rest .readdir r) (harg : stringArg rest = some key)
    (hdrained : c.isDrained key = true) :
    r.calls = [] ∧ r.replies = [statusPacket id statusEOF []] := by
  have hother {key' : Bytes} (hh : stringArg rest = some key') (hd : c.isDrained key' = false) :
      False := by
    cases harg.symm.trans hh
    cases hdrained.symm.trans hd
  cases h with
  | truncated _ _ _ hshort => cases (complete_of_stringArg harg).symm.trans hshort
  | noHandle _ _ _ hh _ hd => exact (hother hh (hd rfl)).elim
  | drained => exact ⟨rfl, rfl⟩
  | short _ _ hh _ hd | listFailed _ _ _ _ hh _ hd
  | listed _ _ _ _ hh _ hd => exact (hother hh hd).elim
  | plain _ _ _ hplain => cases hplain

end

theorem record_close {x : Exchange} (hkind : x.request.kind = .close) {h : Bytes}
    (hh : x.request.handle = some h) (hne : key ≠ h) (m : Bindings) :
    (x.record m).lookup key = m.lookup key := by
  obtain ⟨p, calls, replies⟩ := x
  have hkind : p.kind = .close := hkind
  have hh : p.handle = some h := hh
  cases replies with
  | nil => simp [Exchange.record, hkind]
  | cons q qs =>
    cases qs with
    | cons q' qs => simp [Exchange.record, hkind]
    | nil =>
      simp only [Exchange.record, hkind, hh, elim_some]
      split
      · rw [Map.lookup_erase_eq, if_neg hne]
      · rfl

/-- **A request does with its handle what the handle stands for.** -/
theorem exchange_isolated {m : Bindings} {used : List Bytes} (hc : c.calls = [] ∧ c.replies = [])
    (htab : Tabled m c.tables) (hmark : Marked m c.tables) (hnum : Numbered used m c.tables)
    (p : Packet) (hn : (used ++ (exchange env c p).issues).length < 2 ^ 32) :
    Isolated env.backend c.world used m (exchange env c p) := by
  have hresolve (key : Bytes) : c.resolve key = (m.lookup key).map Live.entry := htab key
  by_cases hlen : p.payload.length < 4
  · have hnone : p.rest = none := if_pos hlen
    have hhandle : p.handle = none := by simp [Packet.handle, hnone]
    rw [exchange_short hc hlen]
    exact
      { fresh := fun _ h => by cases h
        file := fun _ _ _ =>
          { read := fun _ _ _ h => by simp [Packet.readFields, hnone] at h
            write := fun _ _ _ h => by simp [Packet.writeFields, hnone] at h
            close := fun _ h => by simp [hhandle] at h }
        closed := fun _ h => by simp [Packet.Names, hhandle] at h
        others := fun _ _ _ h => by simp [hhandle] at h
        first := fun _ _ _ h => by simp [hhandle] at h
        later := fun _ _ _ h => by simp [hhandle] at h }
  · obtain ⟨id, hid⟩ : ∃ id, p.requestID = some id := ⟨_, if_neg hlen⟩
    have hrest := rest_eq_some hlen
    have hhandle := handle_eq hlen
    have hdeed : Deed env c id (p.payload.drop 4) p.kind (servePacket env c p).report :=
      servePacket_deed hc hid
    refine { fresh := ?_, file := ?_, closed := ?_, others := ?_, first := ?_, later := ?_ }
    · intro key hissued
      obtain ⟨reply, hreply, hkey⟩ := mem_filterMap.1 hissued
      obtain ⟨real, rfl⟩ := hdeed.issued hreply hkey
      have hpos : 0 < (exchange env c p).issues.length := length_pos_of_mem hissued
      rw [length_append] at hn
      exact ⟨hnum.lookup_fresh (by omega) real, hnum.fresh (by omega) real⟩
    · intro key real hlive
      have hreal : c.resolve key = some real := by rw [hresolve, hlive]; rfl
      refine ⟨fun offset size hkind hargs => ?_, fun offset data hkind hargs => ?_,
        fun hkind hkey => ?_⟩
      · have hkind : p.kind = .read := hkind
        have hargs : readArgs (p.payload.drop 4) = some (key, offset, size) := by
          have hfields : p.readFields = some (key, offset, size) := hargs
          rwa [Packet.readFields, hrest] at hfields
        rw [hkind] at hdeed
        exact hdeed.readOf hargs hreal
      · have hkind : p.kind = .write := hkind
        have hargs : writeArgs (p.payload.drop 4) = some (key, offset, data) := by
          have hfields : p.writeFields = some (key, offset, data) := hargs
          rwa [Packet.writeFields, hrest] at hfields
        rw [hkind] at hdeed
        exact hdeed.writeOf hargs hreal
      · have hkind : p.kind = .close := hkind
        rw [hkind] at hdeed
        exact hdeed.closeOf (hhandle ▸ hkey) hreal
    · rintro key ⟨hk, hkey⟩ hnone
      have hres : c.resolve key = none := by rw [hresolve, hnone]; rfl
      obtain ⟨hcalls, code, msg, hreplies, hcode⟩ :=
        hdeed.closedHandle hk (hhandle ▸ hkey) hres (hmark.closed key hnone)
      exact ⟨hcalls, id, code, msg, hreplies, hcode⟩
    · exact fun key key' hkind hkey hne => record_close hkind hkey hne m
    · intro key path hkind hkey hlive
      have hreal : c.resolve key = some (lit "dir:" ++ path) := by rw [hresolve, hlive]; rfl
      have hkind : p.kind = .readdir := hkind
      rw [hkind] at hdeed
      obtain ⟨hcalls, hreplies⟩ :=
        hdeed.listOf (hhandle ▸ hkey) hreal (hmark.dir key path false hlive)
      exact ⟨hcalls, id, hid, hreplies⟩
    · intro key path hkind hkey hlive
      have hkind : p.kind = .readdir := hkind
      rw [hkind] at hdeed
      obtain ⟨hcalls, hreplies⟩ := hdeed.endOf (hhandle ▸ hkey) (hmark.dir key path true hlive)
      exact ⟨hcalls, id, hid, hreplies⟩

/-! ## Connections -/

/-- What is known of the tables while the counter has not wrapped around. -/
structure Orderly (t : List Exchange) (T : Tables) : Prop where
  tabled : Tabled (bindings t) T
  marked : Marked (bindings t) T
  numbered : Numbered (issuedHandles t) (bindings t) T

theorem Orderly.step {t : List Exchange} (h : Orderly t c.tables) (env : Env W)
    (hc : c.calls = [] ∧ c.replies = []) (p : Packet)
    (hn : (issuedHandles (t ++ [exchange env c p])).length < 2 ^ 32) :
    Orderly (t ++ [exchange env c p]) (servePacket env c p).1.tables := by
  have he := servePacket_effect env hc p (bindings t)
  rw [issuedHandles_concat] at hn
  constructor <;> rw [bindings_concat]
  · exact h.tabled.effect he
  · exact h.marked.effect h.tabled h.numbered he hn
  · rw [issuedHandles_concat]
    exact h.numbered.effect he hn

theorem orderly_init : Orderly [] ⟨∅, ∅, 0⟩ where
  tabled _ := rfl
  marked := ⟨fun _ _ => rfl, nofun⟩
  numbered := ⟨rfl, nofun, fun _ h => absurd rfl h⟩

/-- **While fewer than `2 ^ 32` handles have been issued, every request of a connection does with
its handle what the handle stands for.** -/
theorem handles_isolated (world : W) {packets : List Packet}
    (hn : (issuedHandles ((serve env world).after packets).trace).length < 2 ^ 32) :
    (serve env world).Each
      (fun _ st p => st.ended = none → st.ready = true →
        Isolated env.backend st.conn.world (issuedHandles st.trace) (bindings st.trace)
          (exchange env st.fresh p)) packets := by
  intro ps p hps hended hready
  have hbound {t : List Exchange} (ht : t <+: ((serve env world).after (ps ++ [p])).trace) :
      (issuedHandles t).length < 2 ^ 32 :=
    lt_of_le_of_lt (length_issuedHandles_le (ht.trans (trace_prefix_of env world hps))) hn
  have hsame : ((serve env world).after (ps ++ [p])).trace =
      ((serve env world).after ps).trace ++ [exchange env ((serve env world).after ps).fresh p] := by
    rw [System.after_concat]
    exact congrArg Served.trace (step_loop hended hready p)
  have h : Orderly ((serve env world).after ps).trace ((serve env world).after ps).conn.tables :=
    serve_invariant env world (P := Orderly)
      (G := fun t x => (issuedHandles (t ++ [x])).length < 2 ^ 32) orderly_init
      (fun t c q ht hc hq => ht.step env hc q hq)
      fun t x htx => hbound (htx.trans (trace_prefix_of env world (prefix_append ps [p])))
  refine exchange_isolated env (c := ((serve env world).after ps).fresh) ⟨rfl, rfl⟩ h.tabled
    h.marked h.numbered p ?_
  rw [← issuedHandles_concat, ← hsame]
  exact hbound prefix_rfl

/-- A client that opens a file and a directory, lists the directory twice, closes the file, and
writes to it. -/
def writesLate : List Packet :=
  [{ type := typeInit, payload := appendUint32 [] version },
    { type := 3, payload := appendUint32 (appendString (appendUint32 [] 1) (lit "/f")) 1 },
    { type := 11, payload := appendString (appendUint32 [] 2) (lit "/") },
    { type := 12, payload := appendString (appendUint32 [] 3) (lit "h2") },
    { type := 12, payload := appendString (appendUint32 [] 4) (lit "h2") },
    { type := 4, payload := appendString (appendUint32 [] 5) (lit "h1") },
    { type := 6, payload := appendString (appendUint64 (appendString (appendUint32 [] 6)
      (lit "h1")) 0) (lit "data") }]

theorem handles_isolated_writesLate :
    let env : Env Unit := { backend := smallBackend, write := fun _ w => (.ok (), w) }
    (issuedHandles ((serve env ()).after writesLate).trace).length < 2 ^ 32 ∧
      (serve env ()).Each
        (fun _ st p => st.ended = none → st.ready = true →
          Isolated env.backend st.conn.world (issuedHandles st.trace) (bindings st.trace)
            (exchange env st.fresh p)) writesLate := by
  intro env
  have hn : (issuedHandles ((serve env ()).after writesLate).trace).length < 2 ^ 32 := by
    decide +kernel
  exact ⟨hn, handles_isolated env () hn⟩

end Sftp
