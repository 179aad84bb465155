import GoProtocols.Sftp.Proof.Deeds

/-!
# What handles stand for

`bindings t`: the handles that are live after the exchanges `t` and what they stand for, by what was
asked and answered: the backend handle that an `Open` has returned, or a directory and whether it has
been listed. The table of the server is just this (`Tabled`), after any requests whatever
(`served_tabled`).
-/

namespace Sftp

open Go List

variable (t : List Exchange) (x : Exchange)

/-- What a handle stands for. -/
inductive Live
  | file (real : Bytes)
  | dir (path : Bytes) (listed : Bool)
  deriving DecidableEq

def Live.entry : Live → Bytes
  | .file real => real
  | .dir path _ => lit "dir:" ++ path

abbrev Bindings := Map Bytes Live

variable (m : Bindings)

def Bindings.list (h : Bytes) : Bindings :=
  match m.lookup h with
  | some (.dir path _) => m.insert h (.dir path true)
  | _ => m

/-- What an exchange does to the handles that are live. -/
def Exchange.record : Bindings :=
  match x.request.kind, x.calls, x.replies with
  | .open, [.open _ _ (.ok real)], [p] => p.issued.elim m fun h => m.insert h (.file real)
  | .opendir, [.readdir path], [p] => p.issued.elim m fun h => m.insert h (.dir path false)
  | .close, _, [p] => if p.isOK then x.request.handle.elim m m.erase else m
  | .readdir, _, [p] => if p.type = typeName then x.request.handle.elim m m.list else m
  | _, _, _ => m

def bindings : Bindings := t.foldl (fun m x => x.record m) ∅

@[simp] theorem bindings_concat :
    bindings (t ++ [x]) = x.record (bindings t) := by
  simp [bindings]

def Exchange.issues : List Bytes := x.replies.filterMap Packet.issued

/-- The handles that have been issued, one for each `OPEN` or `OPENDIR` that has succeeded. -/
def issuedHandles : List Bytes := t.flatMap Exchange.issues

@[simp] theorem issuedHandles_concat :
    issuedHandles (t ++ [x]) = issuedHandles t ++ x.issues := by
  simp [issuedHandles]

def Exchange.opened : List Bytes :=
  x.calls.filterMap fun
    | .open _ _ (.ok real) => some real
    | _ => none

/-- The backend handles that were passed to `Close`. -/
def Exchange.closed : List Bytes :=
  x.calls.filterMap fun
    | .close real => some real
    | _ => none

def Live.backend : Live → List Bytes
  | .file real => [real]
  | .dir _ _ => []

variable {W : Type} (id code : UInt32) (msg : Bytes) (env : Env W) (world : W)
  {ps packets : List Packet} (entries : List FileStat) {p : Packet}

/-- What an exchange does to the tables and to the bindings, and which handles it issues. -/
inductive Effect (c : Conn W) (m : Bindings) (x : Exchange) :
    Tables → Bindings → List Bytes → Prop
  | keep (hopened : x.opened = []) (hclosed : x.closed = []) : Effect c m x c.tables m []
  | issue (live : Live) (hnew : ∀ path, live ≠ .dir path true) (hopened : x.opened = live.backend)
      (hclosed : x.closed = []) :
      Effect c m x (c.newHandle live.entry).2.tables (m.insert (c.newHandle live.entry).1 live)
        [(c.newHandle live.entry).1]
  | drop (h real : Bytes) (hh : x.request.handle = some h) (hreal : c.resolve h = some real)
      (hopened : x.opened = []) (hclosed : x.closed = [real]) :
      Effect c m x (c.drop h).tables (m.erase h) []
  | mark (h : Bytes) (hlive : c.resolve h ≠ none) (hopened : x.opened = [])
      (hclosed : x.closed = []) : Effect c m x (c.markDrained h).tables (m.list h) []

/-! ## Replies -/

theorem issued_of_type (h : p.type ≠ typeHandle) : p.issued = none := if_neg h

@[simp] theorem issued_statusPacket :
    (statusPacket id code msg).issued = none :=
      issued_of_type (show typeStatus ≠ typeHandle by decide)

@[simp] theorem issued_dataPacket (n : Int) (data : Bytes) :
    (dataPacket id n data).issued = none := issued_of_type (show typeData ≠ typeHandle by decide)

@[simp] theorem issued_namePacket :
    (namePacket id entries).issued = none := issued_of_type (show typeName ≠ typeHandle by decide)

@[simp] theorem issued_newHandle (c : Conn W) (real : Bytes) :
    (handlePacket id (c.newHandle real).1).issued = some (c.newHandle real).1 :=
  by simp [Packet.issued, handlePacket, readString_appendUint32 (length_newHandle c real),
    Field.toOption]

@[simp] theorem type_statusPacket : (statusPacket id code msg).type = typeStatus := rfl

@[simp] theorem type_namePacket : (namePacket id entries).type = typeName := rfl

/-! ## The effect of a request -/

theorem record_error {code : UInt32} (hcode : code ≠ statusOK) (p : Packet) (calls : List Call)
    (id : UInt32) (msg : Bytes) (m : Bindings) :
    Exchange.record ⟨p, calls, [statusPacket id code msg]⟩ m = m := by
  have htype : typeStatus ≠ typeName := by decide
  unfold Exchange.record
  split
  case h_5 => rfl
  all_goals
    rename_i hreplies
    obtain rfl := singleton_inj.1 hreplies
    simp [hcode, htype]

theorem record_other (hkind : p.kind.isPlain = true ∨ p.kind = .read ∨ p.kind = .write)
    (calls : List Call) (replies : List Packet) (m : Bindings) :
    Exchange.record ⟨p, calls, replies⟩ m = m := by
  unfold Exchange.record
  split <;> simp_all [Kind.isPlain]

section
variable {env : Env W} {c : Conn W} {id : UInt32} {rest : Bytes} {k : Kind} {r : Report}

theorem mapErr_ne_ok (e : BackendError) : mapErr e ≠ statusOK := by
  unfold mapErr
  split <;> decide

theorem opened_plain {x : Exchange} (h : ∀ call ∈ x.calls, call.isPlain = true) :
    x.opened = [] ∧ x.closed = [] := by
  constructor <;> refine filterMap_eq_nil_iff.2 fun call hcall => ?_ <;>
    have hplain := h call hcall <;> cases call <;> simp_all [Call.isPlain]

theorem Deed.effect (h : Deed env c id rest k r) (hkind : p.kind = k)
    (hhandle : p.handle = stringArg rest) (m : Bindings) :
    Effect c m ⟨p, r.calls, r.replies⟩ r.tables (Exchange.record ⟨p, r.calls, r.replies⟩ m)
      (Exchange.issues ⟨p, r.calls, r.replies⟩) := by
  have hkeep {x : Exchange} (hrecord : x.record m = m) (hissues : x.issues = [])
      (hcalls : x.opened = [] ∧ x.closed = []) :
      Effect c m x c.tables (x.record m) x.issues := by
    rw [hrecord, hissues]
    exact .keep hcalls.1 hcalls.2
  have herror {calls : List Call} {code : UInt32} {msg : Bytes} (hcode : code ≠ statusOK)
      (hcalls : Exchange.opened ⟨p, calls, [statusPacket id code msg]⟩ = [] ∧
        Exchange.closed ⟨p, calls, [statusPacket id code msg]⟩ = []) :
      Effect c m ⟨p, calls, [statusPacket id code msg]⟩ c.tables
        (Exchange.record ⟨p, calls, [statusPacket id code msg]⟩ m)
        (Exchange.issues ⟨p, calls, [statusPacket id code msg]⟩) :=
    hkeep (record_error hcode _ _ _ _ _) (by simp [Exchange.issues]) hcalls
  cases h with
  | opened path flags real =>
    have heffect := Effect.issue (c := c) (m := m)
      (x := ⟨p, [.open path flags (.ok real)], [handlePacket id (c.newHandle real).1]⟩)
      (.file real) nofun rfl rfl
    simpa [Exchange.record, Exchange.issues, hkind, Live.entry] using heffect
  | openedDir path =>
    have heffect := Effect.issue (c := c) (m := m)
      (x := ⟨p, [.readdir path], [handlePacket id (c.newHandle (lit "dir:" ++ path)).1]⟩)
      (.dir path false) (by simp) rfl rfl
    simpa [Exchange.record, Exchange.issues, hkind, Live.entry] using heffect
  | closed h real hh hreal =>
    have heffect := Effect.drop (c := c) (m := m)
      (x := ⟨p, [.close real], [statusPacket id statusOK []]⟩) h real (hhandle.trans hh) hreal rfl
      rfl
    simpa [Exchange.record, Exchange.issues, hkind, hhandle, hh] using heffect
  | listed h real path entries hh hreal =>
    have heffect := Effect.mark (c := c) (m := m)
      (x := ⟨p, [.readdir path], [namePacket id entries]⟩) h (by simp [hreal]) rfl rfl
    simpa [Exchange.record, Exchange.issues, hkind, hhandle, hh] using heffect
  | truncated | noHandle | drained => exact herror (by decide) ⟨rfl, rfl⟩
  | openFailed path flags e | opendirFailed path e
  | listFailed h real path e => exact herror (mapErr_ne_ok e) ⟨rfl, rfl⟩
  | short => exact hkeep (by simp [Exchange.record, hkind]) rfl ⟨rfl, rfl⟩
  | readFailed | read =>
    exact hkeep (record_other (.inr (.inl hkind)) _ _ _) (by simp [Exchange.issues]) ⟨rfl, rfl⟩
  | readTooMuch => exact hkeep (record_other (.inr (.inl hkind)) _ _ _) rfl ⟨rfl, rfl⟩
  | wrote =>
    exact hkeep (record_other (.inr (.inr hkind)) _ _ _) (by simp [Exchange.issues]) ⟨rfl, rfl⟩
  | plain _ calls reply hk hcalls hid htype =>
    refine hkeep (record_other (.inl (hkind ▸ hk)) _ _ _) ?_ (opened_plain hcalls)
    simp [Exchange.issues, issued_of_type htype]

/-- **What a packet does to the tables is what the exchange says.** -/
theorem servePacket_effect (env : Env W) (hc : c.calls = [] ∧ c.replies = []) (p : Packet)
    (m : Bindings) :
    Effect c m (exchange env c p) (servePacket env c p).1.tables ((exchange env c p).record m)
      (exchange env c p).issues := by
  by_cases hlen : p.payload.length < 4
  · have hrecord : Exchange.record ⟨p, [], []⟩ m = m := by
      unfold Exchange.record
      split <;> simp_all
    rw [exchange_short hc hlen, hrecord, servePacket, if_pos hlen]
    exact .keep rfl rfl
  · exact (servePacket_deed hc (if_neg hlen)).effect rfl (handle_eq hlen) m

end

/-! ## The table -/

def Tabled (T : Tables) : Prop :=
  ∀ h, T.handles.lookup h = (m.lookup h).map Live.entry

theorem lookup_list (h key : Bytes) :
    ((m.list h).lookup key).map Live.entry = (m.lookup key).map Live.entry := by
  unfold Bindings.list
  split
  · rename_i path listed hlookup
    rw [Map.lookup_insert_eq]
    split
    · rename_i hkey
      rw [hkey, hlookup]
      rfl
    · rfl
  · rfl

theorem Tabled.effect {c : Conn W} {m m' : Bindings} {x : Exchange} {T : Tables} {hs : List Bytes}
    (h : Tabled m c.tables) (he : Effect c m x T m' hs) : Tabled m' T := by
  intro key
  have hkey : c.handles.lookup key = (m.lookup key).map Live.entry := h key
  cases he with
  | keep => exact hkey
  | issue live =>
    show (AList.insert (c.newHandle live.entry).1 live.entry c.handles).lookup key = _
    rw [Map.lookup_insert_eq, Map.lookup_insert_eq]
    split
    · rfl
    · exact hkey
  | drop h =>
    show (c.handles.erase h).lookup key = _
    rw [Map.lookup_erase_eq, Map.lookup_erase_eq]
    split
    · rfl
    · exact hkey
  | mark h =>
    rw [lookup_list]
    exact hkey

/-! ## Connections -/

theorem handshake_tables (c : Conn W) (p : Packet) : (handshake env c p).1.tables = c.tables := by
  unfold handshake
  split
  · rfl
  · split
    · rfl
    · split
      · rfl
      · split
        · rfl
        · unfold Conn.send
          split <;> rename_i hsend <;> obtain ⟨rfl, -⟩ := Prod.mk.inj hsend <;> rfl

theorem step_trace (st : Served W) (p : Packet) : st.trace <+: (st.step env p).trace := by
  cases hended : st.ended with
  | some e =>
    simp only [step_ended hended, prefix_rfl]
  | none =>
    cases hready : st.ready with
    | false =>
      simp only [step_handshake hended hready, prefix_rfl]
    | true =>
      rw [step_loop hended hready]
      exact prefix_append _ _

theorem trace_prefix_of (h : ps <+: packets) :
    ((serve env world).after ps).trace <+: ((serve env world).after packets).trace := by
  obtain ⟨qs, rfl⟩ := h
  induction qs using List.reverseRecOn with
  | nil =>
    simp only [append_nil, prefix_rfl]
  | append_singleton qs q ih =>
    rw [← append_assoc, System.after_concat]
    exact ih.trans (step_trace env _ q)

/-- A property of the trace and the tables that holds at the start and survives every request, as
long as the requests are good, holds in every state. -/
theorem serve_invariant {P : List Exchange → Tables → Prop} {G : List Exchange → Exchange → Prop}
    (hinit : P [] ⟨∅, ∅, 0⟩)
    (hstep : ∀ t (c : Conn W) p, P t c.tables → c.calls = [] ∧ c.replies = [] →
      G t (exchange env c p) → P (t ++ [exchange env c p]) (servePacket env c p).1.tables)
    (hgood : ∀ t x, t ++ [x] <+: ((serve env world).after packets).trace → G t x) :
    P ((serve env world).after packets).trace ((serve env world).after packets).conn.tables := by
  induction packets using List.reverseRecOn with
  | nil => exact hinit
  | append_singleton packets p ih =>
    rw [System.after_concat] at hgood ⊢
    change ∀ t x, t ++ [x] <+: (Served.step env _ p).trace → G t x at hgood
    change P (Served.step env _ p).trace (Served.step env _ p).conn.tables
    generalize (serve env world).after packets = st at ih hgood
    cases hended : st.ended with
    | some e =>
      rw [step_ended hended] at hgood ⊢
      exact ih hgood
    | none =>
      cases hready : st.ready with
      | false =>
        rw [step_handshake hended hready] at hgood ⊢
        have htables : (handshake env st.fresh p).1.tables = st.conn.tables :=
          handshake_tables env st.fresh p
        simp only [htables]
        exact ih hgood
      | true =>
        rw [step_loop hended hready] at hgood ⊢
        have hprev : P st.trace st.conn.tables := ih fun t x htx =>
          hgood t x (htx.trans (prefix_append _ _))
        exact hstep st.trace st.fresh p hprev ⟨rfl, rfl⟩ (hgood _ _ prefix_rfl)

theorem length_issuedHandles_le {t t' : List Exchange} (h : t <+: t') :
    (issuedHandles t).length ≤ (issuedHandles t').length := by
  obtain ⟨u, rfl⟩ := h
  simp [issuedHandles]

theorem served_tabled (packets : List Packet) :
    Tabled (bindings ((serve env world).after packets).trace)
      ((serve env world).after packets).conn.tables := by
  refine serve_invariant env world (P := fun t T => Tabled (bindings t) T)
    (G := fun _ _ => True) (fun _ => rfl) (fun t c p h hc _ => ?_) fun _ _ _ => trivial
  rw [bindings_concat]
  exact h.effect (servePacket_effect env hc p _)

end Sftp
