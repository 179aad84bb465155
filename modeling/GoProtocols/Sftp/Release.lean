import GoProtocols.Sftp.Handles

/-!
# What the server leaves open

When `Serve` returns it closes nothing: a backend handle is closed only by a `CLOSE` of the client.

* `Released t`: after the exchanges `t`, each handle that `Open` has returned has been passed to
  `Close` as often as `Open` has returned it.
* `ledger`: the handles opened are those closed, those that are still live, and those whose handle
  was issued again for something else. A `CLOSE` of a directory passes the server's own marker to
  `Close`, which may be the handle of a file (`strays`).
-/

namespace Sftp

open Go List

variable (t : List Exchange) (m : Bindings) (h real : Bytes)

/-! ## Specification -/

def openedHandles : List Bytes := t.flatMap Exchange.opened

def closedHandles : List Bytes := t.flatMap Exchange.closed

/-- Each handle that `Open` has returned has been passed to `Close`, once for each time. -/
def Released : Prop :=
  ∀ real ∈ openedHandles t, (closedHandles t).count real = (openedHandles t).count real

instance : Decidable (Released t) :=
  inferInstanceAs (Decidable (∀ real ∈ openedHandles t, _ = _))

/-! ## What becomes of a handle -/

def history : System Bindings Exchange where
  init := ∅
  enabled _ _ := True
  step m x := x.record m

def Live.isFile (l : Live) : Bool := decide (l = .file real)

def unclosed : Nat := (bindings t).count (Live.isFile real)

def Bindings.files (m : Bindings) (hs : List Bytes) : List Bytes :=
  hs.flatMap fun h => (m.lookup h).elim [] Live.backend

/-- What an exchange passes to `Close` for the handle of a directory. -/
def Exchange.strays (x : Exchange) : List Bytes :=
  match x.request.handle.bind m.lookup with
  | some (.dir _ _) => x.closed
  | _ => []

def overwritten : List Bytes := history.collect (fun m x => m.files x.issues) t

def strays (t : List Exchange) : List Bytes := history.collect Exchange.strays t

/-- No file is live or was overwritten, but as many as directories were closed in their place. -/
def Settled : Prop :=
  ∀ real ∈ openedHandles t,
    unclosed t real + (overwritten t).count real = (strays t).count real

/-! ## One exchange -/

variable {W : Type} (env : Env W) (world : W) (packets : List Packet)

theorem toNat_isFile (l : Live) : (l.isFile real).toNat = l.backend.count real := by
  cases l with
  | file real' => by_cases heq : real' = real <;> simp [Live.isFile, Live.backend, heq]
  | dir path listed => simp [Live.isFile, Live.backend]

theorem elim_isFile :
    (m.lookup h).elim 0 (fun l => (l.isFile real).toNat) = (m.files [h]).count real := by
  cases hm : m.lookup h with
  | none => simp [Bindings.files, hm]
  | some l => simp [Bindings.files, hm, toNat_isFile]

theorem count_list : (m.list h).count (Live.isFile real) = m.count (Live.isFile real) := by
  unfold Bindings.list
  split
  · rename_i path listed hlookup
    have hcount := Map.count_insert (Live.isFile real) m h (.dir path true)
    rw [hlookup] at hcount
    simpa [Live.isFile] using hcount
  · rfl

variable {m : Bindings} {x : Exchange} {h : Bytes}

theorem closed_eq {l : Live} (hh : x.request.handle = some h) (hl : m.lookup h = some l)
    (hclosed : x.closed = [l.entry]) (real : Bytes) :
    x.closed.count real = (x.strays m).count real + (m.files [h]).count real := by
  have hbind : x.request.handle.bind m.lookup = some l := by rw [hh, Option.bind_some, hl]
  cases l with
  | file real' | dir path listed =>
    simp [Exchange.strays, hbind, hclosed, Bindings.files, hl, Live.backend, Live.entry]

theorem strays_of_closed (h : x.closed = []) : x.strays m = [] := by
  unfold Exchange.strays
  split
  · exact h
  · rfl

theorem Effect.balance {c : Conn W} {m' : Bindings} {T : Tables} {hs : List Bytes}
    (he : Effect c m x T m' hs) (htab : Tabled m c.tables) (real : Bytes) :
    x.opened.count real + (x.strays m).count real + m.count (Live.isFile real) =
      x.closed.count real + (m.files hs).count real + m'.count (Live.isFile real) := by
  cases he with
  | keep hopened hclosed =>
    rw [hopened, strays_of_closed hclosed, hclosed]
    rfl
  | issue live hnew hopened hclosed =>
    have hcount := Map.count_insert (Live.isFile real) m (c.newHandle live.entry).1 live
    rw [elim_isFile, toNat_isFile] at hcount
    rw [hopened, strays_of_closed hclosed, hclosed, count_nil]
    omega
  | drop h real' hh hreal hopened hclosed =>
    obtain ⟨l, hl, rfl⟩ := Option.map_eq_some_iff.1 ((htab h).symm.trans hreal)
    have hcount := Map.count_erase (Live.isFile real) m h
    have hsplit := closed_eq hh hl hclosed real
    rw [elim_isFile] at hcount
    rw [hopened, hsplit]
    simp only [Bindings.files, flatMap_nil, count_nil] at *
    omega
  | mark h hlive hopened hclosed =>
    rw [hopened, strays_of_closed hclosed, hclosed, count_list]
    rfl

/-! ## Connections -/

/-- The handles opened are those closed, those still live and those overwritten. -/
def Ledger (t : List Exchange) : Prop :=
  ∀ real, (openedHandles t).count real + (strays t).count real =
    (closedHandles t).count real + (overwritten t).count real + unclosed t real

theorem ledger : Ledger ((serve env world).after packets).trace := by
  have hboth : Tabled (bindings ((serve env world).after packets).trace)
      ((serve env world).after packets).conn.tables ∧
        Ledger ((serve env world).after packets).trace := by
    refine serve_invariant env world (P := fun t T => Tabled (bindings t) T ∧ Ledger t)
      (G := fun _ _ => True) ⟨fun _ => rfl, fun _ => rfl⟩ ?_ fun _ _ _ => trivial
    rintro t c p ⟨htab, hledger⟩ hc -
    have he := servePacket_effect env hc p (bindings t)
    refine ⟨?_, fun real => ?_⟩
    · rw [bindings_concat]
      exact htab.effect he
    · have hbalance := he.balance htab real
      have hprev := hledger real
      have hhistory : history.after t = bindings t := rfl
      simp only [openedHandles, closedHandles, overwritten, strays, unclosed, bindings_concat,
        flatMap_append, flatMap_singleton, System.collect_concat, hhistory,
        count_append] at hprev ⊢
      omega
  exact hboth.2

/-- **The server has released what it opened exactly if no file is live or was overwritten**, but
for directories that were closed in their place. -/
theorem released_iff :
    Released ((serve env world).after packets).trace ↔
      Settled ((serve env world).after packets).trace := by
  have hledger := ledger env world packets
  refine forall₂_congr fun real _ => ?_
  have hreal := hledger real
  omega

/-- A client that opens a file and is gone. -/
def opensFile : List Packet :=
  [{ type := typeInit, payload := appendUint32 [] version },
    { type := 3, payload := appendUint32 (appendString (appendUint32 [] 1) (lit "/f")) 1 }]

theorem not_released_opensFile :
    ¬ Released ((serve { backend := smallBackend, write := fun _ w => (.ok (), w) } ()).after
      opensFile).trace := by
  decide +kernel

end Sftp
