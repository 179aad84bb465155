import GoProtocols.Torrent.Metainfo
import Mathlib.Data.Finset.Card

/-!
# Package `piece`

The state of one piece (`torrent/piece/piece.go`). `Store` bounds a block by the sum of its offset
and length, in machine arithmetic, and is sound unless the offset is negative or the sum wraps
around (`store_atomic_iff`). The piece counts the bytes it is given, not the ones it has
(`complete_iff_covered_iff`); for the blocks that `NextRequest` asks for, in any order, these are
the same (`requested_blocks`).
-/

namespace Piece

open Go Bencode Metainfo List

/-- A sum of Go integers. -/
def wrap (n : Int) : Int := n.bmod (2 ^ 64)

def BlockSize : Nat := 16384

/-- The length of a piece is that of its buffer, which no method changes. -/
structure State where
  data : Bytes
  index : Int
  downloaded : Int := 0
  requested : Nat := 0
  hash : Hash
  le_maxAlloc : data.length ≤ maxAlloc

/-- How `Store` ends: the error is about a block that overflows the piece. -/
inductive Outcome
  | ok
  | overflows (index begin : Int) (len length : Nat)
  | panic
  deriving DecidableEq

/-- `copy(buf[off:], data)`. -/
def copyAt (buf : Bytes) (off : Nat) (data : Bytes) : Bytes :=
  buf.take off ++ data.take (buf.length - off) ++ buf.drop (off + data.length)

variable (s : State) (begin : Int) {data buf content : Bytes} {off i : Nat}

theorem length_copyAt (data : Bytes) (h : off ≤ buf.length) :
    (copyAt buf off data).length = buf.length := by
  simp only [copyAt, length_append, length_take, length_drop]
  omega

theorem getElem?_copyAt (h : off + data.length ≤ buf.length) (i : Nat) :
    (copyAt buf off data)[i]? =
      if off ≤ i ∧ i < off + data.length then data[i - off]? else buf[i]? := by
  have hdata : data.take (buf.length - off) = data := take_of_length_le (by omega)
  rw [copyAt, hdata, append_assoc]
  simp only [List.getElem?_append, length_take, List.getElem?_take, List.getElem?_drop]
  grind

/-- `New`. It panics if there is no buffer of that length. -/
def new (index : Int) (hash : Hash) (length : Int) : Option State :=
  if h : 0 ≤ length ∧ length ≤ maxAlloc then
    some { data := List.replicate length.toNat 0, index, hash
           le_maxAlloc := by rw [length_replicate]; omega }
  else none

namespace State

def complete : Bool := s.data.length ≤ s.downloaded

/-- `NextRequest`. The sums are within the length of a buffer and do not wrap around. -/
def nextRequest : Option (Nat × Nat) × State :=
  if s.data.length ≤ s.requested then (none, s)
  else
    let begin := s.requested
    let blockLen := if s.data.length < begin + BlockSize then s.data.length - begin else BlockSize
    (some (begin, blockLen), { s with requested := s.requested + blockLen })

/-- `Store`. It panics if the block does not start in the buffer. -/
def store (data : Bytes) : State × Outcome :=
  if s.data.length < wrap (begin + data.length) then
    (s, .overflows s.index begin data.length s.data.length)
  else if h : begin < 0 ∨ s.data.length < begin then (s, .panic)
  else
    ({ s with
        data := copyAt s.data begin.toNat data
        downloaded := wrap (s.downloaded + data.length)
        le_maxAlloc := by rw [length_copyAt _ (by omega)]; exact s.le_maxAlloc }, .ok)

/-- `Verify`: the error names the hash that the data has. -/
def verify (sha1 : Bytes → Hash) : Option Hash :=
  if sha1 s.data = s.hash then none else some (sha1 s.data)

end State

/-! ## Storing a block -/

/-- An offset in Go, with a block. -/
def IsCall (begin : Int) (data : Bytes) : Prop :=
  -2 ^ 63 ≤ begin ∧ begin < 2 ^ 63 ∧ data.length ≤ maxAlloc

variable {s begin}

/-- The check of `Store`: beyond the 64-bit numbers the sum is negative. -/
theorem overflows_iff (h : IsCall begin data) :
    s.data.length < wrap (begin + data.length) ↔
      begin + data.length < 2 ^ 63 ∧ s.data.length < begin + data.length := by
  obtain ⟨hlo, hhi, hmax⟩ := h
  unfold maxAlloc at hmax
  rw [wrap, Int.bmod_def]
  split <;> omega

/-- **A block is stored** if it lies in the piece. -/
theorem store_ok (hlo : 0 ≤ begin) (hhi : begin + data.length ≤ s.data.length) :
    ∃ h, s.store begin data = ({ s with
      data := copyAt s.data begin.toNat data
      downloaded := wrap (s.downloaded + data.length), le_maxAlloc := h }, .ok) := by
  have hmax := s.le_maxAlloc
  unfold maxAlloc at hmax
  have hcall : IsCall begin data := ⟨by omega, by omega, by unfold maxAlloc; omega⟩
  rw [State.store, if_neg (by rw [overflows_iff hcall]; omega), dif_neg (by omega)]
  exact ⟨_, rfl⟩

/-- `Store` refuses a block and changes nothing, or it writes the block, which lies in the piece,
and nothing else. -/
def Atomic (s : State) (begin : Int) (data : Bytes) : Prop :=
  s.store begin data = (s, .overflows s.index begin data.length s.data.length) ∨
  (s.store begin data).2 = .ok ∧ 0 ≤ begin ∧ begin + data.length ≤ s.data.length ∧
    ∀ i : Nat, (s.store begin data).1.data[i]? =
      if begin ≤ i ∧ i < begin + data.length then data[i - begin.toNat]? else s.data[i]?

/-- **`Store` is bounded and atomic** if the end of the block is a 64-bit number, and for an offset
before the piece only if the block ends after the piece. -/
theorem store_atomic_iff (h : IsCall begin data) :
    Atomic s begin data ↔ 0 ≤ begin ∧ begin + data.length < 2 ^ 63 ∨
      begin < 0 ∧ s.data.length < begin + data.length := by
  have hmax := s.le_maxAlloc
  have hiff := @overflows_iff s begin data h
  obtain ⟨hlo, hhi, hdata⟩ := h
  unfold maxAlloc at hmax hdata
  constructor
  · rintro (hstore | ⟨-, hin, hend, -⟩)
    · by_cases hover : s.data.length < wrap (begin + data.length)
      · rw [hiff] at hover
        omega
      · rw [State.store, if_neg hover] at hstore
        split at hstore <;> simp at hstore
    · omega
  · intro hcond
    by_cases hover : s.data.length < wrap (begin + data.length)
    · exact .inl (if_pos hover)
    · rw [hiff] at hover
      obtain ⟨_, hstore⟩ := @store_ok s begin data (by omega) (by omega)
      refine .inr ⟨by rw [hstore], by omega, by omega, fun i => ?_⟩
      have hin : begin ≤ i ∧ i < begin + data.length ↔
          begin.toNat ≤ i ∧ i < begin.toNat + data.length := by omega
      rw [hstore]
      simp only [hin]
      exact getElem?_copyAt (by omega) i

/-- A piece of two bytes. -/
def pair : State :=
  { data := [0, 0], index := 0, hash := Vector.replicate 20 0, le_maxAlloc := by decide }

theorem store_atomic_iff_second : Atomic pair 1 [7] ↔ 0 ≤ (1 : Int) ∧ (1 : Int) + 1 < 2 ^ 63 ∨
    (1 : Int) < 0 ∧ (2 : Int) < 1 + 1 :=
  store_atomic_iff ⟨by decide, by decide, by decide⟩

/-- A negative offset makes `Store` panic. -/
theorem not_atomic_negative : ¬ Atomic pair (-1) [7] := by
  have hpanic : (pair.store (-1) [7]).2 = .panic := by decide +kernel
  rintro (h | ⟨h, -⟩)
  · rw [h] at hpanic
    cases hpanic
  · rw [h] at hpanic
    cases hpanic

/-! ## Runs -/

/-- A run of calls of `Store`, and whether all succeed. -/
def State.storeAll (s : State) : List (Int × Bytes) → State × Bool
  | [] => (s, true)
  | c :: calls =>
    let stored := s.store c.1 c.2
    let rest := storeAll stored.1 calls
    (rest.1, stored.2 = .ok && rest.2)

/-- The positions that are written, each as often as it is. -/
def positions (calls : List (Int × Bytes)) : List Nat :=
  calls.flatMap fun c => List.range' c.1.toNat c.2.length

variable {calls : List (Int × Bytes)} {d : Int}

/-- The calls lie in a piece of `n` bytes. -/
def Within (n : Nat) (calls : List (Int × Bytes)) : Prop :=
  ∀ c ∈ calls, 0 ≤ c.1 ∧ c.1 + c.2.length ≤ n

theorem within_of_storeAll (hcalls : ∀ c ∈ calls, IsCall c.1 c.2 ∧ 0 ≤ c.1)
    (hok : (s.storeAll calls).2 = true) : Within s.data.length calls := by
  induction calls generalizing s with
  | nil => simp [Within]
  | cons c calls ih =>
    obtain ⟨⟨hcall, hlo⟩, hcalls⟩ := forall_mem_cons.1 hcalls
    simp only [State.storeAll, Bool.and_eq_true, decide_eq_true_eq] at hok
    have hhi : c.1 + c.2.length ≤ s.data.length := by
      have hstore := hok.1
      have hpiece := s.le_maxAlloc
      unfold State.store at hstore
      split at hstore
      · cases hstore
      rename_i hnot
      rw [overflows_iff hcall] at hnot
      split at hstore
      · cases hstore
      have hmax := hcall.2.2
      unfold maxAlloc at hmax hpiece
      omega
    obtain ⟨_, hstore⟩ := store_ok hlo hhi
    have hrest := ih hcalls hok.2
    rw [hstore, length_copyAt _ (by omega)] at hrest
    exact forall_mem_cons.2 ⟨⟨hlo, hhi⟩, hrest⟩

/-- What a run of calls within the piece does, if each has the bytes of `content`. -/
structure Filled (s : State) (d : Int) (calls : List (Int × Bytes)) : Prop where
  ok : (s.storeAll calls).2 = true
  hash : (s.storeAll calls).1.hash = s.hash
  length : (s.storeAll calls).1.data.length = s.data.length
  downloaded : (s.storeAll calls).1.downloaded = wrap (d + (positions calls).length)
  data : ∀ content : Bytes,
    (∀ c ∈ calls, ∀ i : Nat, i < c.2.length → c.2[i]? = content[c.1.toNat + i]?) →
    ∀ i : Nat, (s.storeAll calls).1.data[i]? =
      if i ∈ positions calls then content[i]? else s.data[i]?

theorem filled_of_within (h : Within s.data.length calls) (hd : s.downloaded = wrap d) :
    Filled s d calls := by
  induction calls generalizing s d with
  | nil => constructor <;> simp [State.storeAll, positions, hd]
  | cons c calls ih =>
    obtain ⟨⟨hlo, hhi⟩, h⟩ := forall_mem_cons.1 h
    obtain ⟨_, hstore⟩ := store_ok hlo hhi
    have hsize : (copyAt s.data c.1.toNat c.2).length = s.data.length := length_copyAt _ (by omega)
    have hrest := @ih (s.store c.1 c.2).1 (d + c.2.length) (by rw [hstore, hsize]; exact h)
      (by rw [hstore, hd]; exact Int.bmod_add_bmod)
    refine ⟨by simp [State.storeAll, hstore, ← hrest.ok], ?_, ?_, ?_, fun content hcontent i => ?_⟩
    · rw [State.storeAll, hrest.hash, hstore]
    · rw [State.storeAll, hrest.length, hstore, hsize]
    · rw [State.storeAll, hrest.downloaded, positions, positions, flatMap_cons,
        length_append, length_range', Int.natCast_add, Int.add_assoc]
    · obtain ⟨hfirst, hcontent⟩ := forall_mem_cons.1 hcontent
      have hmem : i ∈ positions (c :: calls) ↔
          (c.1.toNat ≤ i ∧ i < c.1.toNat + c.2.length) ∨ i ∈ positions calls := by
        simp [positions, mem_range'_1]
      rw [State.storeAll, hrest.data content hcontent, hstore]
      by_cases hi : i ∈ positions calls
      · rw [if_pos hi, if_pos (hmem.2 (.inr hi))]
      rw [if_neg hi]
      by_cases hc : c.1.toNat ≤ i ∧ i < c.1.toNat + c.2.length
      · rw [getElem?_copyAt (by omega), if_pos hc, if_pos (hmem.2 (.inl hc)), hfirst _ (by omega),
          Nat.add_sub_cancel' hc.1]
      · rw [getElem?_copyAt (by omega), if_neg hc, if_neg (hmem.not.2 (not_or.2 ⟨hc, hi⟩))]

/-! ## Completion -/

/-- The counter is ahead of the positions written by less than what is missing, or nothing is
missing. It is ahead by the positions that are written again, while it does not wrap around. -/
def Tallies (length : Int) (calls : List (Int × Bytes)) : Prop :=
  let written : Int := (positions calls).toFinset.card
  let ahead := wrap (positions calls).length - written
  let missing := length - written
  0 ≤ ahead ∧ missing = 0 ∨ ahead < missing ∧ 0 < missing

/-- **A piece is complete when every byte has arrived**, if and only if the counter tallies. -/
theorem complete_iff_covered_iff {index length : Int} {hash : Hash}
    (hnew : new index hash length = some s) (hcalls : ∀ c ∈ calls, IsCall c.1 c.2 ∧ 0 ≤ c.1)
    (hok : (s.storeAll calls).2 = true) :
    ((s.storeAll calls).1.complete = true ↔ ∀ i : Nat, i < length → i ∈ positions calls) ↔
      Tallies length calls := by
  obtain ⟨hlength, hzero⟩ : length = s.data.length ∧ s.downloaded = wrap 0 := by
    unfold new at hnew
    split at hnew <;> simp at hnew
    rw [← hnew]
    exact ⟨by simp; omega, rfl⟩
  have hwithin := within_of_storeAll hcalls hok
  have hfilled := filled_of_within hwithin hzero
  have hsub : (positions calls).toFinset ⊆ Finset.range s.data.length := by
    intro i hi
    simp only [positions, mem_toFinset, mem_flatMap, mem_range'_1] at hi
    obtain ⟨c, hc, hi⟩ := hi
    have hin := hwithin c hc
    rw [Finset.mem_range]
    omega
  have hcard := Finset.card_le_card hsub
  have hall : (∀ i : Nat, i < length → i ∈ positions calls) ↔
      (positions calls).toFinset.card = s.data.length := by
    constructor
    · intro h
      have heq : (positions calls).toFinset = Finset.range s.data.length :=
        hsub.antisymm fun i hi => mem_toFinset.2 (h i (by rw [Finset.mem_range] at hi; omega))
      rw [heq, Finset.card_range]
    · intro h i hi
      have heq := Finset.eq_of_subset_of_card_le hsub (by rw [Finset.card_range, h])
      exact mem_toFinset.1 (heq ▸ Finset.mem_range.2 (by omega))
  rw [Finset.card_range] at hcard
  rw [hall, State.complete, hfilled.length, hfilled.downloaded, decide_eq_true_eq, Int.zero_add]
  simp only [Tallies]
  omega

theorem complete_iff_covered_iff_both :
    ((pair.storeAll [(0, [7]), (1, [8])]).1.complete = true ↔
      ∀ i : Nat, (i : Int) < 2 → i ∈ positions [(0, [7]), (1, [8])]) ↔
      Tallies 2 [(0, [7]), (1, [8])] :=
  @complete_iff_covered_iff pair _ 0 2 (Vector.replicate 20 0) rfl
    (by simp [IsCall, maxAlloc]) (by decide +kernel)

/-- A byte that arrives twice stands for one that does not. -/
theorem complete_without_second :
    new 0 (Vector.replicate 20 0) 2 = some pair ∧ (pair.storeAll [(0, [7]), (0, [7])]).2 = true ∧
      (pair.storeAll [(0, [7]), (0, [7])]).1.complete = true ∧
      1 ∉ positions [(0, [7]), (0, [7])] :=
  ⟨rfl, by decide +kernel, by decide +kernel, by decide +kernel⟩

/-! ## Requests -/

/-- `NextRequest` until there is nothing left to request. -/
def State.requestAll : Nat → State → Option (List (Nat × Nat) × State)
  | 0, _ => none
  | fuel + 1, s =>
    match s.nextRequest with
    | (none, s) => some ([], s)
    | (some block, s) => (requestAll fuel s).map fun r => (block :: r.1, r.2)

/-- The call of `Store` for a block of the content. -/
def blockOf (content : Bytes) (block : Nat × Nat) : Int × Bytes :=
  (block.1, (content.drop block.1).take block.2)

/-- The positions of a block. -/
def span (block : Nat × Nat) : List Nat := List.range' block.1 block.2

theorem requestAll_spec {fuel : Nat} (h : s.requested ≤ s.data.length)
    (hfuel : s.data.length < s.requested + fuel) :
    ∃ blocks r, s.requestAll fuel = some (blocks, { s with requested := r }) ∧
      (∀ b ∈ blocks, 1 ≤ b.2 ∧ b.2 ≤ 16384) ∧
      blocks.flatMap span = List.range' s.requested (s.data.length - s.requested) := by
  induction fuel generalizing s with
  | zero => omega
  | succ fuel ih =>
    by_cases hdone : s.data.length ≤ s.requested
    · refine ⟨[], s.requested, by rw [State.requestAll, State.nextRequest, if_pos hdone], by simp, ?_⟩
      rw [Nat.sub_eq_zero_of_le hdone]
      rfl
    · obtain ⟨n, hn⟩ : ∃ n, n = if s.data.length < s.requested + BlockSize
        then s.data.length - s.requested else BlockSize := ⟨_, rfl⟩
      have hsize : 1 ≤ n ∧ n ≤ 16384 ∧ s.requested + n ≤ s.data.length := by
        unfold BlockSize at hn
        split at hn <;> omega
      obtain ⟨blocks, r, hblocks, hsizes, hspans⟩ :=
        @ih { s with requested := s.requested + n } (by simp only; omega) (by simp only; omega)
      refine ⟨(s.requested, n) :: blocks, r, ?_, ?_, ?_⟩
      · simp only [State.requestAll, State.nextRequest, if_neg hdone, ← hn, hblocks, Option.map_some]
      · exact forall_mem_cons.2 ⟨⟨hsize.1, hsize.2.1⟩, hsizes⟩
      · simp only [flatMap_cons, hspans, span, List.range'_append_1]
        congr 1
        omega

variable {bs : List (Nat × Nat)}

theorem filled_blocks (hsize : s.data.length = content.length)
    (h : ∀ b ∈ bs, b.1 + b.2 ≤ content.length) (hd : s.downloaded = wrap d) :
    Filled s d (bs.map (blockOf content)) ∧
      positions (bs.map (blockOf content)) = bs.flatMap span := by
  have hlen : ∀ b ∈ bs, (blockOf content b).2.length = b.2 := by
    intro b hb
    have hb := h b hb
    simp only [blockOf, length_take, length_drop]
    omega
  refine ⟨filled_of_within ?_ hd, ?_⟩
  · intro c hc
    obtain ⟨b, hb, rfl⟩ := mem_map.1 hc
    have hend := h b hb
    rw [hlen b hb, hsize]
    exact ⟨by simp [blockOf], by simp only [blockOf]; omega⟩
  · rw [positions, flatMap_map]
    refine flatMap_congr fun b hb => ?_
    rw [hlen b hb]
    rfl

/-- The blocks of the content are stored one after the other, the piece is complete after the last
one, and then it has the content and passes the check. -/
def Assembles (sha1 : Bytes → Hash) (content : Bytes) (s : State) (order : List (Nat × Nat)) :
    Prop :=
  let calls := order.map (blockOf content)
  (s.storeAll calls).2 = true ∧
    (∀ k ≤ calls.length, (s.storeAll (calls.take k)).1.complete = true ↔ k = calls.length) ∧
    (s.storeAll calls).1.data = content ∧ (s.storeAll calls).1.verify sha1 = none

/-- **The requested blocks make up the piece**, in whatever order they arrive. -/
theorem requested_blocks (sha1 : Bytes → Hash) (index : Int) (hmax : content.length ≤ maxAlloc) :
    ∃ s blocks s', new index (sha1 content) content.length = some s ∧
      s.requestAll (content.length + 1) = some (blocks, s') ∧
      (∀ b ∈ blocks, 1 ≤ b.2 ∧ b.2 ≤ 16384) ∧ blocks.flatMap span = List.range content.length ∧
      ∀ order : List (Nat × Nat), order.Perm blocks → Assembles sha1 content s' order := by
  obtain ⟨s, hnew, hreq, hdown, hsize, hhash⟩ : ∃ s,
      new index (sha1 content) content.length = some s ∧ s.requested = 0 ∧ s.downloaded = wrap 0 ∧
      s.data.length = content.length ∧ s.hash = sha1 content := by
    rw [new, dif_pos (by omega)]
    exact ⟨_, rfl, rfl, rfl, by simp, rfl⟩
  obtain ⟨blocks, r, hblocks, hsizes, hspans⟩ := @requestAll_spec s (content.length + 1)
    (by omega) (by omega)
  have hflat : blocks.flatMap span = List.range content.length := by
    rw [hspans, hsize, hreq, range_eq_range', Nat.sub_zero]
  have hin : ∀ b ∈ blocks, b.1 + b.2 ≤ content.length := by
    intro b hb
    have hpos := (hsizes b hb).1
    have hlast : b.1 + b.2 - 1 ∈ blocks.flatMap span :=
      mem_flatMap.2 ⟨b, hb, by rw [span, mem_range'_1]; omega⟩
    rw [hflat, mem_range] at hlast
    omega
  set s' : State := { s with requested := r }
  have hsize' : s'.data.length = content.length := hsize
  refine ⟨s, blocks, s', hnew, hblocks, hsizes, hflat, fun order horder => ?_⟩
  have hperm := horder.flatMap_right span
  rw [hflat] at hperm
  obtain ⟨hfilled, hpositions⟩ :=
    filled_blocks hsize' (fun b hb => hin b (horder.subset hb)) hdown
  unfold Assembles
  intro calls
  have hcontent : (s'.storeAll calls).1.data = content := by
    apply ext_getElem?
    intro i
    have hmem : i ∈ positions calls ↔ i < content.length := by
      rw [hpositions, hperm.mem_iff, mem_range]
    rw [hfilled.data content]
    · by_cases hi : i < content.length
      · rw [if_pos (hmem.2 hi)]
      · rw [if_neg (hmem.not.2 hi), List.getElem?_eq_none (by omega),
          List.getElem?_eq_none (by omega)]
    · intro c hc i hi
      obtain ⟨b, -, rfl⟩ := mem_map.1 hc
      simp only [blockOf, length_take] at hi ⊢
      rw [List.getElem?_take_of_lt (by omega), List.getElem?_drop]
      rfl
  refine ⟨hfilled.ok, fun k hk => ?_, hcontent, ?_⟩
  · obtain ⟨hsome, hsome'⟩ := filled_blocks hsize'
      (fun b hb => hin b (horder.subset (take_subset k order hb))) hdown
    -- what is still to come is counted by the blocks that are left
    have hcount : ((order.take k).flatMap span).length + ((order.drop k).flatMap span).length =
        content.length := by
      rw [← length_append, ← flatMap_append, take_append_drop, hperm.length_eq,
        length_range]
    have hrest : ((order.drop k).flatMap span).length = 0 ↔ k = calls.length := by
      rw [length_eq_zero_iff, flatMap_eq_nil_iff]
      refine ⟨fun hnil => ?_, fun hk => by simp [hk, calls]⟩
      by_contra hne
      have hlt : k < order.length := by
        simp only [calls, length_map] at hk hne
        omega
      have hspan := hnil order[k] (mem_drop_iff_getElem.2 ⟨0, by simpa, rfl⟩)
      have hpos := (hsizes order[k] (horder.subset (getElem_mem hlt))).1
      rw [span, List.range'_eq_nil_iff] at hspan
      omega
    have hwrap : wrap ((order.take k).flatMap span).length =
        ((order.take k).flatMap span).length := by
      unfold maxAlloc at hmax
      exact Int.bmod_eq_of_le (by omega) (by omega)
    rw [← map_take, State.complete, hsome.length, hsome.downloaded, hsome', decide_eq_true_eq,
      Int.zero_add, hwrap, hsize', ← hrest]
    omega
  · rw [State.verify, hcontent, hfilled.hash, show s'.hash = sha1 content from hhash, if_pos rfl]

/-- A piece of two blocks. -/
theorem requested_blocks_two :
    ∃ s blocks s', new 0 (Vector.replicate 20 7) 20000 = some s ∧
      s.requestAll 20001 = some (blocks, s') ∧ (∀ b ∈ blocks, 1 ≤ b.2 ∧ b.2 ≤ 16384) ∧
      blocks.flatMap span = List.range 20000 ∧
      ∀ order : List (Nat × Nat), order.Perm blocks →
        Assembles (fun _ => Vector.replicate 20 7) (List.replicate 20000 7) s' order := by
  have h := @requested_blocks (List.replicate 20000 7) (fun _ => Vector.replicate 20 7) 0
  rw [List.length_replicate] at h
  exact h (by decide)

end Piece
