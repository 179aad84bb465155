import GoProtocols.Torrent.Proof.Decode

/-!
# Decoding undoes encoding

A Go map has no order, so two lists of entries can stand for one map. `Value.sorted` lists the
entries of every map in the order of their keys; two values are the `Same` if they are equal
then.

* `encode_eq_iff`: encodings are equal if and only if the values are the same.
-/

namespace Bencode

open Go Keyed Decimal List

/-! ## Sameness -/

mutual

/-- The value with the entries of every map in the order of their keys. -/
def Value.sorted : Value → Value
  | .list l => .list (sortedItems l)
  | .map m => .map (sortByKey (sortedEntries m))
  | .int64 n => .int64 n
  | .int n => .int n
  | .string s => .string s
  | .bytes s => .bytes s
  | .other t => .other t

def sortedItems : List Value → List Value
  | [] => []
  | v :: l => v.sorted :: sortedItems l

def sortedEntries : List (Bytes × Value) → List (Bytes × Value)
  | [] => []
  | (k, v) :: m => (k, v.sorted) :: sortedEntries m

end

variable (l : List Value)

def Same (v v' : Value) : Prop := v.sorted = v'.sorted

/-- A value that `Decode` can return: `int64`, `string`, `[]any` or `map[string]any` all through. A
map has one value for a key, and no Go string is longer than `maxAlloc`. -/
inductive Plain : Value → Prop
  | int64 (n : Int64) : Plain (.int64 n)
  | string {s : Bytes} : s.length ≤ maxAlloc → Plain (.string s)
  | list {l : List Value} : (∀ v ∈ l, Plain v) → Plain (.list l)
  | map {m : List (Bytes × Value)} : (keys m).Nodup → (∀ e ∈ m, e.1.length ≤ maxAlloc) →
      (∀ e ∈ m, Plain e.2) → Plain (.map m)

theorem sortedItems_eq : sortedItems l = l.map Value.sorted := by
  induction l with
  | nil => rfl
  | cons v l ih => rw [sortedItems, ih, map_cons]

variable (m : List (Bytes × Value)) {v : Value}

theorem sortedEntries_eq : sortedEntries m = mapVal Value.sorted m := by
  induction m with
  | nil => rfl
  | cons e m ih => rw [sortedEntries, ih, mapVal_cons]

theorem sorted_list : (Value.list l).sorted = .list (l.map Value.sorted) := by
  rw [Value.sorted, sortedItems_eq]

theorem sorted_map : (Value.map m).sorted = .map (mapVal Value.sorted (sortByKey m)) := by
  rw [Value.sorted, sortedEntries_eq, sortByKey_mapVal]

mutual

theorem sorted_sorted (v : Value) : v.sorted.sorted = v.sorted := by
  cases v with
  | list l => rw [Value.sorted, Value.sorted, sortedItems_sorted]
  | map m =>
    have h := sortedEntries_sorted m
    rw [sortedEntries_eq, sortedEntries_eq] at h
    rw [Value.sorted, sortedEntries_eq, sorted_map, ← sortByKey_mapVal, sortByKey_mapVal,
      sortByKey_sortByKey, ← sortByKey_mapVal, h]
  | _ => rfl

theorem sortedItems_sorted (l : List Value) : sortedItems (sortedItems l) = sortedItems l := by
  cases l with
  | nil => rfl
  | cons v l => rw [sortedItems, sortedItems, sorted_sorted v, sortedItems_sorted l]

theorem sortedEntries_sorted (m : List (Bytes × Value)) :
    sortedEntries (sortedEntries m) = sortedEntries m := by
  cases m with
  | nil => rfl
  | cons e m =>
    obtain ⟨k, v⟩ := e
    rw [sortedEntries, sortedEntries, sorted_sorted v, sortedEntries_sorted m]

end

/-! ## The encoder -/

theorem encodeItems_eq : encodeItems l = l.map encode := by
  induction l with
  | nil => rfl
  | cons v l ih => rw [encodeItems, ih, map_cons]

theorem encodeEntries_eq : encodeEntries m = mapVal encode m := by
  induction m with
  | nil => rfl
  | cons e m ih => rw [encodeEntries, ih, mapVal_cons]

def entryTexts : List (Except EncodeError Bytes) :=
  m.map fun e => (encode e.2).map (encodeString e.1 ++ ·)

theorem encode_list :
    encode (.list l) = (writeAll (l.map encode)).map fun s => 108 :: s ++ [101] := by
  rw [encode, encodeItems_eq]

theorem encode_map :
    encode (.map m) = (writeAll (entryTexts (sortByKey m))).map fun s => 100 :: s ++ [101] := by
  rw [encode, encodeEntries_eq, sortByKey_mapVal, entryTexts, mapVal, map_map]
  rfl

theorem writeAll_cons_ok {p : Except EncodeError Bytes} {ps : List (Except EncodeError Bytes)}
    {s t : Bytes} (hp : p = .ok s) (hps : writeAll ps = .ok t) :
    writeAll (p :: ps) = .ok (s ++ t) := by
  rw [hp, writeAll, hps]
  rfl

mutual

/-- **The encoder does not see the order of entries.** -/
theorem encode_sorted (v : Value) : encode v.sorted = encode v := by
  cases v with
  | list l => rw [Value.sorted, encode, encode, encodeItems_sorted]
  | map m =>
    have hsort : sortByKey (encodeEntries (sortByKey (sortedEntries m))) =
        sortByKey (encodeEntries m) := by
      rw [encodeEntries_eq, ← sortByKey_mapVal, sortByKey_sortByKey, ← encodeEntries_eq,
        encodeEntries_sorted m]
    rw [Value.sorted, encode, encode, hsort]
  | _ => rfl

theorem encodeItems_sorted (l : List Value) : encodeItems (sortedItems l) = encodeItems l := by
  cases l with
  | nil => rfl
  | cons v l => rw [sortedItems, encodeItems, encodeItems, encode_sorted v, encodeItems_sorted l]

theorem encodeEntries_sorted (m : List (Bytes × Value)) :
    encodeEntries (sortedEntries m) = encodeEntries m := by
  cases m with
  | nil => rfl
  | cons e m =>
    obtain ⟨k, v⟩ := e
    rw [sortedEntries, encodeEntries, encodeEntries, encode_sorted v, encodeEntries_sorted m]

end

/-! ## Encodings are spellings -/

theorem formatInt_ne_negZero (n : Int) : formatInt n ≠ lit "-0" := by
  have hlit : lit "-0" = 45 :: render 0 := by decide
  unfold formatInt
  split
  · intro h
    rw [hlit, List.cons.injEq] at h
    have := render_injective h.2
    omega
  · intro h
    have hd : IsDigit 45 := isDigits_render n.natAbs 45 (by rw [h, hlit]; simp)
    exact not_isDigit_sign.2 hd

theorem encodeString_spells {k : Bytes} (h : k.length ≤ maxAlloc) :
    SpellsString (encodeString k) k := by
  refine .mk (reads_formatInt ⟨by omega, ?_⟩) h
  unfold maxAlloc at h
  omega

theorem encodeString_head (k : Bytes) : ∃ b t, encodeString k = b :: t ∧ IsDigit b := by
  obtain ⟨b, t, ht⟩ := exists_cons_of_ne_nil (render_ne_nil k.length)
  refine ⟨b, t ++ 58 :: k, ?_, isDigits_render k.length b (by simp [ht])⟩
  rw [encodeString, itoa_eq_render, ht, cons_append]

theorem items_spell {l : List Value}
    (h : ∀ v ∈ l, ∃ w, encode v = .ok w ∧ Spells w v.sorted) :
    ∃ w, writeAll (l.map encode) = .ok w ∧ SpellsItems w (l.map Value.sorted) := by
  induction l with
  | nil => exact ⟨[], rfl, .nil⟩
  | cons v l ih =>
    obtain ⟨w, hw, hs⟩ := h v (by simp)
    obtain ⟨ws, hws, hss⟩ := ih (forall_mem_cons.1 h).2
    exact ⟨w ++ ws, writeAll_cons_ok hw hws, .cons hs hss⟩

variable {m}

theorem entries_spell (hk : ∀ e ∈ m, e.1.length ≤ maxAlloc)
    (h : ∀ e ∈ m, ∃ w, encode e.2 = .ok w ∧ Spells w e.2.sorted) :
    ∃ w, writeAll (entryTexts m) = .ok w ∧ SpellsEntries w (mapVal Value.sorted m) := by
  induction m with
  | nil => exact ⟨[], rfl, .nil⟩
  | cons e m ih =>
    obtain ⟨w, hw, hs⟩ := h e (by simp)
    obtain ⟨ws, hws, hss⟩ :=
      ih (forall_mem_cons.1 hk).2 (forall_mem_cons.1 h).2
    refine ⟨encodeString e.1 ++ w ++ ws, writeAll_cons_ok (by simp only [hw]; rfl) hws, ?_⟩
    rw [append_assoc]
    exact .cons (encodeString_spells (hk e (by simp))) hs hss

/-- **The encoding of a plain value spells it**, with its entries sorted. -/
theorem encode_spells (h : Plain v) : ∃ w, encode v = .ok w ∧ Spells w v.sorted := by
  induction h with
  | int64 n =>
    refine ⟨_, rfl, ?_⟩
    have hr : Reads (formatInt n.toInt) n.toInt := reads_formatInt ⟨n.le_toInt, n.toInt_lt⟩
    have hs := Spells.int hr (formatInt_ne_negZero _)
    rwa [Int64.ofInt_toInt] at hs
  | @string s hs =>
    obtain ⟨b, t, ht, hb⟩ := encodeString_head s
    refine ⟨b :: t, by rw [encode, ht], .string hb ?_⟩
    rw [← ht]
    exact encodeString_spells hs
  | @list l hl ih =>
    obtain ⟨w, hw, hs⟩ := items_spell ih
    refine ⟨108 :: w ++ [101], by rw [encode_list, hw]; rfl, ?_⟩
    rw [sorted_list]
    exact .list hs
  | @map m hn hk hm ih =>
    have hmem : ∀ e, e ∈ sortByKey m ↔ e ∈ m := fun e => (sortByKey_perm m).mem_iff
    obtain ⟨w, hw, hs⟩ := entries_spell (m := sortByKey m) (fun e he => hk e ((hmem e).1 he))
      fun e he => ih e ((hmem e).1 he)
    refine ⟨100 :: w ++ [101], by rw [encode_map, hw]; rfl, ?_⟩
    have hn' : (keys (mapVal Value.sorted (sortByKey m))).Nodup := by
      rw [keys_mapVal]
      exact (keys_perm (sortByKey_perm m)).nodup_iff.2 hn
    have hmap : mapOf (mapVal Value.sorted (sortByKey m)) = mapVal Value.sorted (sortByKey m) :=
      foldl_insertKey (m := []) (by simpa using hn')
    rw [sorted_map, ← hmap]
    exact .map hs

theorem encode_eq_iff {v' : Value} (h : Plain v) (h' : Plain v') :
    encode v = encode v' ↔ Same v v' := by
  refine ⟨fun he => ?_, fun hs => ?_⟩
  · obtain ⟨w, hw, hs⟩ := encode_spells h
    obtain ⟨w', hw', hs'⟩ := encode_spells h'
    rw [hw, hw', Except.ok.injEq] at he
    subst he
    exact (hs.unique hs' (rfl : w ++ [] = w ++ [])).2
  · rw [← encode_sorted v, hs, encode_sorted]

/-- **Decoding undoes encoding**: the decoder gives back the value and leaves what follows its
encoding, and two values have one encoding only if they are the same. -/
theorem decode_encode (h : Plain v) :
    (∀ rest, ∃ w u, encode v = .ok w ∧ (Decode (w ++ rest)).2 = .ok (u, rest) ∧ Same v u) ∧
      ∀ v', Plain v' → (encode v = encode v' ↔ Same v v') := by
  refine ⟨fun rest => ?_, fun v' h' => encode_eq_iff h h'⟩
  obtain ⟨w, hw, hs⟩ := encode_spells h
  exact ⟨w, v.sorted, hw, decode_iff.2 ⟨w, rfl, hs⟩, (sorted_sorted v).symm⟩

theorem decode_encode_unsorted :
    Plain (.map [(lit "b", .int64 7), (lit "a", .list [.string (lit "x")])]) ∧
      ∃ w u, encode (.map [(lit "b", .int64 7), (lit "a", .list [.string (lit "x")])]) = .ok w ∧
        (Decode (w ++ lit "rest")).2 = .ok (u, lit "rest") ∧
        Same (.map [(lit "b", .int64 7), (lit "a", .list [.string (lit "x")])]) u := by
  have hx : Plain (.list [.string (lit "x")]) :=
    .list (forall_mem_singleton.2 (.string (by decide)))
  have h : Plain (.map [(lit "b", .int64 7), (lit "a", .list [.string (lit "x")])]) :=
    .map (by decide) (by decide) (forall_mem_cons.2 ⟨.int64 7, forall_mem_singleton.2 hx⟩)
  exact ⟨h, (decode_encode h).1 (lit "rest")⟩

end Bencode
