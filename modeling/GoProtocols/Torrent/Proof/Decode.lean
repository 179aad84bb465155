import GoProtocols.Torrent.Grammar

/-!
# The decoder accepts exactly the grammar

* `decode_of_spells`: the decoder reads every complete value, whatever follows it.
* `spells_of_decode`: what it reads is a complete value.
* `decode_iff`: both, for `Decode`.
* `decode_fuel`: `Decode` gives its recursion enough fuel.
-/

namespace Bencode

open Go Keyed Decimal List

variable (fuel : Nat) (r : Bytes) {α β : Type} {x : Res α} {f : α → Bytes → Res β}
  (m : List (Bytes × Value)) {b : UInt8} {r' : Bytes} {v : Value} {e : DecodeError} {q : α × Bytes}

/-! ## Results -/

theorem Res.bind_ok {b : β} {r : Bytes} :
    (x.bind f).2 = .ok (b, r) ↔ ∃ a r', x.2 = .ok (a, r') ∧ (f a r').2 = .ok (b, r) := by
  obtain ⟨c, _ | ⟨a, r'⟩⟩ := x <;> simp [Res.bind]

theorem Res.map_ok {f : α → β} {b : β} {r : Bytes} :
    (x.map f).2 = .ok (b, r) ↔ ∃ a, x.2 = .ok (a, r) ∧ f a = b := by
  obtain ⟨c, _ | ⟨a, r'⟩⟩ := x <;> simp [Res.map, Res.bind, and_comm]

theorem Res.wrap_ok {f : DecodeError → DecodeError} : (x.wrap f).2 = .ok q ↔ x.2 = .ok q := by
  obtain ⟨c, (_ | _ | _) | q'⟩ := x <;> simp [Res.wrap]

theorem Res.error_ne_ok : (Res.error e : Res α).2 ≠ .ok q := by simp [Res.error]

/-! ## Strings and integers -/

theorem decodeString_of_spells {kw k : Bytes} (h : SpellsString kw k) (r : Bytes) :
    decodeString (kw ++ r) = ([⟨k.length, (k ++ r).length⟩], .ok (k, r)) := by
  obtain ⟨hr, hk⟩ := h
  have hread : readFull k.length (k ++ r) = .ok (k, r) := readFull_eq_ok.2 ⟨rfl, rfl⟩
  have hfit : ¬ ((k.length : Int) < 0 ∨ (maxAlloc : Int) < k.length) := by omega
  rw [decodeString, append_assoc, cons_append,
    readString_append (colon_notMem_of_reads hr)]
  simp only [dropLast_concat, atoi, parseInt_eq_ok.2 hr, if_neg hfit, Int.toNat_natCast, hread]

theorem spells_of_decodeString {r k : Bytes} (h : (decodeString r).2 = .ok (k, r')) :
    ∃ kw, r = kw ++ r' ∧ SpellsString kw k := by
  unfold decodeString at h
  split at h
  · exact absurd h Res.error_ne_ok
  · rename_i lenStr rest hread
    obtain ⟨len, hlen, rfl, rfl⟩ := readString_eq_some.1 hread
    rw [dropLast_concat] at h
    split at h
    · exact absurd h Res.error_ne_ok
    · rename_i n hn
      split at h
      · cases h
      · rename_i hfit
        split at h
        · cases h
        · rename_i buf r0 hfull
          cases h
          obtain ⟨hl, rfl⟩ := readFull_eq_ok.1 hfull
          have hn' : (k.length : Int) = n := by omega
          refine ⟨len ++ 58 :: k, by simp, .mk ?_ (by omega)⟩
          rw [hn']
          exact parseInt_eq_ok.1 hn

theorem decodeInt_of_reads {s : Bytes} {n : Int} (h : Reads s n) (hs : s ≠ lit "-0") (r : Bytes) :
    decodeInt (s ++ 101 :: r) = ([], .ok (Int64.ofInt n, r)) := by
  rw [decodeInt, readString_append (e_notMem_of_reads h)]
  simp only [dropLast_concat, if_neg hs, parseInt_eq_ok.2 h]

theorem reads_of_decodeInt {r : Bytes} {i : Int64} (h : (decodeInt r).2 = .ok (i, r')) :
    ∃ s n, r = s ++ 101 :: r' ∧ Reads s n ∧ s ≠ lit "-0" ∧ i = Int64.ofInt n := by
  unfold decodeInt at h
  split at h
  · exact absurd h Res.error_ne_ok
  · rename_i s0 rest hread
    obtain ⟨s, -, rfl, rfl⟩ := readString_eq_some.1 hread
    rw [dropLast_concat] at h
    split at h
    · exact absurd h Res.error_ne_ok
    · rename_i hs
      split at h
      · exact absurd h Res.error_ne_ok
      · rename_i n hn
        cases h
        exact ⟨s, n, rfl, parseInt_eq_ok.1 hn, hs, rfl⟩

/-! ## One step of the loops -/

theorem decodeList_end (list : List Value) (r : Bytes) :
    decodeList (fuel + 1) list (101 :: r) = ([], .ok (list, r)) := by simp [decodeList]

theorem decodeList_item (list : List Value) (hb : b ≠ 101) (r : Bytes) :
    decodeList (fuel + 1) list (b :: r) =
      (decode fuel (b :: r)).bind fun val r => decodeList fuel (list ++ [val]) r := by
  simp [decodeList, hb]

theorem decodeDict_end (r : Bytes) :
    decodeDict (fuel + 1) m (101 :: r) = ([], .ok (m, r)) := by simp [decodeDict]

theorem decodeDict_entry (hb : b ≠ 101) (r : Bytes) :
    decodeDict (fuel + 1) m (b :: r) =
      ((decodeString (b :: r)).wrap .dictKey).bind fun key r =>
        ((decode fuel r).wrap (.dictValue key)).bind fun val r =>
          decodeDict fuel (insertKey m key val) r := by
  simp [decodeDict, hb]

theorem decode_l :
    decode (fuel + 1) (108 :: r) = (decodeList fuel [] r).map .list := by simp [decode]

theorem decode_d :
    decode (fuel + 1) (100 :: r) = (decodeDict fuel [] r).map .map := by simp [decode]

theorem decode_digit (hb : IsDigit b) (r : Bytes) :
    decode (fuel + 1) (b :: r) = (decodeString (b :: r)).map .string := by
  have h1 : b ≠ 105 := by rintro rfl; revert hb; decide
  have h2 : b ≠ 108 := by rintro rfl; revert hb; decide
  have h3 : b ≠ 100 := by rintro rfl; revert hb; decide
  have hb' : 48 ≤ b ∧ b ≤ 57 := hb
  simp [decode, h1, h2, h3, hb']

/-! ## Completeness -/

mutual

/-- **The decoder reads every complete value**, whatever follows it. -/
theorem decode_of_spells {w : Bytes} {v : Value} (h : Spells w v) {fuel : Nat}
    (hf : 2 * w.length ≤ fuel) (r : Bytes) : (decode fuel (w ++ r)).2 = .ok (v, r) := by
  have hpos := h.length_pos
  obtain ⟨fuel, rfl⟩ : ∃ f, fuel = f + 1 := ⟨fuel - 1, by omega⟩
  cases h with
  | int hr hs =>
    simp only [append_assoc, cons_append, nil_append]
    simp only [decode, decodeInt_of_reads hr hs]
    rfl
  | string hb hk =>
    rw [cons_append, decode_digit _ hb, ← cons_append, decodeString_of_spells hk]
    rfl
  | list hl =>
    simp only [append_assoc, cons_append, nil_append]
    rw [decode_l, Res.map_ok]
    exact ⟨_, decodeList_of_spells hl (by simp at hf; omega) [] r, rfl⟩
  | map hm =>
    simp only [append_assoc, cons_append, nil_append]
    rw [decode_d, Res.map_ok]
    exact ⟨_, decodeDict_of_spells hm (by simp at hf; omega) [] r, rfl⟩

theorem decodeList_of_spells {w : Bytes} {l : List Value} (h : SpellsItems w l) {fuel : Nat}
    (hf : 2 * w.length < fuel) (list : List Value) (r : Bytes) :
    (decodeList fuel list (w ++ 101 :: r)).2 = .ok (list ++ l, r) := by
  obtain ⟨fuel, rfl⟩ : ∃ f, fuel = f + 1 := ⟨fuel - 1, by omega⟩
  cases h with
  | nil => simp [decodeList_end]
  | @cons w ws v l hv hl =>
    obtain ⟨b, t, rfl, hb⟩ := hv.head
    rw [append_assoc, cons_append, decodeList_item _ _ hb, Res.bind_ok,
      ← cons_append]
    refine ⟨v, ws ++ 101 :: r, decode_of_spells hv (by simp at hf ⊢; omega) _, ?_⟩
    rw [decodeList_of_spells hl (by simp at hf; omega) (list ++ [v]) r]
    simp

theorem decodeDict_of_spells {w : Bytes} {es : List (Bytes × Value)} (h : SpellsEntries w es)
    {fuel : Nat} (hf : 2 * w.length < fuel) (m : List (Bytes × Value)) (r : Bytes) :
    (decodeDict fuel m (w ++ 101 :: r)).2 =
      .ok (es.foldl (fun m e => insertKey m e.1 e.2) m, r) := by
  obtain ⟨fuel, rfl⟩ : ∃ f, fuel = f + 1 := ⟨fuel - 1, by omega⟩
  cases h with
  | nil => simp [decodeDict_end]
  | @cons kw k w ws v es hk hv he =>
    obtain ⟨b, t, rfl, hb⟩ := hk.head
    rw [append_assoc, cons_append, decodeDict_entry _ _ hb, Res.bind_ok,
      ← cons_append]
    refine ⟨k, w ++ (ws ++ 101 :: r), ?_, ?_⟩
    · rw [Res.wrap_ok, append_assoc w, decodeString_of_spells hk]
    · rw [Res.bind_ok]
      refine ⟨v, ws ++ 101 :: r, ?_, ?_⟩
      · rw [Res.wrap_ok]
        exact decode_of_spells hv (by simp at hf; omega) _
      · exact decodeDict_of_spells he (by simp at hf; omega) _ r

end

/-! ## Soundness -/

/-- The map the dictionary loop holds after the entries `es`. -/
abbrev storeAll (es : List (Bytes × Value)) : List (Bytes × Value) :=
  es.foldl (fun m e => insertKey m e.1 e.2) m

/-- One level of soundness: what `decode` and the two loops have read with a given fuel. -/
def SoundAt : Prop :=
  (∀ r v r', (decode fuel r).2 = .ok (v, r') → ∃ w, r = w ++ r' ∧ Spells w v) ∧
  (∀ list r l r', (decodeList fuel list r).2 = .ok (l, r') →
    ∃ w l', r = w ++ 101 :: r' ∧ SpellsItems w l' ∧ l = list ++ l') ∧
  (∀ m r m' r', (decodeDict fuel m r).2 = .ok (m', r') →
    ∃ w es, r = w ++ 101 :: r' ∧ SpellsEntries w es ∧ m' = storeAll m es)

theorem decode_sound_succ {fuel : Nat} (ih : SoundAt fuel) {r : Bytes}
    (h : (decode (fuel + 1) r).2 = .ok (v, r')) : ∃ w, r = w ++ r' ∧ Spells w v := by
  cases r with
  | nil => exact absurd h Res.error_ne_ok
  | cons b r =>
    unfold decode at h
    split at h
    · rename_i hb
      obtain ⟨i, hi, rfl⟩ := Res.map_ok.1 h
      obtain ⟨s, n, rfl, hr, hs, rfl⟩ := reads_of_decodeInt hi
      exact ⟨105 :: s ++ [101], by simp [hb], .int hr hs⟩
    split at h
    · rename_i hb
      obtain ⟨l, hl, rfl⟩ := Res.map_ok.1 h
      obtain ⟨w, l', rfl, hw, rfl⟩ := ih.2.1 _ _ _ _ hl
      exact ⟨108 :: w ++ [101], by simp [hb], .list hw⟩
    split at h
    · rename_i hb
      obtain ⟨m, hm, rfl⟩ := Res.map_ok.1 h
      obtain ⟨w, es, rfl, hw, rfl⟩ := ih.2.2 _ _ _ _ hm
      exact ⟨100 :: w ++ [101], by simp [hb], .map hw⟩
    split at h
    · rename_i hb
      obtain ⟨k, hk, rfl⟩ := Res.map_ok.1 h
      obtain ⟨kw, he, hkw⟩ := spells_of_decodeString hk
      obtain ⟨b', t, rfl, -⟩ := hkw.head
      cases he
      exact ⟨b :: t, rfl, .string hb hkw⟩
    · exact absurd h Res.error_ne_ok

theorem decodeList_sound_succ {fuel : Nat} (ih : SoundAt fuel) {list l : List Value} {r : Bytes}
    (h : (decodeList (fuel + 1) list r).2 = .ok (l, r')) :
    ∃ w l', r = w ++ 101 :: r' ∧ SpellsItems w l' ∧ l = list ++ l' := by
  cases r with
  | nil => exact absurd h Res.error_ne_ok
  | cons b r =>
    by_cases hb : b = 101
    · subst hb
      rw [decodeList_end] at h
      cases h
      exact ⟨[], [], rfl, .nil, by simp⟩
    · rw [decodeList_item _ _ hb] at h
      obtain ⟨v, r1, hv, hl⟩ := Res.bind_ok.1 h
      obtain ⟨w, hw, hsv⟩ := ih.1 _ _ _ hv
      obtain ⟨ws, l', rfl, hsl, rfl⟩ := ih.2.1 _ _ _ _ hl
      exact ⟨w ++ ws, v :: l', by simp [hw], .cons hsv hsl, by simp⟩

theorem decodeDict_sound_succ {fuel : Nat} (ih : SoundAt fuel) {m m' : List (Bytes × Value)}
    {r : Bytes} (h : (decodeDict (fuel + 1) m r).2 = .ok (m', r')) :
    ∃ w es, r = w ++ 101 :: r' ∧ SpellsEntries w es ∧ m' = storeAll m es := by
  cases r with
  | nil => exact absurd h Res.error_ne_ok
  | cons b r =>
    by_cases hb : b = 101
    · subst hb
      rw [decodeDict_end] at h
      cases h
      exact ⟨[], [], rfl, .nil, rfl⟩
    · rw [decodeDict_entry _ _ hb] at h
      obtain ⟨k, r1, hk, h1⟩ := Res.bind_ok.1 h
      obtain ⟨v, r2, hv, hm⟩ := Res.bind_ok.1 h1
      obtain ⟨kw, hkw, hsk⟩ := spells_of_decodeString (Res.wrap_ok.1 hk)
      obtain ⟨w, rfl, hsv⟩ := ih.1 _ _ _ (Res.wrap_ok.1 hv)
      obtain ⟨ws, es, rfl, hse, rfl⟩ := ih.2.2 _ _ _ _ hm
      exact ⟨kw ++ (w ++ ws), (k, v) :: es, by simp [hkw], .cons hsk hsv hse, rfl⟩

theorem soundAt : SoundAt fuel := by
  induction fuel with
  | zero =>
    refine ⟨?_, ?_, ?_⟩ <;> intros <;> rename_i h <;> cases h
  | succ fuel ih =>
    exact ⟨fun _ _ _ h => decode_sound_succ ih h, fun _ _ _ _ h => decodeList_sound_succ ih h,
      fun _ _ _ _ h => decodeDict_sound_succ ih h⟩

/-- **What the decoder reads is a complete value.** -/
theorem spells_of_decode {fuel : Nat} {r : Bytes} (h : (decode fuel r).2 = .ok (v, r')) :
    ∃ w, r = w ++ r' ∧ Spells w v :=
  (soundAt fuel).1 r v r' h

/-- **`Decode` succeeds on exactly the inputs that start with a complete value**, and leaves what
follows it. -/
theorem decode_iff {r : Bytes} : (Decode r).2 = .ok (v, r') ↔ ∃ w, r = w ++ r' ∧ Spells w v := by
  refine ⟨spells_of_decode, fun h => ?_⟩
  obtain ⟨w, rfl, hw⟩ := h
  exact decode_of_spells hw (by simp; omega) r'

theorem Spells.unique {w w' r : Bytes} {v' : Value} (h : Spells w v) (h' : Spells w' v')
    (he : w ++ r = w' ++ r') : w = w' ∧ v = v' := by
  have h1 : (Decode (w ++ r)).2 = .ok (v, r) := decode_iff.2 ⟨w, rfl, h⟩
  have h2 : (Decode (w' ++ r')).2 = .ok (v', r') := decode_iff.2 ⟨w', rfl, h'⟩
  rw [he, h2] at h1
  cases h1
  exact ⟨append_cancel_right he, rfl⟩

/-! ## Fuel -/

theorem Res.bind_ne_fuel (hx : x.2 ≠ .error .fuel)
    (hf : ∀ a r, x.2 = .ok (a, r) → (f a r).2 ≠ .error .fuel) : (x.bind f).2 ≠ .error .fuel := by
  obtain ⟨c, e | ⟨a, r⟩⟩ := x
  · simpa [Res.bind] using hx
  · exact hf a r rfl

theorem Res.map_ne_fuel {f : α → β} (hx : x.2 ≠ .error .fuel) : (x.map f).2 ≠ .error .fuel :=
  Res.bind_ne_fuel hx fun a r _ h => by cases h

theorem Res.wrap_ne_fuel {f : DecodeError → DecodeError} (hx : x.2 ≠ .error .fuel) :
    (x.wrap f).2 ≠ .error .fuel := by
  obtain ⟨c, (_ | _ | _) | q⟩ := x <;> simp_all [Res.wrap]

theorem decodeString_ne_fuel : (decodeString r).2 ≠ .error .fuel := by
  unfold decodeString
  repeat' split
  all_goals exact fun h => by cases h

theorem decodeInt_ne_fuel : (decodeInt r).2 ≠ .error .fuel := by
  unfold decodeInt
  repeat' split
  all_goals exact fun h => by cases h

/-- Two units of fuel for every byte: a list of lists opens two calls with each byte it reads. -/
def FuelSuffices : Prop :=
  (∀ r : Bytes, 2 * r.length < fuel → (decode fuel r).2 ≠ .error .fuel) ∧
  (∀ list (r : Bytes), 2 * r.length + 1 < fuel → (decodeList fuel list r).2 ≠ .error .fuel) ∧
  (∀ m (r : Bytes), 2 * r.length + 1 < fuel → (decodeDict fuel m r).2 ≠ .error .fuel)

theorem decode_fuel_succ {fuel : Nat} (ih : FuelSuffices fuel) {r : Bytes}
    (h : 2 * r.length < fuel + 1) : (decode (fuel + 1) r).2 ≠ .error .fuel := by
  cases r with
  | nil => exact fun h => by cases h
  | cons b r =>
    simp only [length_cons] at h
    unfold decode
    repeat' split
    · exact Res.map_ne_fuel (decodeInt_ne_fuel r)
    · exact Res.map_ne_fuel (ih.2.1 _ r (by omega))
    · exact Res.map_ne_fuel (ih.2.2 _ r (by omega))
    · exact Res.map_ne_fuel (decodeString_ne_fuel _)
    · exact fun h => by cases h

theorem decodeList_fuel_succ {fuel : Nat} (ih : FuelSuffices fuel) (list : List Value) {r : Bytes}
    (h : 2 * r.length + 1 < fuel + 1) : (decodeList (fuel + 1) list r).2 ≠ .error .fuel := by
  cases r with
  | nil => exact fun h => by cases h
  | cons b r =>
    by_cases hb : b = 101
    · subst hb
      rw [decodeList_end]
      exact fun h => by cases h
    · rw [decodeList_item _ _ hb]
      refine Res.bind_ne_fuel (ih.1 _ (by omega)) fun v r1 hv => ih.2.1 _ _ ?_
      obtain ⟨w, hw, hs⟩ := spells_of_decode hv
      have hpos := hs.length_pos
      rw [hw, length_append] at h
      omega

theorem decodeDict_fuel_succ {fuel : Nat} (ih : FuelSuffices fuel) (m : List (Bytes × Value))
    {r : Bytes} (h : 2 * r.length + 1 < fuel + 1) :
    (decodeDict (fuel + 1) m r).2 ≠ .error .fuel := by
  cases r with
  | nil => exact fun h => by cases h
  | cons b r =>
    by_cases hb : b = 101
    · subst hb
      rw [decodeDict_end]
      exact fun h => by cases h
    · rw [decodeDict_entry _ _ hb]
      refine Res.bind_ne_fuel (Res.wrap_ne_fuel (decodeString_ne_fuel _)) fun k r1 hk => ?_
      obtain ⟨kw, hkw, hsk⟩ := spells_of_decodeString (Res.wrap_ok.1 hk)
      have hpos := hsk.length_pos
      rw [hkw, length_append] at h
      refine Res.bind_ne_fuel (Res.wrap_ne_fuel (ih.1 _ (by omega))) fun v r2 hv => ih.2.2 _ _ ?_
      obtain ⟨w, rfl, hsv⟩ := spells_of_decode (Res.wrap_ok.1 hv)
      rw [length_append] at h
      omega

theorem fuelSuffices : FuelSuffices fuel := by
  induction fuel with
  | zero => exact ⟨by omega, by omega, by omega⟩
  | succ fuel ih =>
    exact ⟨fun _ h => decode_fuel_succ ih h, fun l _ h => decodeList_fuel_succ ih l h,
      fun m _ h => decodeDict_fuel_succ ih m h⟩

/-- **`Decode` never runs out of fuel.** -/
theorem decode_fuel : (Decode r).2 ≠ .error .fuel :=
  (fuelSuffices _).1 r (by omega)

end Bencode
