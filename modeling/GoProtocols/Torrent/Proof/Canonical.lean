import GoProtocols.Torrent.Proof.RoundTrip

/-!
# Canonical input

The encoder writes the canonical form and nothing else; the decoder accepts more. An integer may
have leading zeros or a plus sign, and only `-0` itself is refused as a negative zero; the length of
a string may have leading zeros, and as a key's length also a sign; the keys of a dictionary may
come in any order and more than once.
-/

namespace Bencode

open Go Keyed Decimal List

/-! ## Numbers and strings -/

variable {es m : List (Bytes × Value)} {s : Bytes} {n : Int}

theorem Numeral.eq_render {ds : Bytes} {n : Nat} (h : Numeral ds n) : ds = render n := by
  rw [← h.value, render_value h.digits h.noZero]

theorem numeral_render (n : Nat) : Numeral (render n) n :=
  ⟨isDigits_render n, noLeadingZero_render n, value_render n⟩

theorem CanonicalInt.range (h : CanonicalInt s n) : -2 ^ 63 ≤ n ∧ n < 2 ^ 63 := by
  cases h <;> omega

theorem CanonicalInt.eq_formatInt (h : CanonicalInt s n) : s = formatInt n := by
  cases h with
  | nonneg hd _ =>
    rw [formatInt, if_neg (by omega), hd.eq_render]
    rfl
  | @neg ds n hd hpos _ =>
    rw [formatInt, if_pos (by omega), hd.eq_render]
    simp

theorem canonicalInt_formatInt (h : -2 ^ 63 ≤ n ∧ n < 2 ^ 63) : CanonicalInt (formatInt n) n := by
  unfold formatInt
  split
  · have := CanonicalInt.neg (numeral_render n.natAbs) (by omega) (by omega)
    rwa [show -(n.natAbs : Int) = n by omega] at this
  · have := CanonicalInt.nonneg (numeral_render n.natAbs) (by omega)
    rwa [show (n.natAbs : Int) = n by omega] at this

theorem CanonicalString.eq_encodeString {w k : Bytes} (h : CanonicalString w k) :
    w = encodeString k ∧ k.length ≤ maxAlloc := by
  obtain ⟨hl, hk⟩ := h
  refine ⟨?_, hk⟩
  rw [encodeString, itoa_eq_render, ← hl.eq_render]

theorem canonicalString_encodeString {k : Bytes} (h : k.length ≤ maxAlloc) :
    CanonicalString (encodeString k) k := by
  rw [encodeString, itoa_eq_render]
  exact .mk (numeral_render _) h

/-! ## Canonical texts are encodings -/

theorem items_of_canonical {ws : List Bytes} (h : ∀ w ∈ ws, ∃ u, Spells w u ∧ encode u = .ok w) :
    ∃ l, SpellsItems ws.flatten l ∧ writeAll (l.map encode) = .ok ws.flatten := by
  induction ws with
  | nil => exact ⟨[], .nil, rfl⟩
  | cons w ws ih =>
    obtain ⟨u, hs, he⟩ := h w (by simp)
    obtain ⟨l, hss, hes⟩ := ih (forall_mem_cons.1 h).2
    exact ⟨u :: l, .cons hs hss, writeAll_cons_ok he hes⟩

theorem entries_of_canonical {es : List RawEntry} (hk : ∀ e ∈ es, CanonicalString e.keyText e.key)
    (h : ∀ e ∈ es, ∃ u, Spells e.value u ∧ encode u = .ok e.value) :
    ∃ m : List (Bytes × Value), keys m = es.map RawEntry.key ∧
      (∀ e ∈ es, ∃ u, (e.key, u) ∈ m ∧ encode u = .ok e.value) ∧
      SpellsEntries (es.flatMap fun e => e.keyText ++ e.value) m ∧
      writeAll (entryTexts m) = .ok (es.flatMap fun e => e.keyText ++ e.value) := by
  induction es with
  | nil => exact ⟨[], rfl, by simp, .nil, rfl⟩
  | cons e es ih =>
    obtain ⟨u, hs, he⟩ := h e (by simp)
    obtain ⟨m, hm, hval, hss, hes⟩ :=
      ih (forall_mem_cons.1 hk).2 (forall_mem_cons.1 h).2
    obtain ⟨hkt, hkl⟩ := (hk e (by simp)).eq_encodeString
    refine ⟨(e.key, u) :: m, by simp [hm], fun e' he' => ?_, ?_, ?_⟩
    · rcases mem_cons.1 he' with rfl | he'
      · exact ⟨u, by simp, he⟩
      · obtain ⟨u', hu', hen⟩ := hval e' he'
        exact ⟨u', by simp [hu'], hen⟩
    · rw [flatMap_cons, append_assoc, hkt]
      exact .cons (encodeString_spells hkl) hs hss
    · rw [flatMap_cons]
      refine writeAll_cons_ok ?_ hes
      simp only [he, hkt]
      rfl

/-- **A canonical text spells a value whose encoding it is.** -/
theorem Canonical.spells {c : Bytes} (h : Canonical c) : ∃ u, Spells c u ∧ encode u = .ok c := by
  induction h with
  | @int s n hs =>
    have hn := hs.range
    rw [hs.eq_formatInt]
    refine ⟨_, .int (reads_formatInt hn) (formatInt_ne_negZero n), ?_⟩
    rw [encode, Int64.toInt_ofInt_of_le hn.1 hn.2]
  | @string w k hw =>
    obtain ⟨rfl, hk⟩ := hw.eq_encodeString
    refine ⟨.string k, ?_, rfl⟩
    obtain ⟨b, t, ht, hb⟩ := encodeString_head k
    rw [ht]
    exact .string hb (ht ▸ encodeString_spells hk)
  | @list ws hw ih =>
    obtain ⟨l, hs, he⟩ := items_of_canonical ih
    refine ⟨.list l, .list hs, ?_⟩
    rw [encode_list, he]
    rfl
  | @dict es hlt hk hv ih =>
    obtain ⟨m, hm, -, hs, he⟩ := entries_of_canonical hk ih
    have hlt' : (keys m).Pairwise (· < ·) := hm ▸ hlt
    have hmap : mapOf m = m := foldl_insertKey (m := []) (by simpa using nodup_of_lt hlt')
    refine ⟨.map m, hmap ▸ .map hs, ?_⟩
    rw [encode_map, sortByKey_of_keys_lt hlt', he]
    rfl

/-- Decoding a canonical dictionary gives, under each key, a value whose encoding is the text that
stood there. -/
theorem decode_dictText {es : List RawEntry} (hlt : (es.map RawEntry.key).Pairwise (· < ·))
    (hk : ∀ e ∈ es, CanonicalString e.keyText e.key) (hv : ∀ e ∈ es, Canonical e.value) :
    ∃ m, (Decode (dictText es)).2 = .ok (.map m, []) ∧
      ∀ e ∈ es, ∃ u, m.lookup e.key = some u ∧ encode u = .ok e.value := by
  obtain ⟨m, hm, hval, hs, -⟩ := entries_of_canonical hk fun e he => (hv e he).spells
  have hn : (keys m).Nodup := nodup_of_lt (hm ▸ hlt)
  have hmap : mapOf m = m := foldl_insertKey (m := []) (by simpa using hn)
  refine ⟨m, decode_iff.2 ⟨dictText es, by simp, hmap ▸ .map hs⟩, fun e he => ?_⟩
  obtain ⟨u, hu, hen⟩ := hval e he
  exact ⟨u, lookup_of_mem hn hu, hen⟩

/-! ## Encodings are canonical -/

theorem items_canonical {l : List Value} (h : ∀ v ∈ l, ∃ w, encode v = .ok w ∧ Canonical w) :
    ∃ ws : List Bytes, writeAll (l.map encode) = .ok ws.flatten ∧ ∀ w ∈ ws, Canonical w := by
  induction l with
  | nil => exact ⟨[], rfl, by simp⟩
  | cons v l ih =>
    obtain ⟨w, hw, hc⟩ := h v (by simp)
    obtain ⟨ws, hws, hcs⟩ := ih (forall_mem_cons.1 h).2
    exact ⟨w :: ws, writeAll_cons_ok hw hws, by simpa using ⟨hc, hcs⟩⟩

theorem entries_canonical (hk : ∀ e ∈ m, e.1.length ≤ maxAlloc)
    (h : ∀ e ∈ m, ∃ w, encode e.2 = .ok w ∧ Canonical w) :
    ∃ es : List RawEntry, es.map RawEntry.key = keys m ∧
      writeAll (entryTexts m) = .ok (es.flatMap fun e => e.keyText ++ e.value) ∧
      (∀ e ∈ es, CanonicalString e.keyText e.key) ∧ ∀ e ∈ es, Canonical e.value := by
  induction m with
  | nil => exact ⟨[], rfl, rfl, by simp, by simp⟩
  | cons e m ih =>
    obtain ⟨w, hw, hc⟩ := h e (by simp)
    obtain ⟨es, hes, ht, hks, hcs⟩ :=
      ih (forall_mem_cons.1 hk).2 (forall_mem_cons.1 h).2
    have hkc : CanonicalString (encodeString e.1) e.1 :=
      canonicalString_encodeString (hk e (by simp))
    refine ⟨⟨encodeString e.1, e.1, w⟩ :: es, by simp [hes], ?_, ?_, ?_⟩
    · rw [flatMap_cons]
      exact writeAll_cons_ok (by simp only [hw]; rfl) ht
    · simpa using ⟨hkc, hks⟩
    · simpa using ⟨hc, hcs⟩

/-- **What the encoder writes for a plain value is canonical.** -/
theorem encode_canonical {v : Value} (h : Plain v) : ∃ w, encode v = .ok w ∧ Canonical w := by
  induction h with
  | int64 n => exact ⟨_, rfl, .int (canonicalInt_formatInt ⟨n.le_toInt, n.toInt_lt⟩)⟩
  | string hs => exact ⟨_, rfl, .string (canonicalString_encodeString hs)⟩
  | list _ ih =>
    obtain ⟨ws, hw, hc⟩ := items_canonical ih
    exact ⟨_, by rw [encode_list, hw]; rfl, .list hc⟩
  | @map m hn hk _ ih =>
    have hmem : ∀ e, e ∈ sortByKey m ↔ e ∈ m := fun e => (sortByKey_perm m).mem_iff
    obtain ⟨es, hes, ht, hks, hcs⟩ := entries_canonical (m := sortByKey m)
      (fun e he => hk e ((hmem e).1 he)) fun e he => ih e ((hmem e).1 he)
    refine ⟨dictText es, by rw [encode_map, ht]; rfl, .dict ?_ hks hcs⟩
    rw [hes]
    exact keys_sortByKey_lt hn

/-! ## Decoded values are plain -/

theorem mem_storeAll {e : Bytes × Value} (h : e ∈ storeAll m es) : e ∈ m ∨ e ∈ es := by
  induction es generalizing m with
  | nil => exact .inl h
  | cons e' es ih =>
    rcases ih h with h | h
    · rcases mem_insertKey h with h | h
      · exact .inl h
      · exact .inr (by simp [h])
    · exact .inr (by simp [h])

theorem nodup_storeAll (h : (keys m).Nodup) : (keys (storeAll m es)).Nodup := by
  induction es generalizing m with
  | nil => exact h
  | cons e es ih => exact ih (nodup_insertKey h _ _)

mutual

theorem Spells.plain {w : Bytes} {v : Value} (h : Spells w v) : Plain v := by
  cases h with
  | int => exact .int64 _
  | string _ hk => exact .string hk.length_le
  | list hl => exact .list hl.plain
  | map hm =>
    refine .map (nodup_storeAll (by simp)) (fun e he => ?_) fun e he => ?_
    · exact (hm.plain e ((mem_storeAll he).resolve_left (by simp))).1
    · exact (hm.plain e ((mem_storeAll he).resolve_left (by simp))).2
termination_by 2 * w.length
decreasing_by
  all_goals
    simp only [length_append, length_cons]
    omega

theorem SpellsItems.plain {w : Bytes} {l : List Value} (h : SpellsItems w l) :
    ∀ v ∈ l, Plain v := by
  cases h with
  | nil => simp
  | cons hv hl =>
    have hpos := hv.length_pos
    exact forall_mem_cons.2 ⟨hv.plain, hl.plain⟩
termination_by 2 * w.length + 1
decreasing_by
  all_goals
    simp only [length_append]
    omega

theorem SpellsEntries.plain {w : Bytes} {es : List (Bytes × Value)} (h : SpellsEntries w es) :
    ∀ e ∈ es, e.1.length ≤ maxAlloc ∧ Plain e.2 := by
  cases h with
  | nil => simp
  | cons hk hv he =>
    have hpos := hk.length_pos
    exact forall_mem_cons.2 ⟨⟨hk.length_le, hv.plain⟩, he.plain⟩
termination_by 2 * w.length + 1
decreasing_by
  all_goals
    simp only [length_append]
    omega

end

/-! ## Canonicity -/

/-- **Decoded input is what the encoder writes if and only if it is canonical**: the bytes that
`Decode` consumed are the encoding of the value it returned exactly when the input starts with a
canonical text. -/
theorem decode_canonical_iff {r r' : Bytes} {v : Value} (h : (Decode r).2 = .ok (v, r')) :
    (∃ w, encode v = .ok w ∧ r = w ++ r') ↔ ∃ c, Canonical c ∧ c <+: r := by
  obtain ⟨w, rfl, hs⟩ := decode_iff.1 h
  refine ⟨fun he => ?_, fun hc => ?_⟩
  · obtain ⟨w', hw', he⟩ := he
    obtain ⟨w'', hw'', hc⟩ := encode_canonical hs.plain
    rw [hw', Except.ok.injEq] at hw''
    subst hw''
    exact ⟨w', hc, he ▸ prefix_append _ _⟩
  · obtain ⟨c, hc, t, ht⟩ := hc
    obtain ⟨u, hu, he⟩ := hc.spells
    obtain ⟨rfl, rfl⟩ := hu.unique hs ht
    exact ⟨c, he, rfl⟩

theorem decode_canonical_iff_seven :
    (Decode (lit "i7ex")).2 = .ok (.int64 7, lit "x") ∧
      ((∃ w, encode (.int64 7) = .ok w ∧ lit "i7ex" = w ++ lit "x") ↔
        ∃ c, Canonical c ∧ c <+: lit "i7ex") :=
  ⟨by rfl, decode_canonical_iff (by rfl)⟩

/-- A dictionary with its keys in the wrong order is decoded, and encoded in the right one. -/
theorem decode_unsorted_keys :
    ∃ v w, (Decode (lit "d1:bi1e1:ai2ee")).2 = .ok (v, []) ∧ encode v = .ok w ∧
      w ≠ lit "d1:bi1e1:ai2ee" :=
  ⟨.map [(lit "b", .int64 1), (lit "a", .int64 2)], lit "d1:ai2e1:bi1ee", by rfl, by rfl,
    by decide⟩

end Bencode
