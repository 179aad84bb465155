import GoProtocols.Torrent.Proof.Decode

/-!
# When decoding is safe

`decodeString` hands every length it reads to `make` before it looks at the bytes that follow, and
`decodeDict` calls it without the check for a leading digit that `decode` makes. So a length can be
negative (`d-1:`) or longer than the input.

* `decode_panic_iff`: `Decode` panics when one of them is negative or beyond what Go allocates.
-/

namespace Bencode

open Go Keyed Decimal List

variable {α : Type} {x : Res α} {f : DecodeError → DecodeError} {c : MakeCall} (r s : Bytes)
  {β : Type}

/-- `make` panics on this call. -/
def MakeCall.Panics (c : MakeCall) : Prop := c.n < 0 ∨ (maxAlloc : Int) < c.n

/-- The decoder is safe on `r`: no call of `make` is negative or asks for more than the bytes
left, and it ends with a value and at least one byte consumed, or with an error. -/
structure Safe (r : Bytes) : Prop where
  lengths : ∀ c ∈ (Decode r).1, 0 ≤ c.n ∧ c.n ≤ c.left
  result : (∃ v w r', (Decode r).2 = .ok (v, r') ∧ r = w ++ r' ∧ w ≠ []) ∨
    ∃ e, (Decode r).2 = .error (.error e)

/-! ## Panics -/

/-- The function panicked if and only if one of its calls of `make` does. -/
def Res.PanicsByMake {α : Type} (x : Res α) : Prop :=
  x.2 = .error .panic ↔ ∃ c ∈ x.1, c.Panics

theorem Res.PanicsByMake.bind {α β : Type} {x : Res α} {f : α → Bytes → Res β}
    (hx : x.PanicsByMake) (hf : ∀ a r, (f a r).PanicsByMake) : (x.bind f).PanicsByMake := by
  obtain ⟨calls, e | ⟨a, r⟩⟩ := x
  · simpa [Res.PanicsByMake, Res.bind] using hx
  · -- no call of `x` panics, for `x` gave a value
    have hno : ¬ ∃ c ∈ calls, c.Panics := fun h => by cases hx.2 h
    have hfr := hf a r
    unfold Res.PanicsByMake at hfr ⊢
    simp only [Res.bind, mem_append, or_and_right, exists_or, hno, false_or]
    exact hfr

theorem Res.PanicsByMake.map {f : α → β} (hx : x.PanicsByMake) : (x.map f).PanicsByMake :=
  hx.bind fun a r => by simp [Res.PanicsByMake]

theorem Res.PanicsByMake.wrap {α : Type} {x : Res α} {f : DecodeError → DecodeError}
    (hx : x.PanicsByMake) : (x.wrap f).PanicsByMake := by
  obtain ⟨c, (_ | _ | _) | q⟩ := x <;> simpa [Res.PanicsByMake, Res.wrap] using hx

theorem Res.PanicsByMake.error {α : Type} (e : DecodeError) :
    (Res.error e : Res α).PanicsByMake := by
  simp [Res.PanicsByMake, Res.error]

theorem decodeString_panicsByMake : (decodeString r).PanicsByMake := by
  unfold decodeString
  split
  · exact .error _
  · split
    · exact .error _
    · split
      · rename_i hp
        simp [Res.PanicsByMake, MakeCall.Panics, hp]
      · rename_i hp
        split <;> simp [Res.PanicsByMake, MakeCall.Panics, hp]

theorem decodeInt_panicsByMake : (decodeInt r).PanicsByMake := by
  unfold decodeInt
  repeat' split
  all_goals simp [Res.PanicsByMake, Res.error]

theorem panicsByMake (fuel : Nat) :
    (∀ r, (decode fuel r).PanicsByMake) ∧ (∀ list r, (decodeList fuel list r).PanicsByMake) ∧
      ∀ m r, (decodeDict fuel m r).PanicsByMake := by
  induction fuel with
  | zero =>
    simp [decode, decodeList, decodeDict, Res.PanicsByMake]
  | succ fuel ih =>
    obtain ⟨ihv, ihl, ihd⟩ := ih
    refine ⟨fun r => ?_, fun list r => ?_, fun m r => ?_⟩
    · cases r with
      | nil => exact .error _
      | cons b r =>
        unfold decode
        repeat' split
        · exact (decodeInt_panicsByMake r).map
        · exact (ihl _ r).map
        · exact (ihd _ r).map
        · exact (decodeString_panicsByMake _).map
        · exact .error _
    · cases r with
      | nil => exact .error _
      | cons b r =>
        unfold decodeList
        split
        · simp [Res.PanicsByMake]
        · exact (ihv _).bind fun _ _ => ihl _ _
    · cases r with
      | nil => exact .error _
      | cons b r =>
        unfold decodeDict
        split
        · simp [Res.PanicsByMake]
        · exact (decodeString_panicsByMake _).wrap.bind fun _ _ =>
            (ihv _).wrap.bind fun _ _ => ihd _ _

theorem decode_panic_iff : (Decode r).2 = .error .panic ↔ ∃ c ∈ (Decode r).1, c.Panics :=
  (panicsByMake _).1 r

/-! ## The calls are lengths of the input -/

/-- The call `c` reads its length at a place that satisfies `P`. -/
def Called (P : Bytes → Prop) (c : MakeCall) : Prop :=
  ∃ len t, P (len ++ 58 :: t) ∧ Reads len c.n ∧ c.left = t.length

theorem Called.imp {P Q : Bytes → Prop} (h : Called P c) (hpq : ∀ s, P s → Q s) : Called Q c := by
  obtain ⟨len, t, hp, hr, hl⟩ := h
  exact ⟨len, t, hpq _ hp, hr, hl⟩

theorem mem_decodeString {r : Bytes} : c ∈ (decodeString r).1 ↔ Called (r = ·) c := by
  refine ⟨fun h => ?_, fun h => ?_⟩
  · unfold decodeString at h
    split at h
    · cases h
    · rename_i lenStr rest hread
      obtain ⟨len, hlen, rfl, rfl⟩ := readString_eq_some.1 hread
      rw [dropLast_concat] at h
      split at h
      · cases h
      · rename_i n hn
        refine ⟨len, rest, rfl, ?_⟩
        have hc : c = ⟨n, rest.length⟩ := by
          split at h
          · simpa using h
          · split at h <;> simpa using h
        rw [hc]
        exact ⟨parseInt_eq_ok.1 hn, rfl⟩
  · obtain ⟨len, t, rfl, hr, hl⟩ := h
    obtain ⟨n, left⟩ := c
    simp only at hr hl
    subst hl
    rw [decodeString, readString_append (colon_notMem_of_reads hr)]
    simp only [dropLast_concat, atoi, parseInt_eq_ok.2 hr]
    split
    · simp
    · split <;> simp

theorem Res.mem_bind {f : α → Bytes → Res β} :
    c ∈ (x.bind f).1 ↔ c ∈ x.1 ∨ ∃ a r, x.2 = .ok (a, r) ∧ c ∈ (f a r).1 := by
  obtain ⟨calls, e | ⟨a, r⟩⟩ := x <;> simp [Res.bind]

theorem Res.mem_map {f : α → β} : c ∈ (x.map f).1 ↔ c ∈ x.1 := by
  simp [Res.map, Res.mem_bind]

theorem Res.mem_wrap : c ∈ (x.wrap f).1 ↔ c ∈ x.1 := by
  obtain ⟨calls, (_ | _ | _) | q⟩ := x <;> simp [Res.wrap]

/-- A string has to start at `s`, among the elements of a list. -/
def ItemAt : Prop := StringAt (108 :: r) s

/-- A string has to start at `s`, among the entries of a dictionary. -/
def EntryAt : Prop := StringAt (100 :: r) s

theorem not_isDigit_l_d : ¬ IsDigit 108 ∧ ¬ IsDigit 100 := by decide

theorem ItemAt.next {w r s : Bytes} {v : Value} (hv : Spells w v) (h : ItemAt r s) :
    ItemAt (w ++ r) s := by
  cases h with
  | here hd => exact absurd hd not_isDigit_l_d.1
  | @item ws r1 _ l hl hs =>
    have := StringAt.item (.cons hv hl) hs
    rwa [append_assoc] at this

theorem EntryAt.next {kw k w r s : Bytes} {v : Value} (hk : SpellsString kw k) (hv : Spells w v)
    (h : EntryAt r s) : EntryAt (kw ++ (w ++ r)) s := by
  cases h with
  | here hd => exact absurd hd not_isDigit_l_d.2
  | @key ws r1 b es he hb =>
    have := StringAt.key (.cons hk hv he) hb (r := r1)
    rwa [append_assoc, append_assoc] at this
  | @value ws kw1 k1 r1 _ es he hk1 hs =>
    have := StringAt.value (.cons hk hv he) hk1 hs
    rwa [append_assoc, append_assoc] at this

theorem called_of_mem (fuel : Nat) :
    (∀ r, ∀ c ∈ (decode fuel r).1, Called (StringAt r) c) ∧
    (∀ list r, ∀ c ∈ (decodeList fuel list r).1, Called (ItemAt r) c) ∧
    ∀ m r, ∀ c ∈ (decodeDict fuel m r).1, Called (EntryAt r) c := by
  induction fuel with
  | zero => simp [decode, decodeList, decodeDict]
  | succ fuel ih =>
    obtain ⟨ihv, ihl, ihd⟩ := ih
    refine ⟨fun r c hc => ?_, fun list r c hc => ?_, fun m r c hc => ?_⟩
    · cases r with
      | nil => cases hc
      | cons b r =>
        unfold decode at hc
        split at hc
        · rw [Res.mem_map] at hc
          unfold decodeInt at hc
          repeat' split at hc
          all_goals cases hc
        split at hc
        · rename_i hb
          subst hb
          exact ihl _ r c (Res.mem_map.1 hc)
        split at hc
        · rename_i hb
          subst hb
          exact ihd _ r c (Res.mem_map.1 hc)
        split at hc
        · rename_i hb
          refine (mem_decodeString.1 (Res.mem_map.1 hc)).imp fun s hs => ?_
          subst hs
          exact .here hb
        · cases hc
    · cases r with
      | nil => cases hc
      | cons b r =>
        by_cases hb : b = 101
        · subst hb
          rw [decodeList_end] at hc
          cases hc
        · rw [decodeList_item _ _ hb] at hc
          rcases Res.mem_bind.1 hc with hc | ⟨v, r1, hv, hc⟩
          · exact (ihv _ c hc).imp fun s hs => StringAt.item .nil hs
          · obtain ⟨w, hw, hsv⟩ := spells_of_decode hv
            rw [hw]
            exact (ihl _ _ c hc).imp fun s hs => ItemAt.next hsv hs
    · cases r with
      | nil => cases hc
      | cons b r =>
        by_cases hb : b = 101
        · subst hb
          rw [decodeDict_end] at hc
          cases hc
        · rw [decodeDict_entry _ _ hb] at hc
          rcases Res.mem_bind.1 hc with hc | ⟨k, r1, hk, hc⟩
          · refine (mem_decodeString.1 (Res.mem_wrap.1 hc)).imp fun s hs => ?_
            subst hs
            exact StringAt.key .nil hb
          · obtain ⟨kw, hkw, hsk⟩ := spells_of_decodeString (Res.wrap_ok.1 hk)
            rw [hkw]
            rcases Res.mem_bind.1 hc with hc1 | ⟨v, r2, hv, hc2⟩
            · exact (ihv _ c (Res.mem_wrap.1 hc1)).imp fun s hs => StringAt.value .nil hsk hs
            · obtain ⟨w, rfl, hsv⟩ := spells_of_decode (Res.wrap_ok.1 hv)
              exact (ihd _ _ c hc2).imp fun s hs => EntryAt.next hsk hsv hs

/-! ## Every length of the input is a call -/

/-- The list loop reaches what follows complete elements, with at least the fuel they leave. -/
theorem decodeList_skip {w : Bytes} {l : List Value} (h : SpellsItems w l) {fuel : Nat}
    (hf : 2 * w.length < fuel) (list : List Value) (r : Bytes) :
    ∃ fuel' list', fuel ≤ fuel' + 2 * w.length ∧
      (decodeList fuel' list' r).1 ⊆ (decodeList fuel list (w ++ r)).1 := by
  cases h with
  | nil => exact ⟨fuel, list, by omega, List.Subset.refl _⟩
  | @cons w ws v l hv hl =>
    obtain _ | fuel := fuel
    · omega
    have hpos := hv.length_pos
    rw [length_append] at hf ⊢
    have hf1 : 2 * ws.length < fuel := by omega
    obtain ⟨fuel', list', hf', hsub⟩ := decodeList_skip hl hf1 (list ++ [v]) r
    refine ⟨fuel', list', by omega, fun c hc => ?_⟩
    obtain ⟨b, t, rfl, hb⟩ := hv.head
    rw [append_assoc, cons_append, decodeList_item _ _ hb, ← cons_append]
    exact Res.mem_bind.2 (.inr ⟨v, _, decode_of_spells hv (by omega) _, hsub hc⟩)

/-- The dictionary loop reaches what follows complete entries, with at least the fuel they
leave. -/
theorem decodeDict_skip {w : Bytes} {es : List (Bytes × Value)} (h : SpellsEntries w es)
    {fuel : Nat} (hf : 2 * w.length < fuel) (m : List (Bytes × Value)) (r : Bytes) :
    ∃ fuel' m', fuel ≤ fuel' + 2 * w.length ∧
      (decodeDict fuel' m' r).1 ⊆ (decodeDict fuel m (w ++ r)).1 := by
  cases h with
  | nil => exact ⟨fuel, m, by omega, List.Subset.refl _⟩
  | @cons kw k w ws v es hk hv he =>
    obtain _ | fuel := fuel
    · omega
    have hpos := hk.length_pos
    rw [length_append, length_append] at hf ⊢
    have hf1 : 2 * ws.length < fuel := by omega
    obtain ⟨fuel', m', hf', hsub⟩ := decodeDict_skip he hf1 (insertKey m k v) r
    refine ⟨fuel', m', by omega, fun c hc => ?_⟩
    obtain ⟨b, t, rfl, hb⟩ := hk.head
    rw [append_assoc, cons_append, decodeDict_entry _ _ hb, ← cons_append,
      append_assoc w]
    refine Res.mem_bind.2 (.inr ⟨k, w ++ (ws ++ r), ?_, ?_⟩)
    · rw [Res.wrap_ok, decodeString_of_spells hk]
    · refine Res.mem_bind.2 (.inr ⟨v, ws ++ r, ?_, hsub hc⟩)
      rw [Res.wrap_ok]
      exact decode_of_spells hv (by omega) _

theorem StringAt.head {r s : Bytes} (h : StringAt r s) : ∃ b t, r = b :: t ∧ b ≠ 101 := by
  cases h with
  | here hb =>
    refine ⟨_, _, rfl, fun he => ?_⟩
    subst he
    revert hb
    decide
  | item | key | value => exact ⟨_, _, rfl, by decide⟩

theorem mem_of_stringAt {r s : Bytes} (h : StringAt r s) {fuel : Nat} (hf : 2 * r.length < fuel)
    (hc : Called (s = ·) c) : c ∈ (decode fuel r).1 := by
  induction h generalizing fuel with
  | here hb =>
    obtain _ | fuel := fuel
    · omega
    rw [decode_digit _ hb]
    exact Res.mem_map.2 (mem_decodeString.2 hc)
  | @item w r s l hl hs ih =>
    obtain _ | fuel := fuel
    · omega
    rw [length_cons, length_append] at hf
    have hf1 : 2 * w.length < fuel := by omega
    obtain ⟨fuel', list', hf', hsub⟩ := decodeList_skip hl hf1 [] r
    obtain _ | fuel' := fuel'
    · omega
    obtain ⟨b, t, rfl, hb⟩ := hs.head
    rw [decode_l]
    refine Res.mem_map.2 (hsub ?_)
    rw [decodeList_item _ _ hb]
    exact Res.mem_bind.2 (.inl (ih (by omega) hc))
  | @key w r b es he hb =>
    obtain _ | fuel := fuel
    · omega
    rw [length_cons, length_append] at hf
    have hf1 : 2 * w.length < fuel := by omega
    obtain ⟨fuel', m', hf', hsub⟩ := decodeDict_skip he hf1 [] (b :: r)
    obtain _ | fuel' := fuel'
    · omega
    rw [decode_d]
    refine Res.mem_map.2 (hsub ?_)
    rw [decodeDict_entry _ _ hb]
    exact Res.mem_bind.2 (.inl (Res.mem_wrap.2 (mem_decodeString.2 hc)))
  | @value w kw k r s es he hk hs ih =>
    obtain _ | fuel := fuel
    · omega
    rw [length_cons, length_append, length_append] at hf
    have hf1 : 2 * w.length < fuel := by omega
    obtain ⟨fuel', m', hf', hsub⟩ := decodeDict_skip he hf1 [] (kw ++ r)
    obtain _ | fuel' := fuel'
    · omega
    have hpos := hk.length_pos
    obtain ⟨b, t, rfl, hb⟩ := hk.head
    rw [decode_d]
    refine Res.mem_map.2 (hsub ?_)
    rw [cons_append, decodeDict_entry _ _ hb, ← cons_append]
    refine Res.mem_bind.2 (.inr ⟨k, r, ?_, Res.mem_bind.2 (.inl (Res.mem_wrap.2 ?_))⟩)
    · rw [Res.wrap_ok, decodeString_of_spells hk]
    · exact ih (by omega) hc

/-- **The calls of `make` are the lengths read in the input**, each with the bytes left after its
colon. -/
theorem mem_calls_iff {r : Bytes} :
    c ∈ (Decode r).1 ↔ ∃ t, LengthAt r c.n t ∧ c.left = t.length := by
  refine ⟨fun h => ?_, fun h => ?_⟩
  · obtain ⟨len, t, hs, hr, hl⟩ := (called_of_mem _).1 r c h
    exact ⟨t, ⟨len, hs, hr⟩, hl⟩
  · obtain ⟨t, ⟨len, hs, hr⟩, hl⟩ := h
    exact mem_of_stringAt hs (by omega) ⟨len, t, rfl, hr, hl⟩

/-! ## Safety -/

/-- **Decoding is safe if and only if the lengths of the input fit.** -/
theorem decode_safe_iff : Safe r ↔ LengthsFit r := by
  refine ⟨fun h n t hn => ?_, fun h => ⟨fun c hc => ?_, ?_⟩⟩
  · have hc : (⟨n, t.length⟩ : MakeCall) ∈ (Decode r).1 := mem_calls_iff.2 ⟨t, hn, rfl⟩
    obtain ⟨h0, hle⟩ := h.lengths _ hc
    refine ⟨h0, hle, ?_⟩
    by_contra hbig
    have hp : (Decode r).2 = .error .panic :=
      (decode_panic_iff r).2 ⟨_, hc, .inr (by simpa using hbig)⟩
    obtain ⟨v, w, r', hok, -⟩ | ⟨e, he⟩ := h.result
    · rw [hp] at hok
      cases hok
    · rw [hp] at he
      cases he
  · obtain ⟨t, ht, hl⟩ := mem_calls_iff.1 hc
    obtain ⟨h0, hle, -⟩ := h _ _ ht
    exact ⟨h0, hl ▸ hle⟩
  · cases hd : (Decode r).2 with
    | ok q =>
      obtain ⟨v, r'⟩ := q
      obtain ⟨w, hw, hs⟩ := decode_iff.1 hd
      exact .inl ⟨v, w, r', rfl, hw, ne_nil_of_length_pos hs.length_pos⟩
    | error f =>
      cases f with
      | error e => exact .inr ⟨e, rfl⟩
      | fuel => exact absurd hd (decode_fuel r)
      | panic =>
        obtain ⟨c, hc, hp⟩ := (decode_panic_iff r).1 hd
        obtain ⟨t, ht, -⟩ := mem_calls_iff.1 hc
        obtain ⟨h0, -, hmax⟩ := h _ _ ht
        rcases hp with hp | hp <;> omega

/-- A dictionary whose first key has the length `-1` makes the decoder panic. -/
theorem not_safe_negative_key : ¬ Safe (lit "d-1:") ∧ (Decode (lit "d-1:")).2 = .error .panic := by
  have hp : (Decode (lit "d-1:")).2 = .error .panic := by rfl
  refine ⟨fun h => ?_, hp⟩
  obtain ⟨v, w, r', hok, -⟩ | ⟨e, he⟩ := h.result
  · rw [hp] at hok
    cases hok
  · rw [hp] at he
    cases he

end Bencode
