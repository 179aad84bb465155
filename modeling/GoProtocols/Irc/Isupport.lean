import GoProtocols.Go.Slice
import GoProtocols.Irc.Server.Register

/-!
# The lines of `RPL_ISUPPORT`

`tryRegister` cuts the tokens into batches of thirteen and appends a text to each. A full batch is a
slice with room after it, and that room holds the tokens which are still to be sent: the text
overwrites the first of them. `isupportLoop` is the loop over the arrays, and `isupportLines` what
it comes to, whatever the capacity (`isupportLoop_eq`). So every thirteenth token but the first is
lost (`getElem?_sentTokens`).
-/

namespace Irc

open Go List

/-- The loop of `tryRegister`: the parameters of each `RPL_ISUPPORT`. -/
def isupportLoop (text : Bytes) : Nat → Heap Bytes → Slice → List (List Bytes)
  | 0, _, _ => []
  | fuel + 1, h, tokens =>
    if tokens.len = 0 then []
    else
      let batch := if 13 < tokens.len then tokens.sub 0 13 else tokens
      let (h', params) := h.append batch text
      h'.read params :: isupportLoop text fuel h' (tokens.sub batch.len tokens.len)

/-- The tokens in the lines: all parameters but the last. -/
def sentTokens (lines : List (List Bytes)) : List Bytes := lines.flatMap List.dropLast

variable {text : Bytes} {fuel : Nat} {tokens : List Bytes} {h : Heap Bytes} {s : Slice}

/-! ## The loop -/

/-- A full batch: the text goes into the place of the next token. -/
theorem read_rest (hv : h.Valid s) (hlen : 13 < s.len) (text : Bytes) :
    (h.append (s.sub 0 13) text).1.read (s.sub 13 s.len) = text :: (h.read s).drop 14 := by
  have hcap := hv.len
  have hset := Heap.getElem?_read_append (hv.sub (Nat.zero_le 13) (by omega)) (by simp [Slice.sub]; omega)
    text (rfl : (s.sub 13 s.len).array = (s.sub 0 13).array)
  apply ext_getElem?
  intro i
  rw [hset]
  cases i with
  | zero => simp [Slice.sub]; omega
  | succ i =>
    rw [if_neg (by simp [Slice.sub]), Heap.getElem?_read, List.getElem?_cons_succ,
      List.getElem?_drop, Heap.getElem?_read]
    simp only [Slice.sub]
    grind

theorem isupportLoop_eq (text : Bytes) (fuel : Nat) (hv : h.Valid s) :
    isupportLoop text fuel h s = isupportLines text fuel (h.read s) := by
  induction fuel generalizing h s with
  | zero => rfl
  | succ fuel ih =>
    have hread := hv.length_read
    have hcap := hv.len
    simp only [isupportLoop, isupportLines, ← length_eq_zero_iff, hread]
    split
    · rfl
    · by_cases hlen : 13 < s.len
      · have hbatch := hv.sub (Nat.zero_le 13) (by omega : 13 ≤ s.len)
        have hroom : (s.sub 0 13).len < (s.sub 0 13).cap := by simp [Slice.sub]; omega
        have hrest : (h.append (s.sub 0 13) text).1.Valid (s.sub 13 s.len) :=
          (hv.sub (by omega) (Nat.le_refl _)).append hroom rfl text
        simp only [if_pos hlen]
        rw [hbatch.read_append, show (s.sub 0 13).len = 13 from rfl, ih hrest, read_rest hv hlen,
          h.read_sub (by omega), drop_zero]
      · simp only [if_neg hlen]
        rw [hv.read_append]
        have hdone (h' : Heap Bytes) : isupportLoop text fuel h' (s.sub s.len s.len) = [] := by
          cases fuel <;> simp [isupportLoop, Slice.sub]
        rw [hdone]

/-! ## The lines -/

/-- **Every thirteenth token but the first is overwritten**, and no other. -/
theorem getElem?_sentTokens (text : Bytes) (hfuel : tokens.length ≤ fuel) (i : Nat) :
    (sentTokens (isupportLines text fuel tokens))[i]? =
      if i < tokens.length ∧ 0 < i ∧ 13 ∣ i then some text else tokens[i]? := by
  induction fuel generalizing tokens i with
  | zero =>
    obtain rfl := length_eq_zero_iff.1 (Nat.le_zero.1 hfuel)
    simp [sentTokens, isupportLines]
  | succ fuel ih =>
    unfold isupportLines
    split
    · rename_i hnil
      simp [hnil, sentTokens]
    split
    · rename_i hlen
      have hfuel' : (text :: tokens.drop 14).length ≤ fuel := by
        simp
        omega
      have hrest := ih hfuel' (i - 13)
      rw [sentTokens, flatMap_cons, dropLast_concat, List.getElem?_append,
        length_take, Nat.min_eq_left (by omega)]
      split
      · rename_i hi
        rw [if_neg (by omega), List.getElem?_take, if_pos hi]
      · refine hrest.trans ?_
        grind
    · rename_i hlen
      rw [sentTokens, flatMap_cons, flatMap_nil, append_nil, dropLast_concat,
        if_neg (by omega)]

theorem length_isupportLines (text : Bytes) (fuel : Nat) (tokens : List Bytes) :
    ∀ line ∈ isupportLines text fuel tokens, line.dropLast.length ≤ 13 := by
  induction fuel generalizing tokens with
  | zero => simp [isupportLines]
  | succ fuel ih =>
    unfold isupportLines
    split
    · simp
    split
    · exact forall_mem_cons.2 ⟨by simp, ih _⟩
    · rename_i hlen
      exact forall_mem_singleton.2 (by simpa using hlen)

/-- **Nothing is lost exactly if every token that is overwritten is the text itself.** -/
theorem isupport_batched_iff (text : Bytes) {h : Heap Bytes} {s : Slice} (hv : h.Valid s) :
    (sentTokens (isupportLoop text s.len h s) = h.read s ∧
        ∀ line ∈ isupportLoop text s.len h s, line.dropLast.length ≤ 13) ↔
      ∀ i, 0 < i → 13 * i < s.len → (h.read s)[13 * i]? = some text := by
  have hlen := hv.length_read
  rw [isupportLoop_eq text s.len hv, and_iff_left (length_isupportLines text _ _)]
  constructor
  · intro heq i hi hlt
    have hget := getElem?_sentTokens text (Nat.le_of_eq hlen) (13 * i)
    rw [heq, if_pos ⟨by omega, by omega, Nat.dvd_mul_right 13 i⟩] at hget
    exact hget
  · intro htext
    apply ext_getElem?
    intro i
    rw [getElem?_sentTokens text (Nat.le_of_eq hlen)]
    split
    · rename_i hi
      obtain ⟨hlt, hpos, k, rfl⟩ := hi
      exact (htext k (by omega) (by omega)).symm
    · rfl

/-- Fifteen tokens, of which the one that is overwritten is the text. -/
theorem isupport_batched_iff_fifteen :
    let tokens := List.replicate 13 (lit "A") ++ [lit "text", lit "B"]
    sentTokens (isupportLoop (lit "text") 15 [tokens] ⟨0, 0, 15, 15⟩) = tokens := by
  intro tokens
  have hv : Heap.Valid [tokens] ⟨0, 0, 15, 15⟩ := ⟨by decide, by decide⟩
  refine ((isupport_batched_iff (lit "text") hv).2 fun i hi hlt => ?_).1
  have hlen : 13 * i < 15 := hlt
  obtain rfl : i = 1 := by omega
  rfl

/-- The tokens of the server: the text is sent in the place of `CHANNELLEN=64`. -/
theorem not_batched_isupport :
    let text := lit "are supported by this server"
    let sent := sentTokens (isupportLoop text 24 [isupport {}] ⟨0, 0, 24, 24⟩)
    sent = (isupport {}).set 13 text ∧ sent ≠ isupport {} := by
  decide +kernel

end Irc
