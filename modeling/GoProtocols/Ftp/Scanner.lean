import GoProtocols.Ftp.Wire

/-!
# Reading replies

`ReplyScanner` of `ftp/ftp/reply.go`, on the bytes that the control connection holds.
-/

namespace Ftp

open Go Decimal

variable {code : Nat} (line : Bytes)

/-! ## The scanner -/

/-- `parseCode`. The digits are ASCII, so that it makes no difference to go by bytes. -/
def parseCode (s : Bytes) : Option Nat := if IsDigits s then some (value s) else none

def splitReplyLine : Option (Nat × Bytes) :=
  if line.length < 3 then none
  else
    (parseCode (line.take 3)).bind fun code =>
      let rest := line.drop 3
      if hasPrefix rest (lit " ") || hasPrefix rest (lit "-") then
        some (code, trimRight (rest.drop 1) (lit "\r\n"))
      else none

def isMultiLineStart : Bool := (line.drop 3).head? = some 45

/-- The end of the input, or an error of the connection. -/
def errRead : Bytes := lit "EOF"

section
variable [UnicodeTables]

/-- The loop over the lines of a reply. Each round takes a byte at least, so that the number of bytes
is fuel enough. -/
def readLines (code : Nat) : Nat → List Bytes → Bytes → Except Bytes (Reply × Bytes)
  | 0, _, _ => .error errRead
  | fuel + 1, lines, r =>
    match readString 10 r with
    | none => .error errRead
    | some (line, r) =>
      match splitReplyLine line with
      | none => .error (lit "ftp: malformed continuation " ++ quote line)
      | some (code', text) =>
        if code' ≠ code then
          .error (lit "ftp: reply code changed mid-message: " ++ itoa code ++ lit " then " ++
            itoa code')
        else if isMultiLineStart line then readLines code fuel (lines ++ [text]) r
        else .ok ({ code, lines := lines ++ [text] }, r)

/-- `ReplyScanner.Read`: the next reply and the bytes after it. -/
def readReply (r : Bytes) : Except Bytes (Reply × Bytes) :=
  match readString 10 r with
  | none => .error errRead
  | some (first, r) =>
    match splitReplyLine first with
    | none => .error (lit "ftp: malformed reply " ++ quote first)
    | some (code, text) =>
      if isMultiLineStart first then readLines code r.length [text] r
      else .ok ({ code, lines := [text] }, r)

end

/-! ## Codes -/

theorem length_itoa (h : 100 ≤ code ∧ code ≤ 999) : (itoa code).length = 3 := by
  rw [itoa_eq_render, render_of_le (by omega), render_of_le (by omega), render_of_lt (by omega)]
  rfl

theorem parseCode_itoa (code : Nat) : parseCode (itoa code) = some code := by
  rw [itoa_eq_render, parseCode, if_pos (isDigits_render code), value_render]

/-! ## What is read -/

theorem wire_newReply (code : Nat) (text : Bytes) :
    (newReply code text).wire = itoa code ++ 32 :: (text ++ [13, 10]) := by
  simp [newReply, Reply.wire, show lit " " = [32] by decide, show lit "\r\n" = [13, 10] by decide]

section
variable {sep : UInt8} (h : 100 ≤ code ∧ code ≤ 999)
include h

theorem drop_itoa (text : Bytes) : (itoa code ++ text).drop 3 = text := by
  rw [← length_itoa h]
  exact List.drop_left

theorem splitReplyLine_itoa (hsep : sep = 32 ∨ sep = 45) (text : Bytes) :
    splitReplyLine (itoa code ++ sep :: text) = some (code, trimRight text (lit "\r\n")) := by
  have hlen := length_itoa h
  have htake : (itoa code ++ sep :: text).take 3 = itoa code := by
    rw [← hlen]
    exact List.take_left
  have hpre : (hasPrefix (sep :: text) (lit " ") || hasPrefix (sep :: text) (lit "-")) = true := by
    rw [show lit " " = [32] by decide, show lit "-" = [45] by decide]
    rcases hsep with rfl | rfl <;> simp [hasPrefix]
  rw [splitReplyLine, if_neg (by simp [hlen]), htake, drop_itoa h, parseCode_itoa]
  simp [hpre]

theorem isMultiLineStart_itoa (sep : UInt8) (text : Bytes) :
    isMultiLineStart (itoa code ++ sep :: text) = decide (sep = 45) := by
  rw [isMultiLineStart, drop_itoa h]
  simp

end

theorem readString_itoa {sep : UInt8} (hsep : sep = 32 ∨ sep = 45) {text : Bytes} (ht : 10 ∉ text)
    (r : Bytes) : readString 10 (itoa code ++ sep :: (text ++ 10 :: r)) =
      some (itoa code ++ sep :: (text ++ [10]), r) := by
  have hdigits : 10 ∉ itoa code := fun hmem => by
    rw [itoa_eq_render] at hmem
    exact absurd (isDigits_render code 10 hmem) (by decide)
  have hnot : 10 ∉ itoa code ++ sep :: text := by
    rcases hsep with rfl | rfl <;> simp [hdigits, ht]
  simpa using readString_append hnot r

theorem trimRight_crlf {text : Bytes} (ht : 13 ∉ text ∧ 10 ∉ text) :
    trimRight (text ++ [13] ++ [10]) (lit "\r\n") = text := by
  rw [trimRight_concat (by decide), trimRight_concat (by decide)]
  refine trimRight_of_last fun b hb hcut => ?_
  have hmem := List.mem_of_getLast? hb
  rcases (show b = 13 ∨ b = 10 by simpa [show lit "\r\n" = [13, 10] by decide] using hcut) with
    rfl | rfl
  · exact ht.1 hmem
  · exact ht.2 hmem

section
variable [UnicodeTables] {text : Bytes}

theorem readReply_line (h : 100 ≤ code ∧ code ≤ 999) (ht : 10 ∉ text) (r : Bytes) :
    readReply (itoa code ++ 32 :: (text ++ 10 :: r)) =
      .ok ({ code, lines := [trimRight (text ++ [10]) (lit "\r\n")] }, r) := by
  simp [readReply, readString_itoa (.inl rfl) ht, splitReplyLine_itoa h (.inl rfl),
    isMultiLineStart_itoa h]

/-- **The code of a single-line reply is read, whatever its text.** -/
theorem readReply_code (h : 100 ≤ code ∧ code ≤ 999) (text r : Bytes) :
    ∃ line r', readReply ((newReply code text).wire ++ r) = .ok ({ code, lines := [line] }, r') := by
  -- the first break is in the text, or it is the one that ends the reply
  obtain ⟨w, hw, r', hr⟩ : ∃ w, 10 ∉ w ∧ ∃ r', text ++ 13 :: 10 :: r = w ++ 10 :: r' := by
    cases hcut : cut (text ++ 13 :: 10 :: r) 10 with
    | none => exact absurd (cut_eq_none.1 hcut) (by simp)
    | some q =>
      obtain ⟨hw, hr⟩ := cut_eq_some.1 (show cut _ 10 = some (q.1, q.2) from hcut)
      exact ⟨q.1, hw, q.2, hr⟩
  have hwire : (newReply code text).wire ++ r = itoa code ++ 32 :: (w ++ 10 :: r') := by
    rw [wire_newReply, ← hr]
    simp
  rw [hwire]
  exact ⟨_, _, readReply_line h hw r'⟩

theorem readReply_wire (h : 100 ≤ code ∧ code ≤ 999) (ht : 13 ∉ text ∧ 10 ∉ text) (r : Bytes) :
    readReply ((newReply code text).wire ++ r) = .ok ({ code, lines := [text] }, r) := by
  have hwire : (newReply code text).wire ++ r = itoa code ++ 32 :: ((text ++ [13]) ++ 10 :: r) := by
    rw [wire_newReply]
    simp
  rw [hwire, readReply_line h (by simp [ht.2]), trimRight_crlf ht]

/-- The scanner does not set the field `Text`. -/
theorem text_readLines {fuel : Nat} {lines : List Bytes} {r r' : Bytes} {reply : Reply}
    (h : readLines code fuel lines r = .ok (reply, r')) : reply.text = [] := by
  induction fuel generalizing lines r with
  | zero => cases h
  | succ fuel ih =>
    simp only [readLines] at h
    split at h
    · cases h
    · split at h
      · cases h
      · split at h
        · cases h
        · split at h
          · exact ih h
          · obtain ⟨rfl, -⟩ := Prod.mk.inj (Except.ok.inj h)
            rfl

theorem text_readReply {r r' : Bytes} {reply : Reply} (h : readReply r = .ok (reply, r')) :
    reply.text = [] := by
  simp only [readReply] at h
  split at h
  · cases h
  · split at h
    · cases h
    · split at h
      · exact text_readLines h
      · obtain ⟨rfl, -⟩ := Prod.mk.inj (Except.ok.inj h)
        rfl

/-- **A reply comes back with its text exactly if it has none.** -/
theorem readReply_wire_iff {code : Nat} (hcode : 100 ≤ code ∧ code ≤ 999) {text : Bytes}
    (ht : 13 ∉ text ∧ 10 ∉ text) (r : Bytes) :
    (∃ reply r', readReply ((newReply code text).wire ++ r) = .ok (reply, r') ∧
      reply.code = code ∧ reply.text = text) ↔ text = [] := by
  constructor
  · rintro ⟨reply, r', hread, -, rfl⟩
    exact text_readReply hread
  · rintro rfl
    exact ⟨_, _, readReply_wire hcode ht r, rfl, rfl⟩

end

section
attribute [local instance] asciiTables

theorem readReply_wire_iff_empty :
    (∃ reply r', readReply ((newReply 200 []).wire ++ []) = .ok (reply, r') ∧
      reply.code = 200 ∧ reply.text = []) ↔ ([] : Bytes) = [] :=
  readReply_wire_iff (by decide) (by decide) []

/-- The answer to `PWD` comes back without the directory. -/
theorem not_readReply_wire_pwd :
    ¬ ∃ reply r', readReply (newReply codePathCreated (lit "\"/pub\"")).wire = .ok (reply, r') ∧
      reply.code = codePathCreated ∧ reply.text = lit "\"/pub\"" := by
  rintro ⟨reply, r', hread, -, htext⟩
  rw [text_readReply hread] at htext
  revert htext
  decide

end

end Ftp
