import GoProtocols.Ftp.Transfer
import GoProtocols.Go.Fields
import Mathlib.Data.List.Flatten

/-!
# The addresses of data connections

`PORT`, `EPRT` and the replies to `PASV` and `EPSV` say where a data connection goes. What one side
writes the other reads (`address_round_trip`). Of what nobody writes like this, the parsers of six
fields read only the last two as numbers, and check no range (`Parsed`).
-/

namespace Ftp

open Go Decimal List

/-! ## Text -/

theorem split_join {sep : UInt8} {ls : List Bytes} (h : ∀ l ∈ ls, sep ∉ l) (hne : ls ≠ []) :
    split (join ls [sep]) sep = ls :=
  splitOn_intercalate sep h hne

theorem notMem_join {x : UInt8} {ls : List Bytes} {sep : Bytes} (h : ∀ l ∈ ls, x ∉ l)
    (hsep : x ∉ sep) : x ∉ join ls sep := fun hx => by
  rcases mem_join hx with hx | ⟨l, hl, hx⟩
  · exact hsep hx
  · exact h l hl hx

theorem bracketed_append {pre post : Bytes} (inner : Bytes) (hpre : 40 ∉ pre) (hpost : 41 ∉ post) :
    bracketed (pre ++ 40 :: (inner ++ 41 :: post)) = some inner := by
  have hopen : (pre ++ 40 :: (inner ++ 41 :: post)).idxOf? 40 = some pre.length := by
    rw [idxOf?_eq_some_iff]
    refine ⟨by simp, by simp, fun j hj he => hpre ?_⟩
    rw [getElem_append_left hj] at he
    exact he ▸ getElem_mem hj
  have hclose : lastIndexByte (pre ++ 40 :: (inner ++ 41 :: post)) 41 =
      some (pre ++ 40 :: inner).length := by
    rw [← lastIndexByte_append (a := pre ++ 40 :: inner) hpost]
    simp
  have htake : (pre ++ 40 :: (inner ++ 41 :: post)).take (pre ++ 40 :: inner).length =
      pre ++ 40 :: inner := by
    rw [show pre ++ 40 :: (inner ++ 41 :: post) = (pre ++ 40 :: inner) ++ 41 :: post by simp]
    exact take_left
  rw [bracketed, hopen, hclose]
  simp only [htake]
  simp

theorem noSpace_digits {ds : Bytes} (h : IsDigits ds) : NoSpace ds := by
  induction ds with
  | nil => exact noSpace_nil
  | cons b ds ih =>
    obtain ⟨hb, hds⟩ := forall_mem_cons.1 h
    have hrange := isDigit_iff.1 hb
    have hascii : b < 0x80 := UInt8.lt_iff_toNat_lt.2 (by simp; omega)
    have hspace : isSpace b.toNat = false := by
      have hdigits : ∀ d : Nat, d < 10 → isSpace (48 + d) = false := by decide
      simpa [Nat.add_sub_cancel' hrange.1] using hdigits (b.toNat - 48) (by omega)
    exact (noSpace_append_ascii (a := []) hascii).2 ⟨noSpace_nil, hspace, ih hds⟩

theorem trimSpace_of_noSpace {s : Bytes} (h : NoSpace s) : trimSpace s = s := by
  have hts : ∀ t ∈ tokens s, isSpace t.1 = false := fun t ht => h t.1 (mem_map_of_mem ht)
  have hdrop : ∀ ts : List (Rune × Bytes), (∀ t ∈ ts, isSpace t.1 = false) →
      ts.dropWhile (fun t => isSpace t.1) = ts := fun ts h => by
    cases ts with
    | nil => rfl
    | cons t ts => rw [dropWhile_cons_of_neg (by simp [h t])]
  simp only [trimSpace]
  rw [hdrop _ hts, hdrop _ fun t ht => hts t (mem_reverse.1 ht), reverse_reverse]
  exact bytesOf_tokens s

theorem trimSpace_digits {ds : Bytes} (h : IsDigits ds) : trimSpace ds = ds :=
  trimSpace_of_noSpace (noSpace_digits h)

theorem trimSpace_sublist (s : Bytes) : trimSpace s <+ s := by
  have hts : (((tokens s).dropWhile fun t => isSpace t.1).reverse.dropWhile
      fun t => isSpace t.1).reverse <+ tokens s := by
    rw [← reverse_sublist, reverse_reverse]
    exact (dropWhile_sublist _).trans (reverse_sublist.2 (dropWhile_sublist _))
  have := hts.flatMap Prod.snd
  rwa [show (tokens s).flatMap Prod.snd = s from bytesOf_tokens s] at this

/-! ## The port of an extended reply -/

section
variable [UnicodeTables] {r : Reply} (hcode : r.code = codeEnterEPSV) (pre post : Bytes) {p : Bytes}
  (hp : IsDigits p) (hpre : 40 ∉ pre ∧ 41 ∉ pre) (hpost : 40 ∉ post ∧ 41 ∉ post) (bar : Bool)
  (htext : r.lastLine =
    pre ++ lit "(|||" ++ p ++ (if bar then lit "|" else []) ++ lit ")" ++ post)
include hcode hp hpre hpost htext

theorem parseEPSVReply_eq : parseEPSVReply r = .ok (if bar then p else []) := by
  have hbar : 124 ∉ p := fun h => absurd (hp 124 h) (by decide)
  have hlast : r.lastLine = pre ++ 40 :: (join ([[], [], [], p] ++ if bar then [[]] else []) [124] ++
      41 :: post) := by
    rw [htext, show lit "(|||" = [40, 124, 124, 124] by decide, show lit ")" = [41] by decide,
      show lit "|" = [124] by decide]
    cases bar <;> simp [join, intercalate]
  have hfields : (bracketed r.lastLine).map (split · 124) =
      some ([[], [], [], p] ++ if bar then [[]] else []) := by
    rw [hlast, bracketed_append _ hpre.1 hpost.2, Option.map_some, split_join]
    · cases bar <;> simp [hbar]
    · simp
  rw [parseEPSVReply, hfields]
  cases bar <;> simp [hcode]

/-- **An `EPSV` reply gives its port exactly if the last bar is there.** -/
theorem parseEPSVReply_iff : parseEPSVReply r = .ok p ↔ bar = true ∨ p = [] := by
  rw [parseEPSVReply_eq hcode pre post hp hpre hpost bar htext]
  cases bar <;> simp [eq_comm]

end

section
attribute [local instance] asciiTables

theorem parseEPSVReply_iff_bar :
    parseEPSVReply { code := 229, text := lit "Ok (|||6446|)." } = .ok (lit "6446") ↔
      true = true ∨ lit "6446" = [] :=
  parseEPSVReply_iff (r := { code := 229, text := lit "Ok (|||6446|)." }) rfl (lit "Ok ") (lit ".")
    (by decide +kernel) (by decide) (by decide) true (by decide +kernel)

/-- Without the bar the port is lost. -/
theorem not_parseEPSVReply_bare :
    parseEPSVReply { code := 229, lines := [lit "Entering (|||6446)"] } ≠ .ok (lit "6446") := by
  decide +kernel

end

/-! ## Six fields -/

section
variable {fields : List Bytes} {host : Bytes} {port : Int64}

/-- What the two parsers return for the six fields. -/
def Parsed (fields : List Bytes) (host : Bytes) (port : Int64) : Prop :=
  ∃ h1 h2 h3 h4 p1 p2 : Bytes, ∃ n1 n2 : Int, fields = [h1, h2, h3, h4, p1, p2] ∧
    host = join [h1, h2, h3, h4] (lit ".") ∧ Reads (trimSpace p1) n1 ∧ Reads (trimSpace p2) n2 ∧
    port = Int64.ofInt (n1 * 256 + n2)

theorem ofInt_port (n1 n2 : Int) :
    Int64.ofInt n1 * 256 + Int64.ofInt n2 = Int64.ofInt (n1 * 256 + n2) := by
  rw [Int64.ofInt_add, Int64.ofInt_mul]
  rfl

theorem parsePORT_eq_ok {arg : Bytes} :
    parsePORT arg = .ok (host, port) ↔ Parsed (split arg 44) host port := by
  constructor
  · intro h
    unfold parsePORT at h
    split at h
    · rename_i h1 h2 h3 h4 p1 p2 hfields
      split at h
      · rename_i n1 n2 hp1 hp2
        cases Except.ok.inj h
        exact ⟨_, _, _, _, _, _, n1, n2, hfields, rfl, parseInt_eq_ok.1 hp1, parseInt_eq_ok.1 hp2,
          ofInt_port n1 n2⟩
      · cases h
    · cases h
  · rintro ⟨h1, h2, h3, h4, p1, p2, n1, n2, hfields, rfl, hp1, hp2, rfl⟩
    simp only [parsePORT, hfields, atoi, parseInt_eq_ok.2 hp1, parseInt_eq_ok.2 hp2, ofInt_port]

theorem parsePASVReply_eq_ok [UnicodeTables] {r : Reply} :
    parsePASVReply r = .ok (host, port) ↔ r.code = codeEnterPASV ∧
      ∃ inner, bracketed r.lastLine = some inner ∧ Parsed (split inner 44) host port := by
  constructor
  · intro h
    unfold parsePASVReply at h
    simp only at h
    split at h
    · cases h
    · rename_i hcode
      split at h
      · rename_i h1 h2 h3 h4 p1 p2 hfields
        obtain ⟨inner, hinner, hsplit⟩ := Option.map_eq_some_iff.1 hfields
        split at h
        · rename_i n1 n2 hp1 hp2
          cases Except.ok.inj h
          exact ⟨not_not.1 hcode, inner, hinner, _, _, _, _, _, _, n1, n2, hsplit, rfl,
            parseInt_eq_ok.1 hp1, parseInt_eq_ok.1 hp2, ofInt_port n1 n2⟩
        · cases h
      · cases h
  · rintro ⟨hcode, inner, hinner, h1, h2, h3, h4, p1, p2, n1, n2, hfields, rfl, hp1, hp2, rfl⟩
    simp only [parsePASVReply, hcode, ne_eq, not_true_eq_false, if_false, hinner, Option.map_some,
      hfields, atoi, parseInt_eq_ok.2 hp1, parseInt_eq_ok.2 hp2, ofInt_port]

/-- A decimal number up to 255. -/
def Octet (s : Bytes) : Prop := s ≠ [] ∧ IsDigits s ∧ value s ≤ 255

instance (s : Bytes) : Decidable (Octet s) := inferInstanceAs (Decidable (_ ∧ _))

/-- The fields are those of an address, white space around them aside, and these are the host and the
port that they write. -/
def IsAddress (fields : List Bytes) (host : Bytes) (port : Int64) : Prop :=
  fields.length = 6 ∧ (∀ f ∈ fields, Octet (trimSpace f)) ∧
    host = join ((fields.take 4).map trimSpace) (lit ".") ∧ 0 ≤ port.toInt ∧ port.toInt ≤ 65535

/-- The fields are octets, and those of the host have no white space around them. -/
def PlainFields (fields : List Bytes) : Prop :=
  (∀ f ∈ fields, Octet (trimSpace f)) ∧ ∀ f ∈ fields.take 4, trimSpace f = f

theorem reads_octet {s : Bytes} {n : Int} (h : Octet s) (hn : Reads s n) : n = value s := by
  cases hn with
  | plain => rfl
  | plus => exact absurd (h.2.1 43 (by simp)) (by decide)
  | minus => exact absurd (h.2.1 45 (by simp)) (by decide)

theorem Parsed.isAddress_iff (h : Parsed fields host port) :
    IsAddress fields host port ↔ PlainFields fields := by
  obtain ⟨h1, h2, h3, h4, p1, p2, n1, n2, rfl, rfl, hp1, hp2, rfl⟩ := h
  constructor
  · -- trimming never makes a field longer, so that equal hosts have equal fields
    rintro ⟨-, hoctets, hhost, -⟩
    refine ⟨hoctets, ?_⟩
    have hlen := congrArg length hhost
    have hle : ∀ f, (trimSpace f).length ≤ f.length := fun f => (trimSpace_sublist f).length_le
    have l1 := hle h1
    have l2 := hle h2
    have l3 := hle h3
    have l4 := hle h4
    simp only [join, intercalate, take_succ_cons, take_zero, map_cons, map_nil, intersperse_cons_cons,
      intersperse_singleton, flatten_cons, flatten_nil, length_append, length_nil] at hlen
    have heq : ∀ f ∈ [h1, h2, h3, h4], (trimSpace f).length = f.length := by
      simp only [forall_mem_cons]
      and_intros <;> first | omega | simp
    exact fun f hf => (trimSpace_sublist f).eq_of_length (heq f hf)
  · rintro ⟨hoctets, htrim⟩
    have hn1 := reads_octet (hoctets p1 (by simp)) hp1
    have hn2 := reads_octet (hoctets p2 (by simp)) hp2
    have hv1 := (hoctets p1 (by simp)).2.2
    have hv2 := (hoctets p2 (by simp)).2.2
    refine ⟨rfl, hoctets, ?_, ?_⟩
    · rw [map_congr_left htrim, map_id']
      rfl
    · rw [Int64.toInt_ofInt_of_le (by omega) (by omega)]
      omega

/-- **What the two parsers accept is an address exactly if its fields say so.** -/
theorem accepted_address_iff [UnicodeTables] :
    (∀ arg host port, parsePORT arg = .ok (host, port) →
      (IsAddress (split arg 44) host port ↔ PlainFields (split arg 44))) ∧
    ∀ r host port, parsePASVReply r = .ok (host, port) →
      ∃ inner, bracketed r.lastLine = some inner ∧
        (IsAddress (split inner 44) host port ↔ PlainFields (split inner 44)) := by
  refine ⟨fun arg host port h => (parsePORT_eq_ok.1 h).isAddress_iff, fun r host port h => ?_⟩
  obtain ⟨-, inner, hinner, hparsed⟩ := parsePASVReply_eq_ok.1 h
  exact ⟨inner, hinner, hparsed.isAddress_iff⟩

end

section
attribute [local instance] asciiTables

theorem accepted_address_iff_loopback :
    IsAddress (split (lit "127,0,0,1,8,73") 44) (lit "127.0.0.1") 2121 ↔
      PlainFields (split (lit "127,0,0,1,8,73") 44) :=
  accepted_address_iff.1 _ _ _ (by decide +kernel)

/-- A port below zero is accepted. -/
theorem not_isAddress_negative :
    parsePORT (lit "1,2,3,4,0,-5") = .ok (lit "1.2.3.4", -5) ∧
      ¬ IsAddress (split (lit "1,2,3,4,0,-5") 44) (lit "1.2.3.4") (-5) :=
  ⟨by decide +kernel, fun h => absurd h.2.2.2.1 (by decide)⟩

end

/-! ## What is written -/

/-- The number that `strconv.Atoi` returns, with an error or without. -/
def atoiValue (s : Bytes) : Int :=
  match atoi s with
  | .ok n => n
  | .error .ErrSyntax => 0
  | .error .ErrRange => if (cutSign s).1 then -2 ^ 63 else 2 ^ 63 - 1

/-- `FormatPORT`, which panics on a host of fewer than four parts. -/
def formatPORT (host : Bytes) (port : Int) : Option Bytes :=
  match split host 46 with
  | hi :: ho :: lo :: lo2 :: _ =>
    some (join [formatInt (atoiValue hi), formatInt (atoiValue ho), formatInt (atoiValue lo),
      formatInt (atoiValue lo2), formatInt (port.tdiv 256), formatInt (port.tmod 256)] (lit ","))
  | _ => none

def formatEPRT (proto host : Bytes) (port : Int) : Bytes :=
  proto ++ lit "|" ++ host ++ lit "|" ++ formatInt port ++ lit "|"

/-- An IPv4 address in its dotted form. -/
def dotted (a b c d : UInt8) : Bytes :=
  join [itoa a.toNat, itoa b.toNat, itoa c.toNat, itoa d.toNat] (lit ".")

theorem isDigits_itoa (n : Nat) : IsDigits (itoa n) := itoa_eq_render n ▸ isDigits_render n

theorem notMem_itoa {b : UInt8} (h : ¬ IsDigit b) (n : Nat) : b ∉ itoa n :=
  fun hb => h (isDigits_itoa n b hb)

theorem atoi_itoa {n : Nat} (h : n < 2 ^ 63) : atoi (itoa n) = .ok (n : Int) :=
  parseInt_eq_ok.2 (reads_formatInt ⟨by omega, by omega⟩)

section
variable (a b c d : UInt8) (p : UInt16)

theorem notMem_dotted {x : UInt8} (hx : ¬ IsDigit x) (hdot : x ≠ 46) : x ∉ dotted a b c d :=
  notMem_join (by simp [notMem_itoa hx]) (by simpa [show lit "." = [46] by decide] using hdot)

/-- The six fields of the address. -/
def addressFields : List Bytes :=
  [itoa a.toNat, itoa b.toNat, itoa c.toNat, itoa d.toNat, itoa (p.toNat / 256), itoa (p.toNat % 256)]

theorem parsed_addressFields :
    Parsed (split (join (addressFields a b c d p) [44]) 44) (dotted a b c d)
      (Int64.ofInt p.toNat) := by
  have hp : p.toNat < 65536 := p.toNat_lt
  have hreads : ∀ n : Nat, n < 2 ^ 63 → Reads (trimSpace (itoa n)) n := fun n hn => by
    rw [trimSpace_digits (isDigits_itoa n)]
    exact reads_formatInt ⟨by omega, by omega⟩
  rw [split_join]
  · refine ⟨_, _, _, _, _, _, _, _, rfl, rfl, hreads _ (by omega), hreads _ (by omega), ?_⟩
    congr 1
    omega
  · simp [addressFields, notMem_itoa (show ¬ IsDigit 44 by decide)]
  · simp [addressFields]

theorem formatPORT_dotted :
    formatPORT (dotted a b c d) p.toNat = some (join (addressFields a b c d p) [44]) := by
  have hsplit : split (dotted a b c d) 46 = [itoa a.toNat, itoa b.toNat, itoa c.toNat, itoa d.toNat] :=
    split_join (by simp [notMem_itoa (show ¬ IsDigit 46 by decide)]) (by simp)
  have hvalue : ∀ o : UInt8, atoiValue (itoa o.toNat) = o.toNat := fun o => by
    have := o.toNat_lt
    rw [atoiValue, atoi_itoa (by omega)]
  rw [formatPORT, hsplit]
  simp only [hvalue]
  rfl

theorem splitHostPort_dotted :
    splitHostPort (dotted a b c d ++ 58 :: itoa p.toNat) = (dotted a b c d, itoa p.toNat) := by
  have hmem : ∀ x, ¬ IsDigit x → x ≠ 46 → x ≠ 58 → x ∉ dotted a b c d ++ 58 :: itoa p.toNat :=
    fun x hx hdot hcolon => by
      simp [notMem_dotted a b c d hx hdot, hcolon, notMem_itoa hx]
  have hbracket : hasPrefix (dotted a b c d ++ 58 :: itoa p.toNat) (lit "[") = false := by
    rw [Bool.eq_false_iff]
    intro h
    exact hmem 91 (by decide) (by decide) (by decide)
      ((hasPrefix_iff.1 h).subset (by decide))
  have hno : ¬ (58 ∈ dotted a b c d ∨ 91 ∈ dotted a b c d ++ 58 :: itoa p.toNat ∨
      93 ∈ dotted a b c d ++ 58 :: itoa p.toNat) := by
    rintro (h | h | h)
    · exact notMem_dotted a b c d (by decide) (by decide) h
    · exact hmem 91 (by decide) (by decide) (by decide) h
    · exact hmem 93 (by decide) (by decide) (by decide) h
  rw [splitHostPort, lastIndexByte_append (notMem_itoa (by decide) _)]
  simp only [hbracket, Bool.false_eq_true, if_false, take_left, if_neg hno]
  simp

theorem replaceAll_itoa (n : Nat) (new : Bytes) : replaceAll (itoa n) 46 new = itoa n := by
  have hne : ∀ x ∈ itoa n, (if x = 46 then new else [x]) = [x] := by
    intro x hx
    exact if_neg fun (he : x = 46) => notMem_itoa (show ¬ IsDigit 46 by decide) n (he ▸ hx)
  rw [replaceAll, flatMap_congr hne, flatMap_singleton']

theorem replaceAll_dotted :
    replaceAll (dotted a b c d) 46 [44] =
      join [itoa a.toNat, itoa b.toNat, itoa c.toNat, itoa d.toNat] [44] := by
  have happend : ∀ s t : Bytes, replaceAll (s ++ t) 46 [44] =
      replaceAll s 46 [44] ++ replaceAll t 46 [44] := fun s t => flatMap_append
  have hdot : replaceAll (lit ".") 46 [44] = [44] := by decide
  simp [dotted, join, intercalate, happend, replaceAll_itoa, hdot]

end

section
variable {W : Type} {cfg : Config W} {st : State W} (a b c d : UInt8) (p : UInt16)

theorem eprt_passive (cfg : Config W) (st : State W) {proto : Bytes} (hproto : 124 ∉ proto) :
    (eprt cfg st (formatEPRT proto (dotted a b c d) p.toNat)).1.session.passive =
      some { remote := dotted a b c d ++ 58 :: itoa p.toNat } := by
  have hp : p.toNat < 65536 := p.toNat_lt
  have hjoin : formatEPRT proto (dotted a b c d) p.toNat =
      join [proto, dotted a b c d, itoa p.toNat, []] [124] := by
    simp [formatEPRT, join, intercalate, show lit "|" = [124] by decide, itoa]
  have hbar : ¬ IsDigit 124 := by decide
  rw [eprt, hjoin, split_join (by simp [hproto, notMem_dotted a b c d hbar, notMem_itoa hbar])
    (by simp)]
  simp only [atoi_itoa (show p.toNat < 2 ^ 63 by omega), reply_session]
  simp [joinHostPort, notMem_dotted a b c d (show ¬ IsDigit 58 by decide),
    show lit ":" = [58] by decide, itoa]

theorem passiveReply_replies {world : W} {addr : Bytes}
    (hopen : openPassive cfg st.world = (.ok addr, world)) (announce : Bytes → Reply) :
    (passiveReply cfg st announce).1.replies = st.replies ++ [announce addr] := by
  rw [passiveReply, hopen]
  exact replies_reply cfg _ _

variable [UnicodeTables] {world : W}
  (hopen : openPassive cfg st.world = (.ok (dotted a b c d ++ 58 :: itoa p.toNat), world))
include hopen

theorem pasv_reads : ∃ reply, (pasv cfg st).1.replies = st.replies ++ [reply] ∧ ∀ rest, ∃ got,
    readReply (reply.wire ++ rest) = .ok (got, rest) ∧
      parsePASVReply got = .ok (dotted a b c d, Int64.ofInt p.toNat) := by
  have hp : p.toNat < 65536 := p.toNat_lt
  have hport : mustAtoi (itoa p.toNat) = p.toNat := by rw [mustAtoi, atoi_itoa (by omega)]
  have hclear : ∀ x, ¬ IsDigit x → x ≠ 44 → x ∉ join (addressFields a b c d p) [44] :=
    fun x hx hne => notMem_join (by simp [addressFields, notMem_itoa hx]) (by simpa using hne)
  -- the fields stand between the brackets of the text
  refine ⟨newReply codeEnterPASV (lit "Entering Passive Mode " ++ 40 ::
    (join (addressFields a b c d p) [44] ++ [41, 46])), ?_, fun rest =>
    ⟨_, readReply_wire (by decide) ?_ rest, parsePASVReply_eq_ok.2 ⟨rfl, _,
      bracketed_append _ (by decide) (by decide), parsed_addressFields a b c d p⟩⟩⟩
  · rw [pasv, passiveReply_replies hopen]
    simp only [splitHostPort_dotted, hport, replaceAll_dotted, show lit "Entering Passive Mode (" =
      lit "Entering Passive Mode " ++ [40] by decide, show lit "," = [44] by decide,
      show lit ")." = [41, 46] by decide]
    simp [addressFields, join, intercalate, itoa, Int.tmod_eq_emod_of_nonneg]
  · have hlit : 13 ∉ lit "Entering Passive Mode " ∧ 10 ∉ lit "Entering Passive Mode " := by decide
    simp [hlit, hclear 13 (by decide) (by decide), hclear 10 (by decide) (by decide)]

theorem epsv_reads : ∃ reply, (epsv cfg st).1.replies = st.replies ++ [reply] ∧ ∀ rest, ∃ got,
    readReply (reply.wire ++ rest) = .ok (got, rest) ∧
      parseEPSVReply got = .ok (itoa p.toNat) := by
  have hclear : ∀ x, ¬ IsDigit x → x ∉ lit "Entering Extended Passive Mode (|||" ++ lit "|)." →
      x ∉ lit "Entering Extended Passive Mode (|||" ++ itoa p.toNat ++ lit "|)." := by
    intro x hx hlit
    simp only [mem_append, not_or] at hlit ⊢
    exact ⟨⟨hlit.1, notMem_itoa hx _⟩, hlit.2⟩
  refine ⟨newReply codeEnterEPSV (lit "Entering Extended Passive Mode (|||" ++ itoa p.toNat ++
    lit "|)."), ?_, fun rest => ⟨_, readReply_wire (by decide) ⟨hclear 13 (by decide) (by decide),
      hclear 10 (by decide) (by decide)⟩ rest, ?_⟩⟩
  · rw [epsv, passiveReply_replies hopen]
    simp only [splitHostPort_dotted]
  · refine parseEPSVReply_eq rfl (lit "Entering Extended Passive Mode ") (lit ".")
      (isDigits_itoa _) (by decide) (by decide) true ?_
    simp [Reply.lastLine, show lit "Entering Extended Passive Mode (|||" =
      lit "Entering Extended Passive Mode " ++ lit "(|||" by decide, show lit "|)." =
      lit "|" ++ (lit ")" ++ lit ".") by decide]

end

/-- **What one side writes of an address, the other reads.** -/
theorem address_round_trip [UnicodeTables] {W : Type} (cfg : Config W) (st : State W)
    (a b c d : UInt8) (p : UInt16) :
    (∃ arg, formatPORT (dotted a b c d) p.toNat = some arg ∧
      parsePORT arg = .ok (dotted a b c d, Int64.ofInt p.toNat)) ∧
    (∀ proto, 124 ∉ proto →
      (eprt cfg st (formatEPRT proto (dotted a b c d) p.toNat)).1.session.passive =
        some { remote := dotted a b c d ++ lit ":" ++ itoa p.toNat }) ∧
    ∀ world, openPassive cfg st.world = (.ok (dotted a b c d ++ lit ":" ++ itoa p.toNat), world) →
      (∃ reply, (pasv cfg st).1.replies = st.replies ++ [reply] ∧ ∀ rest, ∃ got,
        readReply (reply.wire ++ rest) = .ok (got, rest) ∧
          parsePASVReply got = .ok (dotted a b c d, Int64.ofInt p.toNat)) ∧
      ∃ reply, (epsv cfg st).1.replies = st.replies ++ [reply] ∧ ∀ rest, ∃ got,
        readReply (reply.wire ++ rest) = .ok (got, rest) ∧
          parseEPSVReply got = .ok (itoa p.toNat) := by
  have haddr : dotted a b c d ++ lit ":" ++ itoa p.toNat = dotted a b c d ++ 58 :: itoa p.toNat := by
    simp [show lit ":" = [58] by decide]
  rw [haddr]
  exact ⟨⟨_, formatPORT_dotted a b c d p, parsePORT_eq_ok.2 (parsed_addressFields a b c d p)⟩,
    fun proto hproto => eprt_passive a b c d p cfg st hproto,
    fun world hopen => ⟨pasv_reads a b c d p hopen, epsv_reads a b c d p hopen⟩⟩

section
attribute [local instance] asciiTables

theorem address_round_trip_any :
    (∃ arg, formatPORT (dotted 0 0 0 0) (5000 : UInt16).toNat = some arg ∧
      parsePORT arg = .ok (dotted 0 0 0 0, Int64.ofInt (5000 : UInt16).toNat)) ∧
    (eprt fileConfig loggedIn
        (formatEPRT (lit "1") (dotted 0 0 0 0) (5000 : UInt16).toNat)).1.session.passive =
      some { remote := dotted 0 0 0 0 ++ lit ":" ++ itoa (5000 : UInt16).toNat } ∧
    (∃ reply, (pasv fileConfig loggedIn).1.replies = loggedIn.replies ++ [reply] ∧ ∀ rest, ∃ got,
      readReply (reply.wire ++ rest) = .ok (got, rest) ∧
        parsePASVReply got = .ok (dotted 0 0 0 0, Int64.ofInt (5000 : UInt16).toNat)) ∧
    ∃ reply, (epsv fileConfig loggedIn).1.replies = loggedIn.replies ++ [reply] ∧ ∀ rest, ∃ got,
      readReply (reply.wire ++ rest) = .ok (got, rest) ∧
        parseEPSVReply got = .ok (itoa (5000 : UInt16).toNat) :=
  have h := address_round_trip fileConfig loggedIn 0 0 0 0 5000
  ⟨h.1, h.2.1 (lit "1") (by decide), h.2.2 () (by decide +kernel)⟩

end

end Ftp
