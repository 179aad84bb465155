import GoProtocols.Torrent.Metainfo
import GoProtocols.Torrent.Proof.Canonical

/-!
# The info hash

`metainfo.Decode` hashes a re-encoding of the decoded `info` dictionary, not the bytes of the file.
On canonical input these are the same bytes (`infoHash_canonical`).
-/

namespace Metainfo

open Go Bencode Keyed List

variable {sha1 : Bytes → Hash}

theorem decode_eq_ok {data : Bytes} {m : MetaInfo} (h : decode sha1 data = .ok m) :
    ∃ dict r' infoRaw w, (Bencode.Decode data).2 = .ok (.map dict, r') ∧
      dict.lookup (lit "info") = some infoRaw ∧ encode infoRaw = .ok w ∧ m.infoHash = sha1 w := by
  unfold decode at h
  split at h
  · cases h
  · rename_i dict r' hd
    split at h
    · cases h
    · rename_i infoDict hi
      split at h
      · cases h
      · rename_i w hw
        refine ⟨dict, r', .map infoDict, w, hd, hi, hw, ?_⟩
        cases hp : parseInfo infoDict with
        | error e =>
          rw [hp] at h
          cases h
        | ok info =>
          rw [hp] at h
          cases h
          rfl
    · cases h
  · cases h

/-- **The info hash of a canonical file is the hash of its `info` bytes**, whatever stands around
them. -/
theorem infoHash_canonical {es : List RawEntry} (hlt : (es.map RawEntry.key).Pairwise (· < ·))
    (hk : ∀ e ∈ es, CanonicalString e.keyText e.key) (hv : ∀ e ∈ es, Canonical e.value)
    {e : RawEntry} (he : e ∈ es) (hi : e.key = lit "info") {m : MetaInfo}
    (hm : decode sha1 (dictText es) = .ok m) : m.infoHash = sha1 e.value := by
  obtain ⟨dict, r', infoRaw, w, hd, hinfo, hw, hsha⟩ := decode_eq_ok hm
  obtain ⟨d, hd', hval⟩ := decode_dictText hlt hk hv
  rw [hd', Except.ok.injEq, Prod.mk.injEq, Value.map.injEq] at hd
  obtain ⟨rfl, -⟩ := hd
  obtain ⟨u, hu, hen⟩ := hval e he
  rw [hi, hinfo, Option.some.injEq] at hu
  subst hu
  rw [hen, Except.ok.injEq] at hw
  rw [hsha, hw]

theorem infoHash_canonical_announce :
    ∃ m, decode hashOf (lit "d8:announce1:x4:infod6:pieces0:ee") = .ok m ∧
      m.infoHash = hashOf (lit "d6:pieces0:e") := by
  have hkey : ∀ k : Bytes, k.length ≤ 8 → CanonicalString (encodeString k) k := fun k hk =>
    canonicalString_encodeString (by unfold maxAlloc; omega)
  have hstr : ∀ k : Bytes, k.length ≤ 8 → Canonical (encodeString k) := fun k hk =>
    .string (hkey k hk)
  have hinfo :
      Canonical (dictText [⟨encodeString (lit "pieces"), lit "pieces", encodeString []⟩]) :=
    .dict (by decide) (forall_mem_singleton.2 (hkey _ (by decide)))
      (forall_mem_singleton.2 (hstr _ (by decide)))
  have hmem : (⟨encodeString (lit "info"), lit "info", lit "d6:pieces0:e"⟩ : RawEntry) ∈
      [⟨encodeString (lit "announce"), lit "announce", encodeString (lit "x")⟩,
        ⟨encodeString (lit "info"), lit "info", lit "d6:pieces0:e"⟩] := by simp
  exact ⟨_, by rfl, infoHash_canonical (by decide)
    (forall_mem_cons.2 ⟨hkey _ (by decide), forall_mem_singleton.2 (hkey _ (by decide))⟩)
    (forall_mem_cons.2 ⟨hstr _ (by decide), forall_mem_singleton.2 hinfo⟩) hmem rfl (by rfl)⟩

end Metainfo
