/-
Requests for certificates by their text.

A request is kept as the text it came in, and is the first block of it
(`ofPem_eq_ok_iff`), so what one side has read the other side reads again.
`ofDer` is the request that comes as the block of some bytes; reading that
block gives it (`ofPem_ofDer`).  The key of a request is told by its encoding,
so a certificate whose key has the same encoding has the same key
(`fields_publicKey_eq`).
-/
import Enrollment.Proofs.Certificate.Basic
import Enrollment.Proofs.Pem
import Enrollment.SigningRequest.Basic

namespace Enrollment.SigningRequest

/-- A request is the first block of its text, with one of the two tags. -/
theorem ofPem_eq_ok_iff {text : String} {r : SigningRequest} :
    ofPem text = .ok r
      ↔ r.pem = text ∧ ∃ block, Pem.parse text = .ok block ∧ block.tag ∈ blockTags
        ∧ block.contents = r.der := by
  constructor
  · intro h
    unfold ofPem at h
    split at h
    · split at h
      · cases h
      · rename_i block hparse
        split at h
        · rename_i htag
          split at h
          · cases h
            exact ⟨rfl, block, hparse, List.contains_iff_mem.1 htag, rfl⟩
          · cases h
        · cases h
    · cases h
  · rintro ⟨rfl, block, hparse, htag, hcontents⟩
    obtain ⟨pem, der, fields, hsize, hread⟩ := r
    subst hcontents
    unfold ofPem
    rw [dif_pos hsize, hparse]
    simp only [List.contains_iff_mem.2 htag, if_true]
    split
    · rename_i found hfound
      cases hfound.symm.trans hread
      rfl
    · rename_i hnone
      cases hnone.symm.trans hread

/-- A request that was read has the text it was read from. -/
theorem pem_of_ofPem {text : String} {r : SigningRequest} (h : ofPem text = .ok r) :
    r.pem = text :=
  (ofPem_eq_ok_iff.1 h).1

-- ================================================================= blocks

/-- The tag of blocks that are made. -/
def blockTag : String := "CERTIFICATE REQUEST"

/-- The block of bytes that can be read is read as a request, if it is not too large. -/
theorem ofPem_block {der : Bytes} {fields : Fields}
    (hread : (Fields.read der).map (·.1) = some fields)
    (hsize : Utf8.size (Pem.encode .lf ⟨blockTag, der⟩) ≤ Limits.certificateSize) :
    ofPem (Pem.encode .lf ⟨blockTag, der⟩)
      = .ok ⟨Pem.encode .lf ⟨blockTag, der⟩, der, fields, hsize, hread⟩ := by
  have hparse : Pem.parse (Pem.encode .lf ⟨blockTag, der⟩) = .ok ⟨blockTag, der⟩ :=
    Pem.parse_encode (show blockTag ≠ "" by decide) (show '-' ∉ blockTag.toList by decide) .lf
  exact ofPem_eq_ok_iff.2 ⟨rfl, ⟨blockTag, der⟩, hparse, List.mem_cons_self, rfl⟩

/-- The block of bytes takes at most four times their place, and a little more. -/
theorem size_block (der : Bytes) :
    Utf8.size (Pem.encode .lf ⟨blockTag, der⟩) ≤ 4 * der.length + 82 := by
  have hlength : blockTag.toList.length = 19 := by decide
  have h := Pem.size_encode_le (p := ⟨blockTag, der⟩)
    (Utf8.ascii_of_all (show blockTag.toList.all _ = true by decide +kernel)) .lf
  rw [hlength] at h
  exact h

theorem size_block_le {der : Bytes} (hsize : 4 * der.length + 82 ≤ Limits.certificateSize) :
    Utf8.size (Pem.encode .lf ⟨blockTag, der⟩) ≤ Limits.certificateSize :=
  Nat.le_trans (size_block der) hsize

/-- The request that comes as the block of bytes. -/
def ofDer (der : Bytes) (hread : ((Fields.read der).map (·.1)).isSome)
    (hsize : 4 * der.length + 82 ≤ Limits.certificateSize) : SigningRequest where
  pem := Pem.encode .lf ⟨blockTag, der⟩
  der := der
  fields := ((Fields.read der).map (·.1)).get hread
  pem_size_le := size_block_le hsize
  read_der := (Option.some_get hread).symm

/-- A request that comes as the block of bytes is read from that block. -/
theorem ofPem_ofDer {der : Bytes} (hread : ((Fields.read der).map (·.1)).isSome)
    (hsize : 4 * der.length + 82 ≤ Limits.certificateSize) :
    ofPem (ofDer der hread hsize).pem = .ok (ofDer der hread hsize) :=
  ofPem_block (Option.some_get hread).symm (size_block_le hsize)

/-- A small request, for a key of kind Ed25519. -/
def edwardsDer : Bytes :=
  Bytes.ofNat 36 0x30818b303f020100300c310a300806035504030c0168302a300506032b65700321003ee2
    ++ Bytes.ofNat 36 0xa8a7283cb2fd728943daa127ef09e483071a8b4bc699ba4522f09b14cfdea00030050603
    ++ Bytes.ofNat 36 0x2b6570034100f957b75803a8bb06cb39ccd187fe6f1ddf55d80088c33ef4bebfb32d4cca
    ++ Bytes.ofNat 34 0x80183846db660c7732f320f0a53866de5afbdb09bfc7c0070c916503bd3fb873ea09

def edwards : SigningRequest := ofDer edwardsDer (by decide +kernel) (by decide +kernel)

theorem ofPem_edwards : ofPem edwards.pem = .ok edwards := ofPem_ofDer _ _

-- =================================================================== keys

/-- The fields are read one behind the other from the contents of an element, which is what
is signed. -/
structure Fields.InPart (f : Fields) (part : Der.Element) : Prop where
  fields : ∃ b1 b2 b3 attributes, Der.readSmallNat part.contents = some (f.version, b1)
    ∧ Name.read b1 = some (f.subject, b2) ∧ PublicKeyInfo.read b2 = some (f.publicKey, b3)
    ∧ readAttributes? b3 = some attributes
    ∧ f.extensions = ((attributes.filterMap id).head?).getD []
  signed : f.signed = ⟨part.encoded, f.publicKey.algorithm, []⟩

/-- The signed part is read exactly when its fields are, in order, from one sequence. -/
theorem Fields.readSignedPart_eq_some_iff {bs rest : Bytes} {f : Fields} :
    readSignedPart bs = some (f, rest)
      ↔ ∃ part, Der.readNumbered Der.TagNumber.sequence bs = some (part, rest)
        ∧ f.InPart part := by
  simp only [readSignedPart, Option.bind_eq_bind]
  constructor
  · intro h
    obtain ⟨⟨part, after⟩, hpart, h⟩ := Option.bind_eq_some_iff.1 h
    obtain ⟨⟨version, b1⟩, hversion, h⟩ := Option.bind_eq_some_iff.1 h
    obtain ⟨⟨subject, b2⟩, hsubject, h⟩ := Option.bind_eq_some_iff.1 h
    obtain ⟨⟨key, b3⟩, hkey, h⟩ := Option.bind_eq_some_iff.1 h
    obtain ⟨attributes, hattributes, h⟩ := Option.bind_eq_some_iff.1 h
    cases h
    exact ⟨part, hpart, ⟨b1, b2, b3, attributes, hversion, hsubject, hkey, hattributes, rfl⟩, rfl⟩
  · rintro ⟨part, hpart, ⟨b1, b2, b3, attributes, hversion, hsubject, hkey, hattributes,
      hextensions⟩, hsigned⟩
    simp only [hpart, hversion, hsubject, hkey, hattributes, Option.bind_some, ← hextensions,
      ← hsigned]
    rfl

/-- The key of a request was read from bytes inside it. -/
theorem Fields.publicKey_of_read {der rest : Bytes} {f : Fields}
    (h : read der = some (f, rest)) :
    ∃ bs left, PublicKeyInfo.read bs = some (f.publicKey, left) := by
  simp only [read, Der.readSequence, Der.readInside, Option.bind_eq_bind] at h
  obtain ⟨⟨outer, after⟩, -, h⟩ := Option.bind_eq_some_iff.1 h
  obtain ⟨⟨whole, left⟩, hwhole, h⟩ := Option.bind_eq_some_iff.1 h
  obtain ⟨⟨fields, b1⟩, hsigned, hwhole⟩ := Option.bind_eq_some_iff.1 hwhole
  obtain ⟨⟨algorithm, b2⟩, -, hwhole⟩ := Option.bind_eq_some_iff.1 hwhole
  obtain ⟨⟨signature, b3⟩, -, hwhole⟩ := Option.bind_eq_some_iff.1 hwhole
  cases h
  cases hwhole
  obtain ⟨part, -, hin⟩ := readSignedPart_eq_some_iff.1 hsigned
  obtain ⟨c1, c2, c3, -, -, -, hkey, -⟩ := hin.fields
  exact ⟨c2, c3, hkey⟩

/-- A certificate whose key has the encoding of a request's key has that key. -/
theorem fields_publicKey_eq {r : SigningRequest} {c : Certificate}
    (h : c.publicKey = r.publicKey) : c.fields.publicKey = r.fields.publicKey := by
  obtain ⟨_, hc⟩ := c.read_eq_some
  obtain ⟨_, _, hc, -⟩ := Certificate.Fields.publicKey_of_read hc
  obtain ⟨⟨fields, rest⟩, hr, hfields⟩ := Option.map_eq_some_iff.1 r.read_der
  cases hfields
  obtain ⟨_, _, hr⟩ := Fields.publicKey_of_read hr
  exact PublicKeyInfo.eq_of_encoded_eq hc hr h

end Enrollment.SigningRequest
