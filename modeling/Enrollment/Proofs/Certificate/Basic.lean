/-
Certificates and chains by their bytes.

A certificate is its bytes, so reading the bytes or the block of one gives
it back (`ofDer_der`, `ofPem_pem`), and a chain that is presented as the
bytes of its certificates is captured as it is (`ofDers_toList`).
-/
import Enrollment.Certificate.Chain
import Enrollment.Proofs.Certificate.Fields
import Enrollment.Proofs.Except
import Enrollment.Proofs.Pem

namespace Enrollment

-- =========================================================== certificates

namespace Certificate

/-- The bytes of a certificate are read as it. -/
theorem ofDer_der (c : Certificate) : ofDer c.der = .ok c := by
  unfold ofDer
  rw [dif_pos c.der_length_le]
  split
  · rename_i fields h
    exact congrArg Except.ok (ext_der rfl)
  · rename_i h
    rw [c.read_der] at h
    cases h

/-- The certificate that bytes are. -/
def ofBytes (der : Bytes) (hread : ((Fields.read der).map (·.1)).isSome)
    (hlength : der.length ≤ Limits.certificateSize) : Certificate where
  der := der
  fields := ((Fields.read der).map (·.1)).get hread
  der_length_le := hlength
  read_der := (Option.some_get hread).symm

theorem der_of_ofDer {der : Bytes} {c : Certificate} (h : ofDer der = .ok c) : c.der = der := by
  unfold ofDer at h
  split at h
  · split at h
    · cases h
      rfl
    · cases h
  · cases h

/-- A certificate is read from its bytes, and from no others. -/
theorem ofDer_eq_ok_iff {der : Bytes} {c : Certificate} : ofDer der = .ok c ↔ c.der = der := by
  constructor
  · exact der_of_ofDer
  · rintro rfl
    exact c.ofDer_der

/-- Bytes that are not read as a certificate are against the protocol. -/
theorem kind_of_ofDer {der : Bytes} {failure : Failure} (h : ofDer der = .error failure) :
    failure.kind = .protocol := by
  unfold ofDer at h
  split at h
  · split at h
    · cases h
    · cases h
      rfl
  · cases h
    rfl

/-- A certificate is read from a text exactly when the first block has the tag and its bytes. -/
theorem ofPem_eq_ok_iff {text : String} {c : Certificate} :
    ofPem text = .ok c
      ↔ ∃ block, Pem.parse text = .ok block ∧ block.tag = blockTag ∧ c.der = block.contents := by
  unfold ofPem
  split
  case h_1 fault hfault =>
    refine ⟨fun h => (nomatch h), ?_⟩
    rintro ⟨block, hblock, -⟩
    cases hfault.symm.trans hblock
  case h_2 block hblock =>
    constructor
    · intro h
      split at h
      case isTrue htag => exact ⟨block, hblock, htag, ofDer_eq_ok_iff.1 h⟩
      case isFalse => cases h
    · rintro ⟨other, hother, htag, hder⟩
      cases hblock.symm.trans hother
      exact (if_pos htag).trans (ofDer_eq_ok_iff.2 hder)

/-- So is a text of which none is read. -/
theorem kind_of_ofPem {text : String} {failure : Failure} (h : ofPem text = .error failure) :
    failure.kind = .protocol := by
  unfold ofPem at h
  split at h
  · cases h
    rfl
  · split at h
    · exact kind_of_ofDer h
    · cases h
      rfl

/-- The block of a certificate is read as it. -/
theorem ofPem_pem (c : Certificate) : ofPem c.pem = .ok c := by
  have hparse : Pem.parse c.pem = .ok ⟨blockTag, c.der⟩ :=
    Pem.parse_encode (show blockTag ≠ "" by decide) (show '-' ∉ blockTag.toList by decide) .crlf
  rw [ofPem, hparse]
  show (if blockTag = blockTag then ofDer c.der else _) = _
  rw [if_pos rfl, ofDer_der]

/-- The block of a certificate takes at most four times its place, and a little
more. -/
theorem size_pem_le (c : Certificate) : Utf8.size c.pem ≤ 4 * c.der.length + 66 := by
  have hlength : blockTag.toList.length = 11 := by decide
  have h := Pem.size_encode_le (p := ⟨blockTag, c.der⟩)
    (Utf8.ascii_of_all (show blockTag.toList.all _ = true by decide +kernel)) .crlf
  rw [hlength] at h
  exact h

theorem read_eq_some (c : Certificate) : ∃ rest, Fields.read c.der = some (c.fields, rest) := by
  obtain ⟨⟨fields, rest⟩, hread, hfields⟩ := Option.map_eq_some_iff.1 c.read_der
  exact ⟨rest, hfields ▸ hread⟩

theorem length_der_lt (c : Certificate) : c.der.length < 2 ^ 64 := by
  have h := c.der_length_le
  simp only [Limits.certificateSize] at h
  omega

/-- The key of a certificate is told by its encoding. -/
theorem publicKey_eq_of_encoded (c : Certificate) {kind : KeyKind} {key : Bytes}
    (h : c.publicKey = kind.encodePublic key) :
    c.fields.publicKey = ⟨kind.keyAlgorithm, key, kind.encodePublic key⟩ := by
  obtain ⟨rest, hread⟩ := c.read_eq_some
  obtain ⟨bs, left, hkey, hle⟩ := Fields.publicKey_of_read hread
  -- the encoding was read from inside the certificate, so it is no longer
  have hlen : (kind.encodePublic key).length < 2 ^ 64 := by
    rw [← h]
    exact Nat.lt_of_le_of_lt (Nat.le_trans (PublicKeyInfo.length_encoded_le hkey) hle)
      c.length_der_lt
  exact PublicKeyInfo.eq_of_encoded_eq hkey (KeyKind.encodePublic_read hlen []) h

end Certificate

-- ================================================================= chains

namespace Chain

theorem ofList_toList (c : Chain) : ofList c.toList = .ok c := by
  rw [toList, ofList, dif_pos c.length_le]

theorem ofList_eq_ok_iff {certificates : List Certificate} {c : Chain} :
    ofList certificates = .ok c ↔ c.toList = certificates := by
  constructor
  · intro h
    cases certificates with
    | nil => cases h
    | cons leaf issuers =>
      rw [ofList] at h
      split at h
      case isTrue =>
        cases h
        rfl
      case isFalse => cases h
  · rintro rfl
    exact ofList_toList c

theorem mapM_ofDer (certificates : List Certificate) :
    (certificates.map (·.der)).mapM Certificate.ofDer = .ok certificates := by
  have hread : (certificates.map (·.der)).mapM Certificate.ofDer
      = .ok (certificates.map fun c => c) :=
    mapM_map_eq_pure fun c _ => c.ofDer_der
  rw [hread, List.map_id']

/-- The bytes of a chain's certificates are read as the chain. -/
theorem ofDers_toList (c : Chain) : ofDers (c.toList.map (·.der)) = .ok c := by
  rw [ofDers, mapM_ofDer]
  exact ofList_toList c

/-- Certificates that were read one by one have the bytes they were read from. -/
theorem map_der_of_mapM {ders : List Bytes} {certificates : List Certificate}
    (h : ders.mapM Certificate.ofDer = .ok certificates) : certificates.map (·.der) = ders := by
  have hall := forall₂_of_mapM h
  clear h
  induction hall with
  | nil => rfl
  | cons hc _ ih => rw [List.map_cons, Certificate.der_of_ofDer hc, ih]

/-- Byte strings are read as a chain exactly when they are those of its
certificates. -/
theorem ofDers_eq_ok_iff {ders : List Bytes} {c : Chain} :
    ofDers ders = .ok c ↔ c.toList.map (·.der) = ders := by
  constructor
  · intro h
    obtain ⟨certificates, hread, hlist⟩ := bind_eq_ok h
    rw [ofList_eq_ok_iff.1 hlist]
    exact map_der_of_mapM hread
  · rintro rfl
    exact ofDers_toList c

/-- A chain is read from a text exactly when its certificates are those of the blocks with
the tag. -/
theorem ofPem_eq_ok_iff {text : String} {c : Chain} :
    ofPem text = .ok c
      ↔ ∃ blocks, Pem.parseMany text = .ok blocks
        ∧ c.toList.map (·.der)
          = (blocks.filter (·.tag == Certificate.blockTag)).map (·.contents) := by
  unfold ofPem
  split
  case h_1 fault hfault =>
    refine ⟨fun h => (nomatch h), ?_⟩
    rintro ⟨blocks, hblocks, -⟩
    cases hfault.symm.trans hblocks
  case h_2 blocks hblocks =>
    rw [ofDers_eq_ok_iff]
    constructor
    · intro h
      exact ⟨blocks, hblocks, h⟩
    · rintro ⟨other, hother, hders⟩
      cases hblocks.symm.trans hother
      exact hders

/-- What a text of blocks gives are the contents of those that are certificates. -/
theorem ofPem_document {blocks : List (Pem.LineEnd × Pem)} (hne : ∀ b ∈ blocks, b.2.tag ≠ "")
    (htag : ∀ b ∈ blocks, '-' ∉ b.2.tag.toList) :
    ofPem (Pem.document blocks)
      = ofDers (((blocks.map (·.2)).filter (·.tag == Certificate.blockTag)).map (·.contents)) := by
  rw [ofPem, Pem.parseMany_document hne htag]

/-- The blocks of certificates as they are written. -/
def blocksOf (certificates : List Certificate) : List (Pem.LineEnd × Pem) :=
  certificates.map fun x => (.crlf, ⟨Certificate.blockTag, x.der⟩)

theorem document_blocksOf (certificates : List Certificate) :
    Pem.document (blocksOf certificates) = String.join (certificates.map Certificate.pem) := by
  rw [Pem.document, blocksOf, List.map_map]
  rfl

theorem tag_of_mem_blocksOf {certificates : List Certificate} {b : Pem.LineEnd × Pem}
    (h : b ∈ blocksOf certificates) : b.2.tag = Certificate.blockTag := by
  obtain ⟨x, -, rfl⟩ := List.mem_map.1 h
  rfl

theorem tag_ne_of_mem_blocksOf {certificates : List Certificate} :
    ∀ b ∈ blocksOf certificates, b.2.tag ≠ "" := by
  intro b hb
  rw [tag_of_mem_blocksOf hb]
  decide

theorem dash_not_mem_of_mem_blocksOf {certificates : List Certificate} :
    ∀ b ∈ blocksOf certificates, '-' ∉ b.2.tag.toList := by
  intro b hb
  rw [tag_of_mem_blocksOf hb]
  decide

/-- All of them are certificates, and their contents are the bytes of these. -/
theorem contents_blocksOf (certificates : List Certificate) :
    (((blocksOf certificates).map (·.2)).filter (·.tag == Certificate.blockTag)).map (·.contents)
      = certificates.map (·.der) := by
  have hall : ((blocksOf certificates).map (·.2)).filter (·.tag == Certificate.blockTag)
      = (blocksOf certificates).map (·.2) := by
    refine List.filter_eq_self.2 fun p hp => ?_
    obtain ⟨b, hb, rfl⟩ := List.mem_map.1 hp
    exact beq_iff_eq.2 (tag_of_mem_blocksOf hb)
  rw [hall, blocksOf, List.map_map, List.map_map]
  rfl

/-- The blocks of a chain are read as the chain. -/
theorem ofPem_pem (c : Chain) : ofPem c.pem = .ok c := by
  rw [pem, ← document_blocksOf,
    ofPem_document tag_ne_of_mem_blocksOf dash_not_mem_of_mem_blocksOf, contents_blocksOf]
  exact ofDers_toList c

/-- The first certificate of a chain was read from the first bytes. -/
theorem leaf_of_ofDers {der : Bytes} {ders : List Bytes} {c : Chain}
    (h : ofDers (der :: ders) = .ok c) : Certificate.ofDer der = .ok c.leaf := by
  have hders := ofDers_eq_ok_iff.1 h
  rw [toList, List.map_cons] at hders
  rw [← (List.cons.inj hders).1]
  exact c.leaf.ofDer_der

-- =================================================== what is not a chain

/-- Byte strings are those of certificates, or some first one is not. -/
theorem exists_unreadable (ders : List Bytes) :
    (∃ certificates : List Certificate, ders = certificates.map (·.der))
      ∨ ∃ (front : List Certificate) (der : Bytes) (rest : List Bytes) (failure : Failure),
          ders = front.map (·.der) ++ der :: rest ∧ Certificate.ofDer der = .error failure := by
  induction ders with
  | nil => exact .inl ⟨[], rfl⟩
  | cons der ders ih =>
    cases hread : Certificate.ofDer der with
    | error failure => exact .inr ⟨[], der, ders, failure, rfl, hread⟩
    | ok c =>
      have hder := Certificate.der_of_ofDer hread
      obtain ⟨certificates, rfl⟩ | ⟨front, other, rest, failure, rfl, hother⟩ := ih
      · exact .inl ⟨c :: certificates, by rw [List.map_cons, hder]⟩
      · exact .inr ⟨c :: front, other, rest, failure,
          by rw [List.map_cons, List.cons_append, hder], hother⟩

/-- The failure of the first byte string that is no certificate is that of all. -/
theorem ofDers_of_unreadable {der : Bytes} {failure : Failure}
    (h : Certificate.ofDer der = .error failure) (front : List Certificate) (rest : List Bytes) :
    ofDers (front.map (·.der) ++ der :: rest) = .error failure := by
  have hread : (front.map (·.der) ++ der :: rest).mapM Certificate.ofDer
      = .error failure := by
    rw [List.mapM_append, mapM_ofDer, List.mapM_cons, h]
    rfl
  rw [ofDers, hread]
  rfl

/-- More certificates than a chain may have are none. -/
theorem ofDers_of_length_lt {certificates : List Certificate}
    (h : Limits.chainLength < certificates.length) :
    ofDers (certificates.map (·.der)) = .error (.protocol (.longChain certificates.length)) := by
  rw [ofDers, mapM_ofDer]
  cases certificates with
  | nil => cases h
  | cons leaf issuers => exact dif_neg (Nat.not_le.2 h)

/-- Up to so many certificates, but at least one, are a chain. -/
theorem exists_toList_eq {certificates : List Certificate} (hne : certificates ≠ [])
    (h : certificates.length ≤ Limits.chainLength) : ∃ c : Chain, c.toList = certificates := by
  cases certificates with
  | nil => exact absurd rfl hne
  | cons leaf issuers => exact ⟨⟨leaf, issuers, h⟩, rfl⟩

-- =================================================================== links

variable [Signatures] {child parent : Certificate}

/-- Where the names agree, only the signature is left to check. -/
theorem checkLink_of_eq (h : child.issuer = parent.subject) :
    checkLink child parent = child.verifySignedBy parent :=
  if_neg (not_not.2 h)

/-- Where they do not, the link is broken, whatever the signature is. -/
theorem checkLink_of_ne (h : child.issuer ≠ parent.subject) :
    checkLink child parent = .error (.security (.brokenLink child.issuer parent.subject)) :=
  if_pos h

end Chain

end Enrollment
