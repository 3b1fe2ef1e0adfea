/-
Templates: a certificate that was signed from a template holds what the
template says.

`ofTemplate_read` goes through the signed part element by element.  Each
field is what its own reader makes of its own encoding, so what is left to
say of a field is a fact about one reader and one writer, and nothing about
where the field stands.  `ofTemplate_sign` adds the signature: what it is
over, the algorithm it names and its bytes.
-/
import Enrollment.Certificate.Template
import Enrollment.Proofs.Certificate.Basic
import Enrollment.Proofs.Name.Entries

namespace Enrollment

open Der

-- ================================================================ readers

namespace Certificate.Fields

theorem readVersion_write (rest : Bytes) :
    readVersion (tagged 0 (natural 2) ++ rest) = some (2, rest) := by
  have hread := readElement_write (t := .context 0 true) (c := natural 2) (by decide)
    (by decide +kernel) rest
  have hinner : (readSmallNat (natural 2)).map (·.1) = some 2 := by decide +kernel
  simp only [readVersion, readTagged?, tagged, hread, Option.bind_eq_bind, Option.bind_some,
    hinner]
  rfl

theorem readSerial_write {digits : Bytes} (h : digits.length < 2 ^ 64) (rest : Bytes) :
    readSerial (Der.write (.primitive TagNumber.integer) digits ++ rest)
      = some (digits, rest) := by
  have helement := isElement_write (t := .primitive TagNumber.integer) (by decide) h
  have hread := readElement_write (t := .primitive TagNumber.integer) (by decide) h rest
  simp only [readSerial, readLoose_append helement, hread, Option.bind_eq_bind, Option.bind_some]
  rfl

/-- An element with another number is no unique identifier. -/
theorem skipUniqueId_of_ne {number : Nat} {bs rest : Bytes} {e : Element}
    (h : readElement bs = some (e, rest)) (hn : e.tag.number ≠ number) :
    skipUniqueId number bs = some bs := by
  unfold skipUniqueId
  split
  case isTrue => rfl
  case isFalse =>
    simp only [h, Option.bind_eq_bind, Option.bind_some]
    rw [if_pos (Or.inl hn)]
    rfl

end Certificate.Fields

-- ================================================================= fields

theorem Der.natural_eq_write (n : Nat) :
    ∃ digits, natural n = Der.write (.primitive TagNumber.integer) digits :=
  ⟨_, rfl⟩

theorem Entries.isElement_write {entries : Entries} {encoded : Bytes}
    (h : entries.write? = some encoded) (hlen : encoded.length < 2 ^ 64) : IsElement encoded := by
  obtain rfl := write?_eq_some h
  exact isElement_sequence hlen

/-- What holds of the fields of a certificate that was made from a template:
what is signed is the part that the template gives, and each field is read
from its own encoding. -/
structure Certificate.Fields.OfTemplate (f : Certificate.Fields) (t : Template) (label : Bytes) :
    Prop where
  content : t.signedPart? label = some f.signed.content
  length_content_lt : f.signed.content.length < 2 ^ 64
  version : f.version = 2
  serial : natural t.serial = Der.write (.primitive TagNumber.integer) f.serial
  innerAlgorithm : AlgorithmId.read label = some (f.innerAlgorithm, [])
  issuer : ∃ encoded, t.issuer.write? = some encoded ∧ Name.read encoded = some (f.issuer, [])
  validity : Certificate.Fields.readValidity
      (Der.sequence [ZonedTime.write t.notBefore, ZonedTime.write t.notAfter])
    = some ((f.notBefore, f.notAfter), [])
  subject : ∃ encoded, t.subject.write? = some encoded ∧ Name.read encoded = some (f.subject, [])
  publicKey : PublicKeyInfo.read t.publicKey = some (f.publicKey, [])
  extensions : Extension.readList (Der.sequence (t.extensions.map Extension.encode))
    = some (f.extensions, [])

namespace Certificate.Fields

variable {t : Template} {label part : Bytes} {f : Fields}

/-- The extensions at the end of a signed part are read from their list. -/
theorem readExtensions_tagged {list : Bytes} (hlen : (tagged 3 list).length < 2 ^ 64)
    {extensions : List Extension}
    (h : readExtensions (tagged 3 list) = some extensions) :
    Extension.readList list = some (extensions, []) := by
  have hcontents := Nat.lt_trans (length_lt_write _ _) hlen
  have hheader := readHeader_write (t := .context 3 true) (by decide) hcontents list
  simp only [readExtensions, tagged, Der.write, hheader, Option.bind_eq_bind, Option.bind_some] at h
  have hne : ((Tag.context 3 true).byte :: writeLength list.length ++ list).isEmpty = false := rfl
  rw [hne, if_neg (by decide), if_neg (by decide)] at h
  obtain ⟨⟨found, after⟩, hfound, hend⟩ := Option.bind_eq_some_iff.1 h
  split at hend
  case isTrue hempty =>
    have hafter : after = [] := List.isEmpty_iff.1 hempty
    subst hafter
    cases hend
    exact hfound
  case isFalse => cases hend

/-- The elements that a template gives to be signed. -/
def partsOf (t : Template) (label issuer subject : Bytes) : List Bytes :=
  [tagged 0 (natural 2), natural t.serial, label, issuer,
    Der.sequence [ZonedTime.write t.notBefore, ZonedTime.write t.notAfter], subject, t.publicKey,
    tagged 3 (Der.sequence (t.extensions.map Extension.encode))]

/-- What is signed is the sequence of the parts of a template, whose names can be written. -/
theorem signedPart?_eq_some (hpart : t.signedPart? label = some part) :
    ∃ issuer subject, t.issuer.write? = some issuer ∧ t.subject.write? = some subject
      ∧ part = Der.sequence (partsOf t label issuer subject) := by
  simp only [Template.signedPart?, Option.bind_eq_bind] at hpart
  obtain ⟨issuer, hissuer, hpart⟩ := Option.bind_eq_some_iff.1 hpart
  obtain ⟨subject, hsubject, hpart⟩ := Option.bind_eq_some_iff.1 hpart
  cases hpart
  exact ⟨issuer, subject, hissuer, hsubject, rfl⟩

/-- The lengths of these elements can be written. -/
structure PartsFit (t : Template) (issuer subject : Bytes) : Prop where
  serial : (natural t.serial).length < 2 ^ 64
  issuer : issuer.length < 2 ^ 64
  validity : (Der.sequence [ZonedTime.write t.notBefore, ZonedTime.write t.notAfter]).length
    < 2 ^ 64
  subject : subject.length < 2 ^ 64
  extensions : (tagged 3 (Der.sequence (t.extensions.map Extension.encode))).length < 2 ^ 64

/-- Where the whole is short enough, its parts are. -/
theorem partsFit_of_length_lt {issuer subject : Bytes}
    (hlen : (Der.sequence (partsOf t label issuer subject)).length < 2 ^ 64) :
    PartsFit t issuer subject := by
  have hparts : ∀ p ∈ partsOf t label issuer subject, p.length < 2 ^ 64 :=
    fun p hp => Nat.lt_trans (length_lt_sequence hp) hlen
  simp only [partsOf, List.mem_cons, List.not_mem_nil, or_false, forall_eq_or_imp,
    forall_eq] at hparts
  obtain ⟨-, hserial, -, hissuer, hvalidity, hsubject, -, hextensions⟩ := hparts
  exact ⟨hserial, hissuer, hvalidity, hsubject, hextensions⟩

/-- What was signed of a certificate is made of elements that fit. -/
theorem OfTemplate.exists_parts (h : f.OfTemplate t label) :
    ∃ issuer subject, t.issuer.write? = some issuer ∧ t.subject.write? = some subject
      ∧ PartsFit t issuer subject := by
  obtain ⟨issuer, subject, hissuer, hsubject, hparts⟩ := signedPart?_eq_some h.content
  have hlen := h.length_content_lt
  rw [hparts] at hlen
  exact ⟨issuer, subject, hissuer, hsubject, partsFit_of_length_lt hlen⟩

/-- The public key of a template is part of what is signed. -/
theorem length_publicKey_lt (hpart : t.signedPart? label = some part) :
    t.publicKey.length < part.length := by
  obtain ⟨issuer, subject, -, -, rfl⟩ := signedPart?_eq_some hpart
  refine length_lt_sequence ?_
  simp only [partsOf, List.mem_cons, true_or, or_true]

/-- The names in a certificate have a set for each entry of the template's names. -/
theorem OfTemplate.names_eq (h : f.OfTemplate t label) :
    (∃ encoded, f.issuer = ⟨t.issuer.map fun e => [e.attribute], encoded⟩)
      ∧ ∃ encoded, f.subject = ⟨t.subject.map fun e => [e.attribute], encoded⟩ := by
  obtain ⟨issuer, subject, hissuer, hsubject, hfit⟩ := h.exists_parts
  obtain ⟨encodedIssuer, hwriteIssuer, hreadIssuer⟩ := h.issuer
  obtain ⟨encodedSubject, hwriteSubject, hreadSubject⟩ := h.subject
  cases hissuer.symm.trans hwriteIssuer
  cases hsubject.symm.trans hwriteSubject
  exact ⟨⟨_, Entries.eq_of_read hissuer hfit.issuer hreadIssuer⟩,
    _, Entries.eq_of_read hsubject hfit.subject hreadSubject⟩

/-- A signed part is read as the fields of its template. -/
theorem ofTemplate_read (hpart : t.signedPart? label = some part) (hlabel : IsElement label)
    (hkey : IsElement t.publicKey) (hlen : part.length < 2 ^ 64) {rest left : Bytes}
    (h : readSignedPart (part ++ rest) = some (f, left)) :
    left = rest ∧ f.signed.content = part ∧ f.OfTemplate t label := by
  obtain ⟨issuer, subject, hissuer, hsubject, hparts⟩ := signedPart?_eq_some hpart
  subst hparts
  have hnumbered := readNumbered_sequence (Nat.lt_trans (length_lt_write _ _) hlen) rest
  simp only [readSignedPart, Option.bind_eq_bind] at h
  obtain ⟨⟨whole, after⟩, hwhole, h⟩ := Option.bind_eq_some_iff.1 h
  cases hwhole.symm.trans hnumbered
  obtain ⟨⟨version, b1⟩, hversion, h⟩ := Option.bind_eq_some_iff.1 h
  obtain ⟨⟨serial, b2⟩, hserial, h⟩ := Option.bind_eq_some_iff.1 h
  obtain ⟨⟨inner, b3⟩, h3, h⟩ := Option.bind_eq_some_iff.1 h
  obtain ⟨⟨issuerName, b4⟩, h4, h⟩ := Option.bind_eq_some_iff.1 h
  obtain ⟨⟨⟨notBefore, notAfter⟩, b5⟩, h5, h⟩ := Option.bind_eq_some_iff.1 h
  obtain ⟨⟨subjectName, b6⟩, h6, h⟩ := Option.bind_eq_some_iff.1 h
  obtain ⟨⟨publicKey, b7⟩, h7, h⟩ := Option.bind_eq_some_iff.1 h
  obtain ⟨b8, hskip1, h⟩ := Option.bind_eq_some_iff.1 h
  obtain ⟨b9, hskip2, h⟩ := Option.bind_eq_some_iff.1 h
  obtain ⟨extensions, hextensions, h⟩ := Option.bind_eq_some_iff.1 h
  cases h
  -- each part is an element, so each reader reads its own part alone
  obtain ⟨hserialLen, hissuerLen, hvalidityLen, hsubjectLen, hlistLen⟩ :=
    partsFit_of_length_lt hlen
  simp only [partsOf, List.flatten_cons, List.flatten_nil, List.append_nil] at hversion
  rw [readVersion_write] at hversion
  cases hversion
  obtain ⟨digits, hdigits⟩ := natural_eq_write t.serial
  rw [hdigits] at hserialLen hserial
  rw [readSerial_write (Nat.lt_trans (length_lt_write _ _) hserialLen)] at hserial
  cases hserial
  obtain ⟨hinner, rfl⟩ := AlgorithmId.read_readsOne.of_append hlabel h3
  obtain ⟨hissuerName, rfl⟩ :=
    Name.read_readsOne.of_append (Entries.isElement_write hissuer hissuerLen) h4
  obtain ⟨hvalidity, rfl⟩ :=
    readValidity_readsOne.of_append (isElement_sequence hvalidityLen) h5
  obtain ⟨hsubjectName, rfl⟩ :=
    Name.read_readsOne.of_append (Entries.isElement_write hsubject hsubjectLen) h6
  obtain ⟨hpublicKey, rfl⟩ := PublicKeyInfo.read_readsOne.of_append hkey h7
  have hlist := Nat.lt_trans (length_lt_write _ _) hlistLen
  have hlast := readElement_write (t := .context 3 true) (by decide) hlist []
  rw [List.append_nil] at hlast
  cases (skipUniqueId_of_ne hlast (show 3 ≠ 1 by decide)).symm.trans hskip1
  cases (skipUniqueId_of_ne hlast (show 3 ≠ 2 by decide)).symm.trans hskip2
  exact ⟨rfl, rfl, ⟨hpart, hlen, rfl, hdigits, hinner, ⟨issuer, hissuer, hissuerName⟩, hvalidity,
    ⟨subject, hsubject, hsubjectName⟩, hpublicKey,
    readExtensions_tagged hlistLen hextensions⟩⟩

end Certificate.Fields

-- ============================================================= signatures

namespace KeyKind

/-- The algorithm that signatures by a kind of key are labelled with. -/
def signatureAlgorithm : KeyKind → AlgorithmId
  | .ec .p256 => ⟨SignatureId.ecdsaSha256, none⟩
  | .ec .p384 => ⟨SignatureId.ecdsaSha384, none⟩
  | .ed25519 => ⟨SignatureId.ed25519, none⟩
  | .rsa => ⟨SignatureId.rsaSha256, some ⟨.primitive TagNumber.null, [], null⟩⟩

theorem read_signatureLabel (kind : KeyKind) :
    AlgorithmId.read kind.signatureLabel = some (kind.signatureAlgorithm, []) := by
  cases kind with
  | ec curve => cases curve <;> decide +kernel
  | ed25519 => decide +kernel
  | rsa => decide +kernel

theorem isElement_signatureLabel (kind : KeyKind) : IsElement kind.signatureLabel := by
  cases kind with
  | ec curve => cases curve <;> exact isElement_sequence (by decide +kernel)
  | ed25519 => exact isElement_sequence (by decide +kernel)
  | rsa => exact isElement_sequence (by decide +kernel)

/-- The labels of a key and of its signatures together stand for the scheme that
the key signs by. -/
theorem scheme_of_labels {secret : SecretKey} {k : PublicKeyInfo}
    (h : k.algorithm = (ofSecret secret).keyAlgorithm) :
    Scheme.of? (ofSecret secret).signatureAlgorithm k = some secret.scheme := by
  obtain ⟨algorithm, key, encoded⟩ := k
  cases h
  cases secret with
  | ecdsa curve scalar => cases curve <;> rfl
  | ed25519 seed => rfl
  | rsa n e d => rfl

end KeyKind

/-- What a key has signed verifies under its public key. -/
theorem Signed.verify_sign [Signatures] {key : KeyPair} {k : PublicKeyInfo}
    (hsound : key.secret.Sound) (hpublic : key.publicKey = Signatures.publicKey key.secret)
    (halgorithm : k.algorithm = key.kind.keyAlgorithm) (hkey : k.key = key.publicKey)
    (part : Bytes) :
    Signed.verify ⟨part, key.kind.signatureAlgorithm, key.sign part⟩ k = .ok () := by
  have hscheme : Scheme.of? key.kind.signatureAlgorithm k = some key.secret.scheme :=
    KeyKind.scheme_of_labels halgorithm
  simp only [Signed.verify, hscheme]
  rw [hkey, hpublic]
  exact if_pos (hsound part)

namespace Certificate.Fields

/-- The fields of a certificate that was signed from a template with a public key
of some kind. -/
theorem ofTemplate_sign [Signatures] {t : Template} {key : KeyPair} {der rest : Bytes}
    {f : Fields} {kind : KeyKind} {bits : Bytes} (hsign : t.sign? key = some der)
    (hkey : t.publicKey = kind.encodePublic bits) (hlen : der.length < 2 ^ 64)
    (h : read der = some (f, rest)) :
    f.OfTemplate t key.kind.signatureLabel
      ∧ f.publicKey = ⟨kind.keyAlgorithm, bits, kind.encodePublic bits⟩
      ∧ f.signed = ⟨f.signed.content, key.kind.signatureAlgorithm, key.sign f.signed.content⟩ := by
  simp only [Template.sign?, Option.bind_eq_bind] at hsign
  obtain ⟨part, hpart, hder⟩ := Option.bind_eq_some_iff.1 hsign
  cases hder
  have hparts : part.length < 2 ^ 64 :=
    Nat.lt_trans (length_lt_sequence List.mem_cons_self) hlen
  have hbitsLen : (Der.bits (key.sign part)).length < 2 ^ 64 :=
    Nat.lt_trans (length_lt_sequence
      (List.mem_cons_of_mem _ (List.mem_cons_of_mem _ List.mem_cons_self))) hlen
  have hlabel := KeyKind.isElement_signatureLabel key.kind
  have hkeyLen : (kind.encodePublic bits).length < 2 ^ 64 :=
    hkey ▸ Nat.lt_trans (length_publicKey_lt hpart) hparts
  have helement : IsElement t.publicKey := hkey ▸ KeyKind.isElement_encodePublic hkeyLen
  have hcontents := Nat.lt_trans (length_lt_write _ _) hlen
  rw [← List.append_nil (Der.sequence _)] at h
  obtain ⟨-, left, hinside⟩ := readSequence_eq_some hcontents h
  simp only [List.flatten_cons, List.flatten_nil, List.append_nil, Option.bind_eq_bind] at hinside
  obtain ⟨⟨fields, b1⟩, h1, hinside⟩ := Option.bind_eq_some_iff.1 hinside
  obtain ⟨⟨algorithm, b2⟩, h2, hinside⟩ := Option.bind_eq_some_iff.1 hinside
  obtain ⟨⟨signature, b3⟩, h3, hinside⟩ := Option.bind_eq_some_iff.1 hinside
  cases hinside
  -- the signed part, the label of the signature and its bits, each read alone
  obtain ⟨rfl, hcontent, hfields⟩ := ofTemplate_read hpart hlabel helement hparts h1
  obtain ⟨halgorithm, rfl⟩ := AlgorithmId.read_readsOne.of_append hlabel h2
  cases halgorithm.symm.trans (KeyKind.read_signatureLabel key.kind)
  have hbits := length_lt_write (.primitive TagNumber.bitString) (0 :: key.sign part)
  have hread := readBits_bits (Nat.lt_trans hbits hbitsLen) []
  rw [List.append_nil] at hread
  cases hread.symm.trans h3
  have hpublic := KeyKind.encodePublic_read hkeyLen []
  rw [List.append_nil, ← hkey] at hpublic
  refine ⟨⟨hfields.content, hfields.length_content_lt, hfields.version, hfields.serial,
    hfields.innerAlgorithm, hfields.issuer, hfields.validity, hfields.subject, hfields.publicKey,
    hfields.extensions⟩, ?_, ?_⟩
  · have hsame := hfields.publicKey.symm.trans hpublic
    rw [hkey] at hsame
    simp only [Option.some.injEq, Prod.mk.injEq, and_true] at hsame
    exact hsame
  · simp only [hcontent]

end Certificate.Fields

/-- A template can be signed if both of its names can be written. -/
theorem Template.isSome_sign?_iff [Signatures] {t : Template} {key : KeyPair} :
    (t.sign? key).isSome ↔ t.issuer.write?.isSome ∧ t.subject.write?.isSome := by
  unfold sign? signedPart?
  cases t.issuer.write? with
  | none => simp
  | some issuer =>
    cases t.subject.write? with
    | none => simp
    | some subject => simp

/-- A certificate that was signed from a template, read as one. -/
theorem Certificate.ofTemplate [Signatures] {t : Template} {key : KeyPair} {der : Bytes}
    {c : Certificate} {kind : KeyKind} {bits : Bytes} (hsign : t.sign? key = some der)
    (hkey : t.publicKey = kind.encodePublic bits) (h : ofDer der = .ok c) :
    c.fields.OfTemplate t key.kind.signatureLabel
      ∧ c.fields.publicKey = ⟨kind.keyAlgorithm, bits, kind.encodePublic bits⟩
      ∧ c.fields.signed = ⟨c.fields.signed.content, key.kind.signatureAlgorithm,
          key.sign c.fields.signed.content⟩ := by
  obtain ⟨rest, hread⟩ := c.read_eq_some
  have hlen := c.length_der_lt
  rw [der_of_ofDer h] at hread hlen
  exact Fields.ofTemplate_sign hsign hkey hlen hread

end Enrollment
