/-
Templates: what is signed from one can be read.

A field that was written is read back by its own reader, so the fields are read
one after the other, and a signed template of a size that is allowed is a
certificate (`exists_ofDer_sign`).  What could fail are the two times: only
those up to the end of the year 9999 have a form that is read.
-/
import Enrollment.Proofs.Certificate.Extension
import Enrollment.Proofs.Der.Time
import Enrollment.Proofs.Name.Written

namespace Enrollment

open Der

-- ============================================================= signatures

theorem KeyKind.read_signatureLabel_append (kind : KeyKind) (rest : Bytes) :
    AlgorithmId.read (kind.signatureLabel ++ rest) = some (kind.signatureAlgorithm, rest) := by
  rw [AlgorithmId.read_readsOne.append kind.isElement_signatureLabel, kind.read_signatureLabel]
  rfl

/-- A signed part is read together with the label and the bits of its signature, as
certificates and requests both are. -/
theorem Signed.read_sequence {α β : Type} {inside : Reader α} {part signature : Bytes} {a : α}
    {kind : KeyKind} (make : α → AlgorithmId → Bytes → β)
    (hinside : ∀ rest, inside (part ++ rest) = some (a, rest))
    (hlen : (Der.sequence [part, kind.signatureLabel, Der.bits signature]).length < 2 ^ 64) :
    readSequence (fun bs => do
        let (a, bs) ← inside bs
        let (algorithm, bs) ← AlgorithmId.read bs
        let (signature, bs) ← readBits bs
        return (make a algorithm signature, bs))
      (Der.sequence [part, kind.signatureLabel, Der.bits signature])
      = some (make a kind.signatureAlgorithm signature, []) := by
  have hbitsLen : (Der.bits signature).length < 2 ^ 64 :=
    Nat.lt_trans (length_lt_sequence
      (List.mem_cons_of_mem _ (List.mem_cons_of_mem _ List.mem_cons_self))) hlen
  have hbits := readBits_bits (Nat.lt_trans (length_lt_write _ (0 :: signature)) hbitsLen) []
  rw [List.append_nil] at hbits
  rw [← List.append_nil (Der.sequence _),
    readSequence_sequence _ (Nat.lt_trans (length_lt_write _ _) hlen)]
  simp only [List.flatten_cons, List.flatten_nil, List.append_nil, hinside,
    kind.read_signatureLabel_append, hbits, Option.bind_eq_bind, Option.bind_some]
  rfl

namespace Certificate.Fields

-- ================================================================= fields

/-- A validity is read back, each of its times in the form that its year needs. -/
theorem readValidity_write {start stop : Int} (hstart : start ≤ Time.lastSecond)
    (hstop : stop ≤ Time.lastSecond)
    (hlen : (Der.sequence [ZonedTime.write start, ZonedTime.write stop]).length < 2 ^ 64)
    (rest : Bytes) :
    readValidity (Der.sequence [ZonedTime.write start, ZonedTime.write stop] ++ rest)
      = some ((ZonedTime.readBack start (ZonedTime.isWrittenLong start),
          ZonedTime.readBack stop (ZonedTime.isWrittenLong stop)), rest) := by
  have hread := ZonedTime.read_write hstart
  have hread' := ZonedTime.read_write hstop
  unfold readValidity
  rw [readSequence_sequence _ (Nat.lt_trans (length_lt_write _ _) hlen)]
  simp only [List.flatten_cons, List.flatten_nil, hread, hread', Option.bind_eq_bind,
    Option.bind_some]
  rfl

theorem readExtensions_of_readList {list : Bytes} (hlen : (tagged 3 list).length < 2 ^ 64)
    {extensions : List Extension} (h : Extension.readList list = some (extensions, [])) :
    readExtensions (tagged 3 list) = some extensions := by
  have hheader := readHeader_write (t := .context 3 true) (by decide)
    (Nat.lt_trans (length_lt_write _ _) hlen) list
  have hne : (tagged 3 list).isEmpty = false := rfl
  unfold readExtensions
  rw [hne]
  simp only [tagged, Der.write, hheader, Option.bind_eq_bind, Option.bind_some, h]
  rfl

variable {t : Template} {label part : Bytes}

/-- A signed part is read, if its label and its key are. -/
theorem exists_readSignedPart (hpart : t.signedPart? label = some part)
    (hlabel : ∃ a, ∀ rest, AlgorithmId.read (label ++ rest) = some (a, rest))
    (hkey : ∃ k, ∀ rest, PublicKeyInfo.read (t.publicKey ++ rest) = some (k, rest))
    (hstart : t.notBefore ≤ Time.lastSecond) (hstop : t.notAfter ≤ Time.lastSecond)
    (hlen : part.length < 2 ^ 64) :
    ∃ f, ∀ rest, readSignedPart (part ++ rest) = some (f, rest) := by
  obtain ⟨issuer, subject, hissuer, hsubject, rfl⟩ := signedPart?_eq_some hpart
  have hcontents := Nat.lt_trans (length_lt_write _ _) hlen
  obtain ⟨hserialLen, hissuerLen, hvalidityLen, hsubjectLen, hlistLen⟩ :=
    partsFit_of_length_lt hlen
  obtain ⟨digits, hdigits⟩ := natural_eq_write t.serial
  rw [hdigits] at hserialLen
  obtain ⟨algorithm, hlabel⟩ := hlabel
  obtain ⟨key, hkey⟩ := hkey
  have hvalidity := readValidity_write hstart hstop hvalidityLen
  -- what is behind the key is no unique identifier, and all of it are extensions
  have hlist := Nat.lt_trans (length_lt_write _ _) hlistLen
  have hlast := readElement_write (t := .context 3 true) (by decide) hlist []
  rw [List.append_nil] at hlast
  have hskip : ∀ number, 3 ≠ number →
      skipUniqueId number (tagged 3 (Der.sequence (t.extensions.map Extension.encode)))
        = some (tagged 3 (Der.sequence (t.extensions.map Extension.encode))) :=
    fun number hne => skipUniqueId_of_ne hlast hne
  have hextensions := Extension.readList_encode hlist []
  rw [List.append_nil] at hextensions
  refine ⟨{
    version := 2, serial := digits, innerAlgorithm := algorithm,
    issuer := ⟨t.issuer.map fun e => [e.attribute], issuer⟩,
    notBefore := .readBack t.notBefore (ZonedTime.isWrittenLong t.notBefore),
    notAfter := .readBack t.notAfter (ZonedTime.isWrittenLong t.notAfter),
    subject := ⟨t.subject.map fun e => [e.attribute], subject⟩,
    publicKey := key, extensions := t.extensions,
    signed := ⟨Der.sequence (partsOf t label issuer subject), algorithm, []⟩ }, fun rest => ?_⟩
  unfold readSignedPart
  rw [readNumbered_sequence hcontents]
  simp only [partsOf, List.flatten_cons, List.flatten_nil, List.append_nil, hdigits,
    readVersion_write, readSerial_write (Nat.lt_trans (length_lt_write _ _) hserialLen), hlabel,
    Entries.read_of_write? hissuer hissuerLen, hvalidity,
    Entries.read_of_write? hsubject hsubjectLen, hkey,
    hskip 1 (by decide), hskip 2 (by decide), readExtensions_of_readList hlistLen hextensions,
    Option.bind_eq_bind, Option.bind_some]
  rfl

def withSignature (f : Fields) (algorithm : AlgorithmId) (signature : Bytes) : Fields :=
  { f with signed := { f.signed with algorithm, signature } }

/-- What is signed from a template with a key of some kind is read. -/
theorem exists_read_sign [Signatures] {key : KeyPair} {der : Bytes} {kind : KeyKind}
    {bits : Bytes} (hsign : t.sign? key = some der) (hkey : t.publicKey = kind.encodePublic bits)
    (hstart : t.notBefore ≤ Time.lastSecond) (hstop : t.notAfter ≤ Time.lastSecond)
    (hlen : der.length < 2 ^ 64) : ∃ f, read der = some (f, []) := by
  simp only [Template.sign?, Option.bind_eq_bind] at hsign
  obtain ⟨part, hpart, hder⟩ := Option.bind_eq_some_iff.1 hsign
  cases hder
  have hpartLen : part.length < 2 ^ 64 :=
    Nat.lt_trans (length_lt_sequence List.mem_cons_self) hlen
  have hkeyLen : (kind.encodePublic bits).length < 2 ^ 64 :=
    hkey ▸ Nat.lt_trans (length_publicKey_lt hpart) hpartLen
  have hpublic := KeyKind.encodePublic_read hkeyLen
  rw [← hkey] at hpublic
  obtain ⟨f, hf⟩ := exists_readSignedPart hpart ⟨_, key.kind.read_signatureLabel_append⟩
    ⟨_, hpublic⟩ hstart hstop hpartLen
  exact ⟨_, Signed.read_sequence withSignature hf hlen⟩

end Certificate.Fields

/-- A template whose names can be written can be signed. -/
theorem Template.exists_sign? [Signatures] {t : Template} (hissuer : ∀ e ∈ t.issuer, e.Spelled)
    (hsubject : ∀ e ∈ t.subject, e.Spelled) (key : KeyPair) : ∃ der, t.sign? key = some der := by
  obtain ⟨issuer, hissuer⟩ := Entries.exists_write? hissuer
  obtain ⟨subject, hsubject⟩ := Entries.exists_write? hsubject
  unfold sign? signedPart?
  rw [hissuer, hsubject]
  exact ⟨_, rfl⟩

/-- What is signed from a template is a certificate, if it is not too large. -/
theorem Certificate.exists_ofDer_sign [Signatures] {t : Template} {key : KeyPair} {der : Bytes}
    {kind : KeyKind} {bits : Bytes} (hsign : t.sign? key = some der)
    (hkey : t.publicKey = kind.encodePublic bits) (hstart : t.notBefore ≤ Time.lastSecond)
    (hstop : t.notAfter ≤ Time.lastSecond) (hlen : der.length ≤ Limits.certificateSize) :
    ∃ c, ofDer der = .ok c := by
  have hlt : der.length < 2 ^ 64 := Nat.lt_of_le_of_lt hlen (by decide)
  obtain ⟨f, hf⟩ := Fields.exists_read_sign hsign hkey hstart hstop hlt
  have hfields : (Fields.read der).map (·.1) = some f := by
    rw [hf]
    rfl
  unfold ofDer
  rw [dif_pos hlen]
  split
  case h_1 fields _ => exact ⟨_, rfl⟩
  case h_2 hnone =>
    rw [hfields] at hnone
    cases hnone

end Enrollment
