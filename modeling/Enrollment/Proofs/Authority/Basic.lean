/-
Authorities, by the two ways there are to get one.

However an authority was built, its key pair is one (`publicKey_eq`) and the
key in its own certificate is that of the pair (`fields_publicKey`).  For an
authority that was loaded this is what loading checks, on the encodings of
the keys; for one that was generated it is read back from the certificate
that was made.  So whatever its key signs verifies under its certificate
(`verify_sign`).
-/
import Enrollment.Authority.Basic
import Enrollment.Proofs.Certificate.Basic
import Enrollment.Proofs.Certificate.Template
import Enrollment.Proofs.Except
import Enrollment.Proofs.Name.Written

namespace Enrollment

variable [Signatures]

-- ============================================================== key pairs

namespace KeyDocument

/-- A stated public key is accepted only if it is the secret key's own. -/
theorem withPublic_eq {secret : SecretKey} {stated : Option Bytes} {found : SecretKey × Bytes}
    (h : withPublic secret stated = some found) : found.2 = Signatures.publicKey found.1 := by
  cases stated with
  | none =>
    cases h
    rfl
  | some key =>
    simp only [withPublic] at h
    split at h
    case isTrue =>
      cases h
      rfl
    case isFalse => cases h

/-- A key on the Edwards curve is kept with its public key. -/
theorem edwards?_eq {e : Envelope} {found : SecretKey × Bytes} (h : edwards? e = some found) :
    found.2 = Signatures.publicKey found.1 := by
  simp only [edwards?, Option.bind_eq_bind] at h
  obtain ⟨seed, -, h⟩ := Option.bind_eq_some_iff.1 h
  split at h
  case isTrue => cases h
  case isFalse => exact withPublic_eq h

theorem curve?_eq {curve : Curve} {e : Envelope} {found : SecretKey × Bytes}
    (h : curve? curve e = some found) : found.2 = Signatures.publicKey found.1 := by
  unfold curve? at h
  by_cases hversion : e.version ≠ 0
  · rw [if_pos hversion] at h
    cases h
  · rw [if_neg hversion] at h
    obtain ⟨inner, -, h⟩ := Option.bind_eq_some_iff.1 h
    dsimp only at h
    split at h
    case isTrue => cases h
    case isFalse => exact withPublic_eq h

theorem rsa?_eq {e : Envelope} {found : SecretKey × Bytes} (h : rsa? e = some found) :
    found.2 = Signatures.publicKey found.1 := by
  simp only [rsa?, Option.bind_eq_bind] at h
  split at h
  case isTrue => cases h
  case isFalse =>
    obtain ⟨numbers, -, h⟩ := Option.bind_eq_some_iff.1 h
    split at h
    case isTrue => exact withPublic_eq h
    case isFalse => cases h

/-- A document gives a secret key with its public key. -/
theorem read?_eq {document : Bytes} {found : SecretKey × Bytes}
    (h : read? document = some found) : found.2 = Signatures.publicKey found.1 := by
  simp only [read?, Option.bind_eq_bind] at h
  obtain ⟨envelope, -, h⟩ := Option.bind_eq_some_iff.1 h
  split at h
  · exact edwards?_eq h
  · split at h
    · exact curve?_eq h
    · split at h
      · exact curve?_eq h
      · split at h
        · exact rsa?_eq h
        · cases h

end KeyDocument

namespace KeyPair

/-- Is the public key that of the secret one? -/
def IsPair (k : KeyPair) : Prop :=
  k.publicKey = Signatures.publicKey k.secret

/-- The first block of a text is its key, whatever the tag. -/
theorem ofPem?_eq_some_iff {text : String} {k : KeyPair} :
    ofPem? text = some k
      ↔ ∃ block, Pem.parse text = .ok block ∧ ofDocument? block.contents = some k := by
  unfold ofPem?
  constructor
  · intro h
    split at h
    case h_1 block hblock => exact ⟨block, hblock, h⟩
    case h_2 => cases h
  · rintro ⟨block, hblock, h⟩
    rw [hblock]
    exact h

/-- A key that is read from a text is a pair. -/
theorem isPair_ofPem? {text : String} {k : KeyPair} (h : ofPem? text = some k) : k.IsPair := by
  obtain ⟨block, -, hdocument⟩ := ofPem?_eq_some_iff.1 h
  obtain ⟨found, hfound, hk⟩ := Option.map_eq_some_iff.1 hdocument
  cases hk
  exact KeyDocument.read?_eq hfound

/-- The block of a key is read as its document. -/
theorem ofPem?_pem (k : KeyPair) : ofPem? k.pem = ofDocument? k.document := by
  have hparse : Pem.parse k.pem = .ok ⟨blockTag, k.document⟩ :=
    Pem.parse_encode (show blockTag ≠ "" by decide) (show '-' ∉ blockTag.toList by decide) .lf
  rw [ofPem?, hparse]

theorem isPair_generate (algorithm : KeyAlgorithm) (draw : Bytes) :
    (generate algorithm draw).IsPair := by
  cases algorithm <;> rfl

end KeyPair

-- ============================================================ authorities

namespace Authority

/-- Authorities that were loaded or generated, which are all there are. -/
inductive Built : Authority → Prop
  | loaded {chainText keyText : String} {a : Authority}
      (h : ofPem chainText keyText = .ok a) : Built a
  | generated {hostname : String} {algorithm : KeyAlgorithm} {days : Nat} {now : Time.Instant}
      {draw : Draw} {a : Authority}
      (h : generate hostname algorithm days now draw = .ok a) : Built a

/-- What is checked of an authority when it is loaded, which is all that it takes. -/
theorem ofPem_eq_ok_iff {chainText keyText : String} {a : Authority} :
    ofPem chainText keyText = .ok a
      ↔ Chain.ofPem chainText = .ok a.chain ∧ KeyPair.ofPem? keyText = some a.key ∧ a.Coherent := by
  unfold ofPem
  constructor
  · intro h
    obtain ⟨chain, hchain, h⟩ := bind_eq_ok h
    split at h
    case h_1 key hkey =>
      split at h
      case h_1 algorithm halgorithm =>
        split at h
        case isTrue => cases h
        case isFalse hsame =>
          cases h
          exact ⟨hchain, hkey, halgorithm, not_not.1 hsame⟩
      case h_2 => cases h
    case h_2 => cases h
  · rintro ⟨hchain, hkey, halgorithm, hsame⟩
    rw [hchain]
    simp only [hkey, halgorithm]
    exact if_neg (not_not.2 hsame)

/-- An authority is loaded from its own texts, if its key is one that can be read. -/
theorem ofPem_pem {a : Authority} (hkey : KeyPair.ofDocument? a.key.document = some a.key)
    (h : a.Coherent) : ofPem a.chain.pem a.keyPem = .ok a :=
  ofPem_eq_ok_iff.2 ⟨Chain.ofPem_pem _, (KeyPair.ofPem?_pem a.key).trans hkey, h⟩

/-- How the certificate of an authority that was generated was made. -/
theorem generate_eq_ok {hostname : String} {algorithm : KeyAlgorithm} {days : Nat}
    {now : Time.Instant} {draw : Draw} {a : Authority}
    (h : generate hostname algorithm days now draw = .ok a) :
    ∃ names window der, a.key = KeyPair.generate algorithm draw.key ∧ a.algorithm = algorithm
      ∧ (templateOf hostname names a.key draw.serial window).sign? a.key = some der
      ∧ Chain.ofDers [der] = .ok a.chain
      ∧ Validity.window? now days = some window := by
  unfold generate at h
  obtain ⟨names, -, h⟩ := bind_eq_ok h
  split at h
  case h_1 window hwindow =>
    dsimp only at h
    split at h
    case h_1 der hder =>
      obtain ⟨chain, hchain, h⟩ := bind_eq_ok h
      cases h
      exact ⟨names, window, der, rfl, rfl, hder, Halt.lift_eq_ok hchain, hwindow⟩
    case h_2 => cases h
  case h_2 => cases h

omit [Signatures] in
/-- The name of a generated authority is one of texts. -/
theorem ofTexts_nameOf (hostname : String) : Entries.OfTexts (nameOf hostname) := by
  have hentry : ∀ e ∈ nameOf hostname, e = Entries.ofText [2, 5, 4, 3] hostname
      ∨ e = Entries.ofText [2, 5, 4, 10] organization := by
    intro e he
    rcases List.mem_cons.1 he with rfl | he
    · exact .inl rfl
    · exact .inr (List.mem_singleton.1 he)
  refine ⟨fun e he => ?_, show [[2, 5, 4, 3], [2, 5, 4, 10]].Nodup by decide, fun e he => ?_⟩
  · rcases hentry e he with rfl | rfl
    · exact Entries.spelled_ofText hostname ⟨_, rfl, by decide +kernel⟩
    · exact Entries.spelled_ofText organization ⟨_, rfl, by decide +kernel⟩
  · rcases hentry e he with rfl | rfl <;> rfl

/-- The certificate of an authority that was generated holds what its template says. -/
theorem ofTemplate_of_generate {hostname : String} {algorithm : KeyAlgorithm} {days : Nat}
    {now : Time.Instant} {draw : Draw} {a : Authority}
    (h : generate hostname algorithm days now draw = .ok a) :
    ∃ names window, a.certificate.fields.OfTemplate
        (templateOf hostname names a.key draw.serial window) a.key.kind.signatureLabel
      ∧ a.certificate.fields.publicKey
        = ⟨a.key.kind.keyAlgorithm, a.key.publicKey, a.key.encodedPublic⟩
      ∧ a.certificate.fields.signed = ⟨a.certificate.fields.signed.content,
          a.key.kind.signatureAlgorithm, a.key.sign a.certificate.fields.signed.content⟩
      ∧ Validity.window? now days = some window := by
  obtain ⟨names, window, der, -, -, hsign, hchain, hwindow⟩ := generate_eq_ok h
  obtain ⟨hfields, hpublic, hsigned⟩ :=
    Certificate.ofTemplate hsign rfl (Chain.leaf_of_ofDers hchain)
  exact ⟨names, window, hfields, hpublic, hsigned, hwindow⟩

/-- The chain of an authority that was generated is its own certificate. -/
theorem issuers_of_generate {hostname : String} {algorithm : KeyAlgorithm} {days : Nat}
    {now : Time.Instant} {draw : Draw} {a : Authority}
    (h : generate hostname algorithm days now draw = .ok a) : a.chain.issuers = [] := by
  obtain ⟨names, window, der, -, -, -, hchain, -⟩ := generate_eq_ok h
  have hders := Chain.ofDers_eq_ok_iff.1 hchain
  rw [Chain.toList, List.map_cons] at hders
  exact List.map_eq_nil_iff.1 (List.cons.inj hders).2

/-- The key pair of an authority is one. -/
theorem Built.isPair {a : Authority} (h : Built a) : a.key.IsPair := by
  cases h with
  | loaded h => exact KeyPair.isPair_ofPem? (ofPem_eq_ok_iff.1 h).2.1
  | generated h =>
    obtain ⟨names, window, der, hkey, -, -⟩ := generate_eq_ok h
    rw [hkey]
    exact KeyPair.isPair_generate _ _

/-- The key in an authority's own certificate is that of its key pair. -/
theorem Built.fields_publicKey {a : Authority} (h : Built a) :
    a.certificate.fields.publicKey
      = ⟨a.key.kind.keyAlgorithm, a.key.publicKey, a.key.encodedPublic⟩ := by
  cases h with
  | loaded h => exact a.certificate.publicKey_eq_of_encoded (ofPem_eq_ok_iff.1 h).2.2.2
  | generated h =>
    obtain ⟨names, window, -, hpublic, -⟩ := ofTemplate_of_generate h
    exact hpublic

/-- What the key of an authority has signed verifies under its certificate. -/
theorem Built.verify_sign {a : Authority} (h : Built a) (hsound : a.key.secret.Sound)
    (part : Bytes) :
    Signed.verify ⟨part, a.key.kind.signatureAlgorithm, a.key.sign part⟩
      a.certificate.fields.publicKey = .ok () := by
  rw [h.fields_publicKey]
  exact Signed.verify_sign hsound h.isPair rfl rfl part

end Authority

end Enrollment
