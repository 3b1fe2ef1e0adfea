/-
Authorities and their texts.

An authority is written down as two texts, and each of the two ways to get one
sees to it that these load as the same authority.  One that was loaded has its
key from a document, which is what is written (`ofDocument?_of_ofPem?`); one
that was generated has written the document itself, and the certificate that
it signed has the key in it (`Built.coherent`).  What loads at all is told by
the blocks of the texts (`ofPem_eq_ok_iff`).
-/
import Enrollment.Proofs.Authority.Issuance
import Enrollment.Proofs.Key.Document

namespace Enrollment

-- ================================================================== names

/-- The first common name of a generated authority is the name it was generated with. -/
theorem Authority.commonName_nameOf (hostname : String) (encoded : Bytes) :
    Name.commonName ⟨(nameOf hostname).map fun e => [e.attribute], encoded⟩ = some hostname := by
  have hfirst : (Name.attributes ⟨(nameOf hostname).map fun e => [e.attribute], encoded⟩).find?
      (·.type == AttributeType.commonName) = some (Entries.ofText [2, 5, 4, 3] hostname).attribute :=
    List.find?_cons_of_pos (beq_self_eq_true _)
  have hdecode : Utf8.decode? (Utf8.encode hostname) = some hostname := by
    rw [Utf8.encode, Utf8.decode?_encodeChars, String.ofList_toList]
  unfold Name.commonName
  rw [hfirst]
  exact hdecode

-- ============================================================== key pairs

namespace KeyPair

variable [Signatures] {k : KeyPair} {text : String}

/-- A key pair that was read is read from its document. -/
theorem ofDocument?_of_ofPem? (h : ofPem? text = some k) : ofDocument? k.document = some k := by
  obtain ⟨block, -, hdocument⟩ := ofPem?_eq_some_iff.1 h
  obtain ⟨found, -, hk⟩ := Option.map_eq_some_iff.1 hdocument
  rw [← hk] at hdocument ⊢
  exact hdocument

omit [Signatures] in
/-- The algorithms that authorities use are those of three kinds of keys. -/
theorem algorithm?_eq_some_iff {algorithm : KeyAlgorithm} :
    k.algorithm? = some algorithm ↔ k.kind = .ofAlgorithm algorithm := by
  rw [algorithm?]
  cases k.kind with
  | ec curve => cases curve <;> cases algorithm <;> simp [KeyKind.algorithm?, KeyKind.ofAlgorithm]
  | ed25519 => cases algorithm <;> simp [KeyKind.algorithm?, KeyKind.ofAlgorithm]
  | rsa => cases algorithm <;> simp [KeyKind.algorithm?, KeyKind.ofAlgorithm]

end KeyPair

-- ============================================================ authorities

namespace Authority

variable [Signatures] {chainText keyText : String} {a : Authority}

/-- What two texts have to hold to be those of an authority. -/
structure Holds (chainText keyText : String) (a : Authority) : Prop where
  /-- Between one and eight blocks of the first text are certificates, and all of them are
  those of the chain. -/
  certificates : ∃ blocks, Pem.parseMany chainText = .ok blocks
    ∧ (blocks.filter (·.tag == Certificate.blockTag)).map (·.contents)
      = a.chain.toList.map (·.der)
    ∧ 1 ≤ (blocks.filter (·.tag == Certificate.blockTag)).length
    ∧ (blocks.filter (·.tag == Certificate.blockTag)).length ≤ Limits.chainLength
  /-- The first block of the second is a key, whatever its tag. -/
  key : ∃ block, Pem.parse keyText = .ok block ∧ KeyPair.ofDocument? block.contents = some a.key
  kind : a.key.kind = .ofAlgorithm a.algorithm
  own : a.certificate.publicKey = a.key.encodedPublic

/-- Texts load as an authority exactly when they hold what it takes. -/
theorem ofPem_eq_ok_iff_holds : ofPem chainText keyText = .ok a ↔ Holds chainText keyText a := by
  rw [ofPem_eq_ok_iff, Chain.ofPem_eq_ok_iff, KeyPair.ofPem?_eq_some_iff]
  constructor
  · rintro ⟨⟨blocks, hblocks, hders⟩, hkey, halgorithm, hown⟩
    refine ⟨?_, hkey, KeyPair.algorithm?_eq_some_iff.1 halgorithm, hown⟩
    have hcount := congrArg List.length hders
    rw [List.length_map, List.length_map, Chain.toList, List.length_cons] at hcount
    have hroom := a.chain.length_le
    exact ⟨blocks, hblocks, hders.symm, by omega, by omega⟩
  · rintro ⟨⟨blocks, hblocks, hders, -, -⟩, hkey, hkind, hown⟩
    exact ⟨⟨blocks, hblocks, hders.symm⟩, hkey, KeyPair.algorithm?_eq_some_iff.2 hkind, hown⟩

/-- An authority that was made or loaded is coherent. -/
theorem Built.coherent (h : Built a) : a.Coherent := by
  cases h with
  | loaded h => exact (ofPem_eq_ok_iff.1 h).2.2
  | generated h =>
    obtain ⟨names, window, der, hkey, halgorithm, -, -⟩ := generate_eq_ok h
    refine ⟨?_, ?_⟩
    · rw [hkey, halgorithm]
      exact KeyPair.algorithm?_generate _ _
    · show a.certificate.fields.publicKey.encoded = _
      rw [(Built.generated h).fields_publicKey]

theorem Built.ofDocument? (hsized : Signatures.Sized) (h : Built a) :
    KeyPair.ofDocument? a.key.document = some a.key := by
  cases h with
  | loaded h => exact KeyPair.ofDocument?_of_ofPem? (ofPem_eq_ok_iff.1 h).2.1
  | generated h =>
    obtain ⟨names, window, der, hkey, -, -, -⟩ := generate_eq_ok h
    rw [hkey]
    exact KeyPair.ofDocument?_generate hsized _ _

/-- What holds of an authority and its own texts. -/
structure Saved (a : Authority) : Prop where
  key : KeyPair.ofPem? a.keyPem = some a.key
  own : a.certificate.publicKey = a.key.encodedPublic
  algorithm : a.key.algorithm? = some a.algorithm
  loads : ofPem a.chain.pem a.keyPem = .ok a

/-- It can be saved and loaded. -/
theorem Built.saved (hsized : Signatures.Sized) (h : Built a) : Saved a where
  key := (KeyPair.ofPem?_pem a.key).trans (h.ofDocument? hsized)
  own := h.coherent.2
  algorithm := h.coherent.1
  loads := ofPem_pem (h.ofDocument? hsized) h.coherent

/-- An authority that is made for a hostname has it. -/
theorem hostname_of_generate {hostname : String} {algorithm : KeyAlgorithm} {days : Nat}
    {now : Time.Instant} {draw : Draw} (h : generate hostname algorithm days now draw = .ok a) :
    a.hostname = .ok hostname := by
  obtain ⟨names, window, hfields, -, -⟩ := ofTemplate_of_generate h
  obtain ⟨encoded, hsubject⟩ := hfields.names_eq.2
  have hname : a.certificate.commonName = some hostname := by
    rw [Certificate.commonName, hsubject]
    exact commonName_nameOf hostname encoded
  rw [Authority.hostname, hname]

/-- Every authority is loaded from its own texts as it was.  A generated one has the name
and the algorithm it was asked for and a valid chain; and a chain and a key are loaded
exactly if there are one to eight certificates and the key, of one of three kinds, is
that of the first. -/
theorem saved_and_loaded (hsized : Signatures.Sized) :
    (∀ a, Built a → Saved a)
      ∧ (∀ hostname algorithm days now draw a,
        generate hostname algorithm days now draw = .ok a →
          a.hostname = .ok hostname ∧ a.algorithm = algorithm
            ∧ (a.key.secret.Sound → a.chain.validateLinks = .ok ()))
      ∧ ∀ chainText keyText a, ofPem chainText keyText = .ok a ↔ Holds chainText keyText a := by
  refine ⟨fun a h => h.saved hsized, fun hostname algorithm days now draw a h => ?_,
    fun chainText keyText a => ofPem_eq_ok_iff_holds⟩
  obtain ⟨names, window, der, -, halgorithm, -, -⟩ := generate_eq_ok h
  exact ⟨hostname_of_generate h, halgorithm, validateLinks_of_generate h⟩

end Authority

-- ============================================================ small samples

section

-- What the small key signs is sure to verify by these; they sign as the standards do.
local instance : Signatures := Refinement.smallSignatures

theorem Signatures.sized_small : Signatures.Sized where
  ecdsa := @Signatures.Sized.ecdsa Standard.signatures Standard.sized
  ed25519 := @Signatures.Sized.ed25519 Standard.signatures Standard.sized

/-- The small authority is loaded from its own texts. -/
theorem Authority.saved_small :
    Signatures.Sized ∧ Authority.generate "h" .ed25519 1 ⟨0, 0⟩ ⟨[7], [1]⟩ = .ok Authority.small
      ∧ Saved .small ∧ Authority.small.key.secret.Sound
      ∧ Authority.small.hostname = .ok "h" ∧ Authority.small.chain.validateLinks = .ok ()
      ∧ Holds Authority.small.chain.pem Authority.small.keyPem .small := by
  have hgenerate : Authority.generate "h" .ed25519 1 ⟨0, 0⟩ ⟨[7], [1]⟩ = .ok Authority.small :=
    Authority.generate_small
  obtain ⟨hsaved, hgenerated, hloaded⟩ := saved_and_loaded Signatures.sized_small
  have hsmall := hsaved .small (.generated hgenerate)
  obtain ⟨hname, -, hlinks⟩ := hgenerated _ _ _ _ _ _ hgenerate
  exact ⟨Signatures.sized_small, hgenerate, hsmall, Refinement.sound_small, hname,
    hlinks Refinement.sound_small, (hloaded _ _ _).1 hsmall.loads⟩

end

end Enrollment
