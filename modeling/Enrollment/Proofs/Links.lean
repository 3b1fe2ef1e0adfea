/-
Links: how an issued certificate hangs on the authority's own.

The authority signs what it issues, and puts its own chain behind it as it
is.  The one link that can break is the name.  The issuer's name in a new
certificate is not the authority's own name but what is written of its
entries (`issuer_of_issue`), and entries have one string for each type: of
`DC=com, DC=example` only `DC=example` is left.  So chains that were issued
are valid for authorities whose name is regular, as that of every generated
authority is, and for no others (`links_of_issue`,
`broken_link_of_two_components`).
-/
import Enrollment.Proofs.Name.Text
import Enrollment.Proofs.Refinement

namespace Enrollment

-- ================================================================= chains

namespace Chain

variable [Signatures] {c d : Chain} {leaf : Certificate}

/-- A chain with one more certificate in front has one more link to check. -/
theorem validateLinks_of_prepend (h : c.prepend leaf = .ok d) :
    d.validateLinks = (checkLink leaf c.leaf >>= fun _ => c.validateLinks) := by
  obtain ⟨-, hleaf, hissuers⟩ := prepend_eq_ok_iff.1 h
  rw [validateLinks, hleaf, hissuers]
  rfl

/-- A link that holds leaves the others to be checked. -/
theorem validateLinks_of_linked (h : c.prepend leaf = .ok d)
    (hissuer : leaf.issuer = c.leaf.subject) (hsigned : leaf.verifySignedBy c.leaf = .ok ()) :
    d.validateLinks = c.validateLinks := by
  rw [validateLinks_of_prepend h, checkLink_of_eq hissuer, hsigned]
  rfl

/-- A certificate whose issuer is shown otherwise breaks the first link. -/
theorem validateLinks_of_issuer_ne (h : c.prepend leaf = .ok d)
    (hissuer : leaf.issuer ≠ c.leaf.subject) :
    d.validateLinks = .error (.security (.brokenLink leaf.issuer c.leaf.subject)) := by
  rw [validateLinks_of_prepend h, checkLink_of_ne hissuer]
  rfl

end Chain

-- ============================================================ authorities

namespace Authority

variable [Signatures]

/-- The name of a generated authority is canonical. -/
theorem canonical_of_generate {hostname : String} {algorithm : KeyAlgorithm} {days : Nat}
    {now : Time.Instant} {draw : Draw} {a : Authority}
    (h : generate hostname algorithm days now draw = .ok a) :
    a.certificate.fields.subject.Canonical := by
  obtain ⟨names, window, hfields, -, -⟩ := ofTemplate_of_generate h
  obtain ⟨encoded, hsubject⟩ := hfields.names_eq.2
  rw [hsubject]
  exact Name.canonical_written (ofTexts_nameOf hostname).nodup
    (fun e he => Entries.arcs?_of_spelled ((ofTexts_nameOf hostname).spelled e he)) encoded

/-- How a chain that was issued hangs on the authority. -/
structure Links (a : Authority) (chain : Chain) : Prop where
  toList : chain.toList = chain.leaf :: a.chain.toList
  signed : chain.leaf.verifySignedBy a.certificate = .ok ()
  /-- The names have the same attributes in the same sets. -/
  sets : chain.leaf.fields.issuer.sets = a.certificate.fields.subject.sets
    ↔ a.certificate.fields.subject.Canonical
  /-- The names have the same text, which is what links are checked by. -/
  issuer : chain.leaf.issuer = a.certificate.subject ↔ a.certificate.fields.subject.Regular
  valid : a.certificate.fields.subject.Regular → chain.validateLinks = a.chain.validateLinks
  broken : ¬a.certificate.fields.subject.Regular →
    chain.validateLinks
      = .error (.security (.brokenLink chain.leaf.issuer a.certificate.subject))

end Authority

-- ================================================================ issuing

namespace Signer

variable [Signatures] {s : Signer} {request : SigningRequest} {now : Time.Instant} {serial : Bytes}
  {chain : Chain}

/-- The issuer's name in a new certificate is written of the entries that the
authority's name is taken apart into. -/
theorem issuer_of_issue (h : s.issue request now serial = .ok chain) :
    ∃ es encoded, Entries.ofName s.authority.certificate.fields.subject = .ok es
      ∧ chain.leaf.fields.issuer = ⟨es.map fun e => [e.attribute], encoded⟩ := by
  obtain ⟨content, window, issuer, der, -, -, -, hissuer, hsign, hleaf, -⟩ := issue_eq_ok h
  obtain ⟨encoded, hname⟩ := (Certificate.ofTemplate hsign rfl hleaf).1.names_eq.1
  exact ⟨issuer, encoded, (issuerEntries_eq_ok_iff.1 hissuer).2, hname⟩

/-- The issuer has the attributes of the authority exactly when these are canonical. -/
theorem sets_eq_iff_canonical (h : s.issue request now serial = .ok chain) :
    chain.leaf.fields.issuer.sets = s.authority.certificate.fields.subject.sets
      ↔ s.authority.certificate.fields.subject.Canonical := by
  obtain ⟨es, encoded, hentries, hname⟩ := issuer_of_issue h
  rw [hname]
  exact Name.sets_eq_iff hentries

/-- The issuer is shown as the authority is exactly when the name of the authority is
regular. -/
theorem issuer_eq_iff_regular (h : s.issue request now serial = .ok chain) :
    chain.leaf.issuer = s.authority.certificate.subject
      ↔ s.authority.certificate.fields.subject.Regular := by
  obtain ⟨es, encoded, hentries, hname⟩ := issuer_of_issue h
  rw [Certificate.issuer, hname]
  exact Name.text_eq_iff hentries encoded

/-- What was issued links to the authority, up to its name: the links are as valid
as those of the authority's own chain if the name is regular, and broken if not.
Names of generated authorities are canonical, so nothing is lost of them. -/
theorem links_of_issue (hbuilt : s.authority.Built) (hsound : s.authority.key.secret.Sound)
    (h : s.issue request now serial = .ok chain) :
    s.authority.Links chain
      ∧ ∀ hostname algorithm days created draw,
        Authority.generate hostname algorithm days created draw = .ok s.authority →
          s.authority.certificate.fields.subject.Canonical
            ∧ s.authority.certificate.fields.subject.Regular := by
  have hchain := prepend_of_issue h
  have hissuers := (Chain.prepend_eq_ok_iff.1 hchain).2.2
  have hsigned := verifySignedBy_of_issue hbuilt hsound h
  have hissuer := issuer_eq_iff_regular h
  refine ⟨?_, fun _ _ _ _ _ hgenerate => ?_⟩
  · exact {
      toList := by rw [Chain.toList, hissuers]
      signed := hsigned
      sets := sets_eq_iff_canonical h
      issuer := hissuer
      valid := fun hregular => Chain.validateLinks_of_linked hchain (hissuer.2 hregular) hsigned
      broken := fun hregular =>
        Chain.validateLinks_of_issuer_ne hchain fun hsame => hregular (hissuer.1 hsame) }
  · have hcanonical := Authority.canonical_of_generate hgenerate
    exact ⟨hcanonical, hcanonical.regular⟩

end Signer

-- ============================================================ small samples

/-- The certificate of an authority with the small key and the name `DC=com, DC=example`,
signed with its own key. -/
def Certificate.domainDer : Bytes :=
  Bytes.ofNat 36 0x3082013c3081efa003020102020101300506032b6570302e31133011060a0992268993f2
    ++ Bytes.ofNat 36 0x2c6401191603636f6d31173015060a0992268993f22c64011916076578616d706c65301e
    ++ Bytes.ofNat 36 0x170d3236313131393231303231315a170d3336313131363231303231315a302e31133011
    ++ Bytes.ofNat 36 0x060a0992268993f22c6401191603636f6d31173015060a0992268993f22c640119160765
    ++ Bytes.ofNat 36 0x78616d706c65302a300506032b65700321003ee2a8a7283cb2fd728943daa127ef09e483
    ++ Bytes.ofNat 36 0x071a8b4bc699ba4522f09b14cfdea3323030300f0603551d130101ff040530030101ff30
    ++ Bytes.ofNat 36 0x1d0603551d0e041604141677ebe043c26160db25516a663c01f6f421ad10300506032b65
    ++ Bytes.ofNat 36 0x70034100b3fc1c1e10170e7053c768cdf8269085b6caec2f6f31b4531cd3c8d2515c1006
    ++ Bytes.ofNat 32 0xf3f3c22215aae44c130159a2525bd64969b9845e950a7f10dfbfd8af9299c003

def Certificate.domain : Certificate :=
  .ofBytes domainDer (by decide +kernel) (by decide +kernel)

def Chain.domain : Chain := ⟨.domain, [], Chain.small.length_le⟩

def Authority.domain : Authority := ⟨.domain, Authority.small.key, .ed25519⟩

def Signer.domain : Signer := ⟨.domain, 1, Nat.one_pos⟩

theorem Signer.issue_domain_edwards :
    ∃ chain, Signer.domain.issue .edwards ⟨0, 0⟩ [1] = .ok chain := by
  have hwindow : Validity.window? ⟨0, 0⟩ Signer.domain.days = some (0, 86400) := rfl
  have hissuer : issuerEntries Certificate.domain
      = .ok [⟨[0, 9, 2342, 19200300, 100, 1, 25], .ia5, Utf8.encode "example"⟩] := by
    decide +kernel
  exact exists_issue SigningRequest.verifySignature_edwards SigningRequest.content_edwards hwindow
    hissuer (by decide +kernel) (by decide)

section

-- What the small key signs is sure to verify by these.
local instance : Signatures := Refinement.smallSignatures

theorem Authority.ofPem_domain :
    Authority.ofPem Authority.domain.chain.pem Authority.domain.keyPem = .ok .domain :=
  ofPem_pem (by decide +kernel) ⟨rfl, by decide +kernel⟩

theorem Chain.validateLinks_domain : Chain.domain.validateLinks = .ok () := by
  decide +kernel

/-- The chain that the small authority issues is linked. -/
theorem Signer.links_edwards :
    ∃ chain, Authority.small.Built ∧ Authority.small.key.secret.Sound
      ∧ Signer.small.issue .edwards ⟨0, 0⟩ [1] = .ok chain ∧ Authority.small.Links chain := by
  obtain ⟨chain, hchain⟩ := Signer.issue_small_edwards
  have hissue := Refinement.issue_of_standard hchain
  have hbuilt := Refinement.built_of_standard Authority.generate_small
  have hsound := Refinement.sound_small
  exact ⟨chain, hbuilt, hsound, hissue, (links_of_issue hbuilt hsound hissue).1⟩

/-- One component is left of the name of a domain. -/
theorem Signer.issuer_of_issue_domain {request : SigningRequest} {now : Time.Instant}
    {serial : Bytes} {chain : Chain} (h : Signer.domain.issue request now serial = .ok chain) :
    chain.leaf.issuer = "DC=example" := by
  have hentries : Entries.ofName Signer.domain.authority.certificate.fields.subject
      = .ok [⟨[0, 9, 2342, 19200300, 100, 1, 25], .ia5, Utf8.encode "example"⟩] := by
    decide +kernel
  obtain ⟨es, encoded, hgiven, hname⟩ := issuer_of_issue h
  cases hentries.symm.trans hgiven
  rw [Certificate.issuer, hname]
  -- the encoding has no part in the text
  unfold Name.text
  dsimp only
  decide +kernel

/-- The chain that the authority of a domain issues is broken at its first link,
although the authority's own chain is not. -/
theorem Signer.broken_link_of_two_components :
    ∃ chain, Signer.domain.authority.Built ∧ Signer.domain.authority.key.secret.Sound
      ∧ Signer.domain.authority.chain.validateLinks = .ok ()
      ∧ Signer.domain.issue .edwards ⟨0, 0⟩ [1] = .ok chain
      ∧ Signer.domain.authority.certificate.subject = "DC=com, DC=example"
      ∧ chain.leaf.issuer = "DC=example"
      ∧ chain.validateLinks
        = .error (.security (.brokenLink "DC=example" "DC=com, DC=example")) := by
  obtain ⟨chain, hchain⟩ := Signer.issue_domain_edwards
  have hissue := Refinement.issue_of_standard hchain
  -- what is left of the name is not what the link is checked against
  have hissuer := issuer_of_issue_domain hissue
  have hsubject : Signer.domain.authority.certificate.subject = "DC=com, DC=example" := by
    decide +kernel
  have hne : chain.leaf.issuer ≠ Signer.domain.authority.certificate.subject := by
    rw [hissuer, hsubject]
    decide
  have hbroken := Chain.validateLinks_of_issuer_ne (prepend_of_issue hissue) hne
  rw [hissuer] at hbroken
  refine ⟨chain, .loaded Authority.ofPem_domain, Refinement.sound_small,
    Chain.validateLinks_domain, hissue, hsubject, hissuer, ?_⟩
  rw [← hsubject]
  exact hbroken

end

end Enrollment
