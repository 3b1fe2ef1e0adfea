/-
From two names to a chain: a generated authority answers every request that was
made.

Each step hands on what the next one needs.  The request is read as what it was
made of, so that is what is carried over; what is signed from it can be read, so
it is a certificate; and the authority's own certificate, which has the name it
was generated with, is the one behind it.  What may stop a request on its way is
its size alone, or that of its certificate (`issue_of_generate`).
-/
import Enrollment.Proofs.Links
import Enrollment.Proofs.SigningRequest.Generate

namespace Enrollment

open Der

-- ============================================================ authorities

namespace Authority

variable [Signatures] {hostname : String} {algorithm : KeyAlgorithm} {days : Nat}
  {now : Time.Instant} {draw : Draw} {a : Authority}

/-- A generated authority is taken as an issuer by the name it was generated with. -/
theorem issuerEntries_of_generate (h : generate hostname algorithm days now draw = .ok a) :
    Signer.issuerEntries a.certificate = .ok (nameOf hostname) := by
  obtain ⟨names, window, hfields, -, -⟩ := ofTemplate_of_generate h
  obtain ⟨encoded, hsubject⟩ := hfields.names_eq.2
  refine Signer.issuerEntries_eq_ok_iff.2 ⟨?_, ?_⟩
  · rw [hfields.extensions_eq, Template.filter_keyUsage]
    exact Nat.le_refl 1
  · rw [hsubject]
    exact ((ofTexts_nameOf hostname).spells encoded).entries

/-- The chain of a generated authority is valid: its certificate verifies itself. -/
theorem validateLinks_of_generate (h : generate hostname algorithm days now draw = .ok a)
    (hsound : a.key.secret.Sound) : a.chain.validateLinks = .ok () := by
  obtain ⟨names, window, -, -, hsigned, -⟩ := ofTemplate_of_generate h
  have hverify := (Built.generated h).verify_sign hsound a.certificate.fields.signed.content
  have hverified : a.chain.leaf.verifySelfSigned = .ok () := by
    rw [certificate] at hsigned hverify
    rw [Certificate.verifySelfSigned, hsigned, hverify]
    rfl
  rw [Chain.validateLinks, issuers_of_generate h, Chain.checkFrom, hverified]
  exact ite_self _

end Authority

-- ================================================================ issuing

namespace Signer

/-- What is to stand in a chain that answers a request.  The fields of a leaf are those
that its bytes are read as. -/
structure Fulfils (a : Authority) (hostname : String) (entries : Entries)
    (names : List AlternativeName) (key : KeyPair) [Signatures] (chain : Chain) : Prop where
  length : chain.length = 2
  issuers : chain.issuers = [a.certificate]
  links : chain.validateLinks = .ok ()
  subject : chain.leaf.fields.subject.Spells entries
  issuer : chain.leaf.fields.issuer.Spells (Authority.nameOf hostname)
  publicKey : chain.leaf.publicKey = key.encodedPublic
  /-- The names are those of one extension, or there are none and no such extension. -/
  names : (chain.leaf.fields.extensions.filter (·.id == ExtensionId.alternativeNames)).map
      Extension.meaning? = if names.isEmpty then [] else [some (.names names)]

/-- The plain names of a request are those of the template. -/
theorem template_names (issuer : Entries) (content : SigningRequest.Content) (serial : Bytes)
    (window : Int × Int) (h : ∀ name ∈ content.alternativeNames, name.IsPlain) :
    (template issuer content serial window).names = content.alternativeNames :=
  List.filter_eq_self.2 fun name hname => (h name hname).isHost

/-- Plain names are the meaning of the one extension with them. -/
theorem map_meaning?_ofNames {entries : Entries} {names : List AlternativeName}
    (hplain : ∀ name ∈ names, name.IsPlain)
    (hlen : ∀ e ∈ Extension.ofNames entries names, e.value.length < 2 ^ 64) :
    (Extension.ofNames entries names).map Extension.meaning?
      = if names.isEmpty then [] else [some (.names names)] := by
  unfold Extension.ofNames at hlen ⊢
  split
  case isTrue => rfl
  case isFalse hsome =>
    rw [if_neg hsome] at hlen
    rw [List.map_singleton, Extension.meaning?_names
      (fun name hname => ⟨_, AlternativeName.ofElement_element (hplain name hname)⟩)
      (fun name hname => (hplain name hname).isHost) (hlen _ List.mem_cons_self)]

variable [Signatures] {s : Signer} {request : SigningRequest} {now : Time.Instant}
  {serial : Bytes}

/-- A chain that was issued for plain content by a generated authority holds the content
and hangs on the authority. -/
theorem fulfils_of_issue {hostname : String} {algorithm : KeyAlgorithm} {days : Nat}
    {created : Time.Instant} {draw : Authority.Draw} {key : KeyPair} {entries : Entries}
    {names : List AlternativeName} {chain : Chain}
    (hauthority : Authority.generate hostname algorithm days created draw = .ok s.authority)
    (hsound : s.authority.key.secret.Sound)
    (hcontent : SigningRequest.Content.ofFields request.fields
      = .ok ⟨entries, names, key.kind, key.publicKey⟩)
    (hentries : entries.OfTexts) (hplain : ∀ name ∈ names, name.IsPlain)
    (h : s.issue request now serial = .ok chain) :
    Fulfils s.authority hostname entries names key chain := by
  obtain ⟨content, window, issuer, der, -, hcontent', -, hissuer, hsign, hleaf, hprepend⟩ :=
    issue_eq_ok h
  cases hcontent.symm.trans hcontent'
  cases (Authority.issuerEntries_of_generate hauthority).symm.trans hissuer
  obtain ⟨hfields, hpublic, -⟩ := Certificate.ofTemplate hsign rfl hleaf
  obtain ⟨⟨encodedIssuer, hissuerName⟩, encodedSubject, hsubjectName⟩ := hfields.names_eq
  have hissuers : chain.issuers = [s.authority.certificate] := by
    rw [(Chain.prepend_eq_ok_iff.1 hprepend).2.2, Chain.toList,
      Authority.issuers_of_generate hauthority]
    rfl
  -- a generated authority has a name that is carried over as it is, so the first link holds
  have hregular := (Authority.canonical_of_generate hauthority).regular
  have hsigned := verifySignedBy_of_issue (.generated hauthority) hsound h
  refine ⟨?_, hissuers, ?_, ?_, ?_, ?_, ?_⟩
  · rw [Chain.length, hissuers]
    rfl
  · rw [Chain.validateLinks_of_linked hprepend ((issuer_eq_iff_regular h).2 hregular) hsigned]
    exact Authority.validateLinks_of_generate hauthority hsound
  · rw [hsubjectName]
    exact hentries.spells encodedSubject
  · rw [hissuerName]
    exact (Authority.ofTexts_nameOf hostname).spells encodedIssuer
  · rw [Certificate.publicKey, hpublic]
    rfl
  · have hnames := template_names (Authority.nameOf hostname)
      ⟨entries, names, key.kind, key.publicKey⟩ serial window hplain
    have hlen : ∀ e ∈ Extension.ofNames entries names, e.value.length < 2 ^ 64 := by
      intro e he
      refine hfields.length_value_lt (List.mem_of_mem_filter
        (p := (·.id == ExtensionId.alternativeNames)) ?_)
      rw [Template.filter_alternativeNames, hnames]
      exact he
    rw [hfields.extensions_eq, Template.filter_alternativeNames, hnames]
    exact map_meaning?_ofNames hplain hlen

/-- A generated authority issues a chain for every request that is made of a written name
and of texts that are addresses or ASCII, for every time of validity that ends by the year
9999, if neither the request nor the certificate is too large; and the chain holds
what was asked for. -/
theorem issue_of_generate {hostname dn : String} {algorithm keyAlgorithm : KeyAlgorithm}
    {days : Nat} {created : Time.Instant} {draw : Authority.Draw} {keyDraw : Bytes}
    {key : KeyPair} {entries : Entries} {texts : List String} {window : Int × Int}
    (hauthority : Authority.generate hostname algorithm days created draw = .ok s.authority)
    (hkey : KeyPair.generate keyAlgorithm keyDraw = key)
    (hsound : s.authority.key.secret.Sound) (hsound' : key.secret.Sound)
    (hdn : Name.Written.parse dn = .ok entries)
    (htexts : ∀ text ∈ texts, AlternativeName.IsGivable text)
    (hwindow : Validity.window? now s.days = some window)
    (hrequest : ∀ text, SigningRequest.text? entries (texts.map .meant) key = some text →
      Utf8.size text ≤ Limits.certificateSize)
    (hleaf : ∀ der, (template (Authority.nameOf hostname)
        ⟨entries, texts.map .meant, key.kind, key.publicKey⟩ serial window).sign? s.authority.key
          = some der → der.length ≤ Limits.certificateSize) :
    ∃ request chain, SigningRequest.generate dn texts key = .ok request
      ∧ request.verifySignature = .ok ()
      ∧ s.issue request now serial = .ok chain
      ∧ Fulfils s.authority hostname entries (texts.map .meant) key chain := by
  have hentries := Name.Written.ofTexts_of_parse hdn
  have hplain : ∀ name ∈ texts.map AlternativeName.meant, name.IsPlain := by
    intro name hname
    obtain ⟨text, htext, rfl⟩ := List.mem_map.1 hname
    exact AlternativeName.isPlain_meant (htexts text htext)
  have hpair : key.IsPair := hkey ▸ KeyPair.isPair_generate keyAlgorithm keyDraw
  -- the client's side
  obtain ⟨request, hgenerate, hmade, hsigned⟩ :=
    SigningRequest.exists_generate hdn htexts hrequest
  have hsignature := SigningRequest.verifySignature_of_made hmade hsigned hsound' hpair
  have hcontent := hmade.content (by rw [hsigned]) hentries hplain
  -- the authority's side
  have hroom : s.authority.chain.length < Limits.chainLength := by
    rw [Chain.length, Authority.issuers_of_generate hauthority]
    decide
  obtain ⟨der, hder⟩ := Template.exists_sign? (t := template (Authority.nameOf hostname)
      ⟨entries, texts.map .meant, key.kind, key.publicKey⟩ serial window)
    (Authority.ofTexts_nameOf hostname).spelled hentries.spelled s.authority.key
  obtain ⟨leaf, hprepend⟩ := issue_eq_prepend hsignature hcontent hwindow
    (Authority.issuerEntries_of_generate hauthority) hder (hleaf der hder)
  obtain ⟨chain, hissue⟩ := exists_eq_ok_of_prepend hprepend hroom
  exact ⟨request, chain, hgenerate, hsignature, hissue,
    fulfils_of_issue hauthority hsound hcontent hentries hplain hissue⟩

end Signer

-- ============================================================ small samples

section

-- What the small key signs is sure to verify by these; they sign as the standards do.
local instance : Signatures := Refinement.smallSignatures

namespace Signer

def smallEntries : Entries := [Entries.ofText [2, 5, 4, 3] "h"]

def smallTexts : List String := ["h", "127.0.0.1"]

theorem isGivable_smallTexts : ∀ text ∈ smallTexts, AlternativeName.IsGivable text := by
  intro text htext
  rcases List.mem_cons.1 htext with rfl | htext
  · exact .inr (by decide +kernel)
  · rw [List.mem_singleton.1 htext]
    exact .inl (by decide +kernel)

def smallTemplate : Template :=
  template (Authority.nameOf "h")
    ⟨smallEntries, smallTexts.map .meant, Authority.small.key.kind, Authority.small.key.publicKey⟩
    [1] (0, 86400)

theorem length_sign?_small (der : Bytes)
    (h : smallTemplate.sign? Authority.small.key = some der) :
    der.length ≤ Limits.certificateSize := by
  have hall : (smallTemplate.sign? Authority.small.key).all
      (fun der => der.length ≤ Limits.certificateSize) = true := by
    decide +kernel
  rw [h] at hall
  exact of_decide_eq_true hall

/-- The small authority issues a chain for a request with a host name and an address. -/
theorem issue_of_generate_small :
    ∃ request chain, Authority.generate "h" .ed25519 1 ⟨0, 0⟩ ⟨[7], [1]⟩ = .ok Authority.small
      ∧ SigningRequest.generate "CN=h" smallTexts Authority.small.key = .ok request
      ∧ request.verifySignature = .ok ()
      ∧ Signer.small.issue request ⟨0, 0⟩ [1] = .ok chain
      ∧ Fulfils .small "h" smallEntries [.dns "h", .address (.v4 [127, 0, 0, 1])]
          Authority.small.key chain := by
  have hauthority : Authority.generate "h" .ed25519 1 ⟨0, 0⟩ ⟨[7], [1]⟩ = .ok Authority.small :=
    Authority.generate_small
  have hdn : Name.Written.parse "CN=h" = .ok smallEntries := by decide +kernel
  have hwindow : Validity.window? ⟨0, 0⟩ Signer.small.days = some (0, 86400) := by decide +kernel
  have hnames : smallTexts.map AlternativeName.meant
      = [.dns "h", .address (.v4 [127, 0, 0, 1])] := by decide +kernel
  have hkey : KeyPair.generate .ed25519 [7] = Authority.small.key := rfl
  obtain ⟨request, chain, hrequest, hsignature, hissue, hfulfils⟩ :=
    issue_of_generate (s := .small) hauthority hkey Refinement.sound_small Refinement.sound_small
      hdn isGivable_smallTexts hwindow (SigningRequest.size_text?_le (by decide +kernel))
      length_sign?_small
  rw [hnames] at hfulfils
  exact ⟨request, chain, hauthority, hrequest, hsignature, hissue, hfulfils⟩

end Signer

end

end Enrollment
