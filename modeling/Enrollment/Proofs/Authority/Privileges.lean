/-
What a request has no say in.

A request may ask for anything.  What a certificate issued for it may be
used for is the same for every request (`privileges_of_issue`): of the
extensions that were asked for, the host names and addresses come through
and nothing else.  So two requests that agree in what a certificate takes
from them, and ask for whatever they like besides, are answered with signed
parts that differ in the serial number and the time of validity alone.
-/
import Enrollment.Proofs.Authority.Signer
import Enrollment.Proofs.Certificate.Extension
import Enrollment.Proofs.Name.Entries

namespace Enrollment

open Der

namespace Signer

-- ================================================================ profile

/-- The meanings of the extensions of issued certificates, with whether they are
critical: host names and addresses if there are any, critical where there is
no subject, and then what is the same for all. -/
def profile (unnamed : Bool) (hosts : List AlternativeName) (publicKey : Bytes) :
    List (Bool × Option Extension.Meaning) :=
  (if hosts.isEmpty then [] else [(unnamed, some (.names hosts))])
    ++ [(true, some (.usages [KeyUsage.digitalSignature.place, KeyUsage.keyEncipherment.place])),
      (false, some (.purposes [Purpose.serverAuth, Purpose.clientAuth])),
      (false, some (.keyId ((sha256 publicKey).take Extension.keyIdLength))),
      (true, some (.authority false none))]

/-- What holds of a certificate that was issued for a request, whatever else the
request asked for. -/
structure Privileges (key : KeyPair) (request : SigningRequest) (c : Certificate) : Prop where
  version : c.fields.version = 2
  innerAlgorithm : c.fields.innerAlgorithm = key.kind.signatureAlgorithm
  algorithm : c.fields.signed.algorithm = key.kind.signatureAlgorithm
  extensions : c.fields.extensions.map (fun e => (e.critical, e.meaning?))
    = profile request.fields.subject.sets.isEmpty request.fields.hosts c.publicKey

-- ========================================================= two requests

/-- Requests that agree in all that a certificate takes from them. -/
structure Alike (r r' : SigningRequest) : Prop where
  subject : r.fields.subject.sets = r'.fields.subject.sets
  key : r.fields.publicKey.key = r'.fields.publicKey.key
  algorithm : r.fields.signed.algorithm.algorithm = r'.fields.signed.algorithm.algorithm
  hosts : r.fields.hosts = r'.fields.hosts

end Signer

/-- The template with another serial number and another time of validity. -/
def Template.stamped (t : Template) (serial : Nat) (window : Int × Int) : Template :=
  { t with serial := serial, notBefore := window.1, notAfter := window.2 }

/-- Signed parts with these serial numbers that differ otherwise in the time of
validity alone. -/
def Template.DifferByStamp (serial serial' : Nat) (part part' : Bytes) : Prop :=
  ∃ (t : Template) (label issuer subject : Bytes) (window window' : Int × Int),
    part = Der.sequence (Certificate.Fields.partsOf (t.stamped serial window) label issuer subject)
      ∧ part' = Der.sequence
        (Certificate.Fields.partsOf (t.stamped serial' window') label issuer subject)

namespace Signer

/-- What goes into a certificate but for its serial number and validity depends
on what requests have in common. -/
theorem template_of_alike {r r' : SigningRequest} {content content' : SigningRequest.Content}
    (h : Alike r r') (hcontent : SigningRequest.Content.ofFields r.fields = .ok content)
    (hcontent' : SigningRequest.Content.ofFields r'.fields = .ok content') (issuer : Entries)
    (serial serial' : Bytes) (window window' : Int × Int) :
    template issuer content' serial' window'
      = (template issuer content serial window).stamped (Serial.ofDraw serial') window' := by
  obtain ⟨hkind, hsubject, -, hkey⟩ := SigningRequest.Content.ofFields_eq_ok hcontent
  obtain ⟨hkind', hsubject', -, hkey'⟩ := SigningRequest.Content.ofFields_eq_ok hcontent'
  have hhosts := SigningRequest.Content.alternativeNames_of_ofFields hcontent
  have hhosts' := SigningRequest.Content.alternativeNames_of_ofFields hcontent'
  rw [h.algorithm] at hkind
  rw [h.subject] at hsubject
  rw [h.key] at hkey
  rw [h.hosts] at hhosts
  have hkinds := Except.ok.inj (hkind.symm.trans hkind')
  have hsubjects := Except.ok.inj (hsubject.symm.trans hsubject')
  unfold template Template.stamped
  rw [hkinds, hsubjects, hkey, hkey', hhosts, hhosts']

variable [Signatures] {s s' : Signer} {request request' : SigningRequest}
  {now now' : Time.Instant} {serial serial' : Bytes} {chain chain' : Chain}

/-- An issued certificate has the privileges that all have. -/
theorem has_privileges (h : s.issue request now serial = .ok chain) :
    Privileges s.authority.key request chain.leaf := by
  obtain ⟨content, window, issuer, der, -, hcontent, -, -, hsign, hleaf, -⟩ := issue_eq_ok h
  obtain ⟨hfields, hpublic, hsigned⟩ := Certificate.ofTemplate hsign rfl hleaf
  obtain ⟨-, hsubject, -, -⟩ := SigningRequest.Content.ofFields_eq_ok hcontent
  have hhosts := SigningRequest.Content.alternativeNames_of_ofFields hcontent
  have hkey : chain.leaf.publicKey = (template issuer content serial window).publicKey := by
    rw [Certificate.publicKey, hpublic]
    rfl
  have hinner := hfields.innerAlgorithm
  rw [KeyKind.read_signatureLabel, Option.some.injEq, Prod.mk.injEq] at hinner
  have husage : Extension.meaning? ⟨ExtensionId.keyUsage, true,
      KeyUsage.encode (template issuer content serial window).usages⟩
      = some (.usages [KeyUsage.digitalSignature.place, KeyUsage.keyEncipherment.place]) := by
    show Extension.meaning? ⟨ExtensionId.keyUsage, true,
      KeyUsage.encode [.digitalSignature, .keyEncipherment]⟩ = _
    decide +kernel
  refine ⟨hfields.version, hinner.1.symm, ?_, ?_⟩
  · rw [hsigned]
  · rw [hfields.extensions_eq, hkey,
      Template.map_meaning?_extensions husage (fun name hname =>
        SigningRequest.Content.exists_ofElement hcontent (List.mem_filter.1 hname).1)
        (fun name hname => (List.mem_filter.1 hname).2) fun e he => hfields.length_value_lt he]
    unfold Template.meanings template profile
    dsimp only
    rw [hhosts, Entries.isEmpty_of_ofSets hsubject, List.append_assoc, List.append_assoc]
    rfl

/-- The signed parts of certificates for requests that are alike. -/
theorem signedPart_of_alike (h : s.issue request now serial = .ok chain)
    (h' : s'.issue request' now' serial' = .ok chain') (hauthority : s.authority = s'.authority)
    (halike : Alike request request') :
    Template.DifferByStamp (Serial.ofDraw serial) (Serial.ofDraw serial')
      chain.leaf.fields.signed.content chain'.leaf.fields.signed.content := by
  obtain ⟨content, window, issuer, der, -, hcontent, -, hissuer, hsign, hleaf, -⟩ := issue_eq_ok h
  obtain ⟨content', window', issuer', der', -, hcontent', -, hissuer', hsign', hleaf', -⟩ :=
    issue_eq_ok h'
  have hpart := (Certificate.ofTemplate hsign rfl hleaf).1.content
  have hpart' := (Certificate.ofTemplate hsign' rfl hleaf').1.content
  rw [hauthority, hissuer'] at hissuer
  cases hissuer
  rw [template_of_alike halike hcontent hcontent' issuer serial serial' window window',
    ← hauthority] at hpart'
  obtain ⟨before, subject, hbefore, hsubject, hparts⟩ :=
    Certificate.Fields.signedPart?_eq_some hpart
  obtain ⟨before', subject', hbefore', hsubject', hparts'⟩ :=
    Certificate.Fields.signedPart?_eq_some hpart'
  -- the two templates have the same names
  cases hbefore.symm.trans hbefore'
  cases hsubject.symm.trans hsubject'
  exact ⟨template issuer content serial window, _, before, subject, window, window', hparts,
    hparts'⟩

/-- A requester has no influence on what a certificate may be used for: it has
the privileges that all have, and what is signed depends on the request only by
its subject, key, signature algorithm and hosts. -/
theorem privileges_of_issue (h : s.issue request now serial = .ok chain) :
    Privileges s.authority.key request chain.leaf
      ∧ ∀ {s' : Signer} {request' : SigningRequest} {now' : Time.Instant} {serial' : Bytes}
          {chain' : Chain}, s'.issue request' now' serial' = .ok chain' →
        s.authority = s'.authority → Alike request request' →
        Template.DifferByStamp (Serial.ofDraw serial) (Serial.ofDraw serial')
          chain.leaf.fields.signed.content chain'.leaf.fields.signed.content :=
  ⟨has_privileges h, fun h' hauthority halike => signedPart_of_alike h h' hauthority halike⟩

end Signer

-- ================================================================ samples

/-- A request for the host `b` twice, an address, a mail address, a locator, a
name of a type of its own, and for being an authority over three more that may
sign certificates and code. -/
def SigningRequest.demandingDer : Bytes :=
  Bytes.ofNat 36 0x308201083081bb020100300c310a300806035504030c0168302a300506032b6570032100
    ++ Bytes.ofNat 36 0x3ee2a8a7283cb2fd728943daa127ef09e483071a8b4bc699ba4522f09b14cfdea07c307a
    ++ Bytes.ofNat 36 0x06092a864886f70d01090e316d306b302a0603551d110423302182016281036140628704
    ++ Bytes.ofNat 36 0x010203048603753a76a00906022a03a0030c017882016230120603551d130101ff040830
    ++ Bytes.ofNat 36 0x060101ff020103300e0603551d0f0101ff04040302010630190603551d25041230100604
    ++ Bytes.ofNat 36 0x551d250006082b06010505070303300506032b65700341002fefed5c2daa4ed092de48cc
    ++ Bytes.ofNat 36 0x4a17dcb94d8c4d9ddc3a6e0db5ef9e2a8abfcac899500b8051cd0192cf6a0604bb9b6393
    ++ Bytes.ofNat 16 0xf1cc7d1d94d3b88827cc8a630665d205

/-- A request for the same host twice and the same address, and for nothing
else. -/
def SigningRequest.modestDer : Bytes :=
  Bytes.ofNat 36 0x3081b33067020100300c310a300806035504030c0168302a300506032b65700321003ee2
    ++ Bytes.ofNat 36 0xa8a7283cb2fd728943daa127ef09e483071a8b4bc699ba4522f09b14cfdea02830260609
    ++ Bytes.ofNat 36 0x2a864886f70d01090e3119301730150603551d11040e300c820162870401020304820162
    ++ Bytes.ofNat 36 0x300506032b6570034100fa7f3cfd5559867e629562b4adc84a865c21b1852e9278f0c964
    ++ Bytes.ofNat 36 0x249c85554b42e2394236701378c552db6092f50b60cbbe54d20f3907be58e9607ab5a0ff
    ++ Bytes.ofNat 2 0x8f01

def SigningRequest.demanding : SigningRequest :=
  ofDer demandingDer (by decide +kernel) (by decide +kernel)

def SigningRequest.modest : SigningRequest :=
  ofDer modestDer (by decide +kernel) (by decide +kernel)

theorem Signer.issue_small_demanding :
    ∃ chain, Signer.small.issue .demanding ⟨0, 0⟩ [1] = .ok chain := by
  have hsignature : SigningRequest.demanding.verifySignature = .ok () := by decide +kernel
  have hcontent : SigningRequest.Content.ofFields SigningRequest.demanding.fields
      = .ok ⟨[Entries.ofText [2, 5, 4, 3] "h"], [.dns "b", .email "a@b", .address (.v4 [1, 2, 3, 4]),
          .uri "u:v", .other [1, 2, 3] "x", .dns "b"], .ed25519,
          SigningRequest.demanding.fields.publicKey.key⟩ := by decide +kernel
  have hwindow : Validity.window? ⟨0, 0⟩ Signer.small.days = some (0, 86400) := rfl
  exact exists_issue hsignature hcontent hwindow issuerEntries_small (by decide +kernel) (by decide)

theorem Signer.issue_small_modest :
    ∃ chain, Signer.small.issue .modest ⟨86400, 0⟩ [2] = .ok chain := by
  have hsignature : SigningRequest.modest.verifySignature = .ok () := by decide +kernel
  have hcontent : SigningRequest.Content.ofFields SigningRequest.modest.fields
      = .ok ⟨[Entries.ofText [2, 5, 4, 3] "h"], [.dns "b", .address (.v4 [1, 2, 3, 4]), .dns "b"],
          .ed25519, SigningRequest.modest.fields.publicKey.key⟩ := by decide +kernel
  have hwindow : Validity.window? ⟨86400, 0⟩ Signer.small.days = some (86400, 172800) := rfl
  exact exists_issue hsignature hcontent hwindow issuerEntries_small (by decide +kernel) (by decide)

/-- The two requests are alike in what counts. -/
theorem Signer.alike_demanding_modest : Alike .demanding .modest where
  subject := by decide +kernel
  key := by decide +kernel
  algorithm := by decide +kernel
  hosts := by decide +kernel

/-- The demanding request gets what the modest one gets. -/
theorem Signer.privileges_demanding :
    ∃ chain, Signer.small.issue .demanding ⟨0, 0⟩ [1] = .ok chain
      ∧ chain.leaf.fields.extensions.map (fun e => (e.critical, e.meaning?))
        = profile false [.dns "b", .address (.v4 [1, 2, 3, 4]), .dns "b"] chain.leaf.publicKey
      ∧ ∃ chain', Signer.small.issue .modest ⟨86400, 0⟩ [2] = .ok chain'
        ∧ Template.DifferByStamp 1 2 chain.leaf.fields.signed.content
          chain'.leaf.fields.signed.content := by
  obtain ⟨chain, hchain⟩ := issue_small_demanding
  obtain ⟨chain', hchain'⟩ := issue_small_modest
  obtain ⟨hprivileges, hsigned⟩ := privileges_of_issue hchain
  have hhosts : SigningRequest.demanding.fields.hosts
      = [.dns "b", .address (.v4 [1, 2, 3, 4]), .dns "b"] := by decide +kernel
  have hnamed : SigningRequest.demanding.fields.subject.sets.isEmpty = false := by decide +kernel
  have hextensions := hprivileges.extensions
  rw [hhosts, hnamed] at hextensions
  have hdiffer := hsigned hchain' rfl alike_demanding_modest
  rw [show Serial.ofDraw [1] = 1 by decide, show Serial.ofDraw [2] = 2 by decide] at hdiffer
  exact ⟨chain, hchain, hextensions, chain', hchain', hdiffer⟩

end Enrollment
