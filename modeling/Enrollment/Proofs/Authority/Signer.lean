/-
Issuing: when a certificate is issued, and what holds of it.

Every step hands on what the next one needs, so it takes a signed request that
can be read and a size within the limit (`exists_issue`).  `issue_eq_ok` says
everything that was done on the way, and every other statement about issued
certificates is drawn from it: that the certificate
carries the key of the request in the form of the kind that the request's
signature algorithm stands for (`publicKey_of_issue`), and that it verifies
under the authority's certificate (`verifySignedBy_of_issue`).
-/
import Enrollment.Authority.Signer
import Enrollment.Crypto.Standard
import Enrollment.Proofs.Authority.Basic
import Enrollment.Proofs.Certificate.Readable
import Enrollment.Proofs.SigningRequest.Basic
import Enrollment.Proofs.SigningRequest.Content

namespace Enrollment

-- ================================================================= chains

namespace Chain

/-- A chain with one more certificate in front has room for it. -/
theorem prepend_eq_ok_iff {c d : Chain} {leaf : Certificate} :
    c.prepend leaf = .ok d
      ↔ c.length + 1 ≤ Limits.chainLength ∧ d.leaf = leaf ∧ d.issuers = c.toList := by
  rw [prepend, ofList_eq_ok_iff, toList, List.cons.injEq]
  constructor
  · rintro ⟨hleaf, hissuers⟩
    have hroom := d.length_le
    rw [hissuers] at hroom
    exact ⟨hroom, hleaf, hissuers⟩
  · rintro ⟨-, hsame⟩
    exact hsame

/-- A chain without room for one more certificate refuses it. -/
theorem prepend_of_lt {c : Chain} (h : Limits.chainLength < c.length + 1) (leaf : Certificate) :
    c.prepend leaf = .error (.protocol (.longChain (c.length + 1))) :=
  dif_neg (Nat.not_le.2 h)

end Chain

-- ================================================================ issuing

namespace Signer

/-- A certificate is taken as an issuer's if it has no second key usage and its name can
be taken apart. -/
theorem issuerEntries_eq_ok_iff {c : Certificate} {es : Entries} :
    issuerEntries c = .ok es
      ↔ (c.fields.extensions.filter (·.id == ExtensionId.keyUsage)).length ≤ 1
        ∧ Entries.ofName c.fields.subject = .ok es := by
  unfold issuerEntries
  dsimp only
  split
  case isTrue hsecond =>
    refine ⟨fun h => (nomatch h), fun h => ?_⟩
    exact absurd h.1 (Nat.not_le.2 hsecond)
  case isFalse hsecond => exact ⟨fun h => ⟨Nat.not_lt.1 hsecond, h⟩, fun h => h.2⟩

/-- A certificate is not made for a time after the year 9999. -/
theorem window_le {now : Time.Instant} {days : Nat} {window : Int × Int}
    (h : Validity.window? now days = some window) :
    window.1 ≤ Time.lastSecond ∧ window.2 ≤ Time.lastSecond := by
  unfold Validity.window? at h
  dsimp only at h
  split at h
  case isTrue hstop =>
    cases h
    exact ⟨by omega, hstop⟩
  case isFalse => cases h

variable [Signatures] {s : Signer} {request : SigningRequest} {now : Time.Instant}
  {serial : Bytes} {chain : Chain}

/-- What it takes to get as far as the chain: a request that is signed with its own key
and can be read, and something signed from it that is not too large. -/
theorem issue_eq_prepend {content : SigningRequest.Content} {window : Int × Int}
    {issuer : Entries} {der : Bytes} (hsignature : request.verifySignature = .ok ())
    (hcontent : SigningRequest.Content.ofFields request.fields = .ok content)
    (hwindow : Validity.window? now s.days = some window)
    (hissuer : issuerEntries s.authority.certificate = .ok issuer)
    (hsign : (template issuer content serial window).sign? s.authority.key = some der)
    (hsize : der.length ≤ Limits.certificateSize) :
    ∃ leaf, s.issue request now serial = Halt.lift (s.authority.chain.prepend leaf) := by
  obtain ⟨hstart, hstop⟩ := window_le hwindow
  obtain ⟨leaf, hleaf⟩ := Certificate.exists_ofDer_sign hsign rfl hstart hstop hsize
  refine ⟨leaf, ?_⟩
  simp only [issue, hsignature, hcontent, hwindow, hissuer, hsign, hleaf, Halt.lift,
    Except.mapError, bind, Except.bind]

/-- Where there is room in the chain, the new certificate is put in front of it. -/
theorem exists_eq_ok_of_prepend {leaf : Certificate}
    (h : s.issue request now serial = Halt.lift (s.authority.chain.prepend leaf))
    (hroom : s.authority.chain.length < Limits.chainLength) :
    ∃ chain, s.issue request now serial = .ok chain := by
  have hchain : s.authority.chain.prepend leaf
      = .ok ⟨leaf, s.authority.chain.toList, hroom⟩ :=
    Chain.prepend_eq_ok_iff.2 ⟨hroom, rfl, rfl⟩
  rw [h, hchain]
  exact ⟨_, rfl⟩

/-- So it is where what is signed for the request is known not to be too large. -/
theorem exists_issue {content : SigningRequest.Content} {window : Int × Int} {issuer : Entries}
    (hsignature : request.verifySignature = .ok ())
    (hcontent : SigningRequest.Content.ofFields request.fields = .ok content)
    (hwindow : Validity.window? now s.days = some window)
    (hissuer : issuerEntries s.authority.certificate = .ok issuer)
    (hsize : ((template issuer content serial window).sign? s.authority.key).any
      (fun der => der.length ≤ Limits.certificateSize) = true)
    (hroom : s.authority.chain.length < Limits.chainLength) :
    ∃ chain, s.issue request now serial = .ok chain := by
  obtain ⟨der, hsign, hlength⟩ := (Option.any_eq_true _ _).1 hsize
  obtain ⟨leaf, hissue⟩ :=
    issue_eq_prepend hsignature hcontent hwindow hissuer hsign (of_decide_eq_true hlength)
  exact exists_eq_ok_of_prepend hissue hroom

/-- What was done to issue a certificate. -/
theorem issue_eq_ok (h : s.issue request now serial = .ok chain) :
    ∃ content window issuer der, request.verifySignature = .ok ()
      ∧ SigningRequest.Content.ofFields request.fields = .ok content
      ∧ Validity.window? now s.days = some window
      ∧ issuerEntries s.authority.certificate = .ok issuer
      ∧ (template issuer content serial window).sign? s.authority.key = some der
      ∧ Certificate.ofDer der = .ok chain.leaf
      ∧ s.authority.chain.prepend chain.leaf = .ok chain := by
  obtain ⟨⟨⟩, hsignature, h⟩ := bind_eq_ok h
  obtain ⟨content, hcontent, h⟩ := bind_eq_ok h
  split at h
  case h_1 window hwindow =>
    obtain ⟨issuer, hissuer, h⟩ := bind_eq_ok h
    split at h
    case h_1 der hder =>
      obtain ⟨leaf, hleaf, h⟩ := bind_eq_ok h
      -- the last step only puts the certificate in front
      have hchain := Halt.lift_eq_ok h
      have hfirst : chain.leaf = leaf := (Chain.prepend_eq_ok_iff.1 hchain).2.1
      subst hfirst
      exact ⟨content, window, issuer, der, Halt.lift_eq_ok hsignature,
        mapError_eq_ok (Halt.lift_eq_ok hcontent), hwindow,
        mapError_eq_ok (Halt.lift_eq_ok hissuer), hder, Halt.lift_eq_ok hleaf, hchain⟩
    case h_2 => cases h
  case h_2 => cases h

/-- A certificate is issued only for a request that is signed with its own key. -/
theorem verifySignature_of_issue (h : s.issue request now serial = .ok chain) :
    request.verifySignature = .ok () := by
  obtain ⟨content, window, issuer, der, hsignature, -⟩ := issue_eq_ok h
  exact hsignature

/-- A chain that was issued is a new certificate in front of the authority's own
chain. -/
theorem prepend_of_issue (h : s.issue request now serial = .ok chain) :
    s.authority.chain.prepend chain.leaf = .ok chain := by
  obtain ⟨content, window, issuer, der, -, -, -, -, -, -, hchain⟩ := issue_eq_ok h
  exact hchain

/-- The key of an issued certificate has the bits of the request's key and the
kind that the request's signature algorithm stands for. -/
theorem publicKey_of_issue (h : s.issue request now serial = .ok chain) :
    ∃ kind, SigningRequest.Content.keyKindOf request.fields.signed.algorithm.algorithm = .ok kind
      ∧ chain.leaf.fields.publicKey = ⟨kind.keyAlgorithm, request.fields.publicKey.key,
          kind.encodePublic request.fields.publicKey.key⟩ := by
  obtain ⟨content, window, issuer, der, -, hcontent, -, -, hsign, hleaf, -⟩ := issue_eq_ok h
  obtain ⟨hkind, -, -, hkey⟩ := SigningRequest.Content.ofFields_eq_ok hcontent
  have hpublic := (Certificate.ofTemplate hsign rfl hleaf).2.1
  rw [hkey] at hpublic
  exact ⟨content.keyKind, hkind, hpublic⟩

/-- An issued certificate verifies under the authority's own. -/
theorem verifySignedBy_of_issue (hbuilt : s.authority.Built) (hsound : s.authority.key.secret.Sound)
    (h : s.issue request now serial = .ok chain) :
    chain.leaf.verifySignedBy s.authority.certificate = .ok () := by
  obtain ⟨content, window, issuer, der, -, -, -, -, hsign, hleaf, -⟩ := issue_eq_ok h
  have hsigned := (Certificate.ofTemplate hsign rfl hleaf).2.2
  rw [Certificate.verifySignedBy, hsigned, hbuilt.verify_sign hsound]
  rfl

end Signer

-- ============================================================ small samples

/-- The certificate of a small authority for the host `h`, signed with its own
key, which is also the key of the small request. -/
def Certificate.smallDer : Bytes :=
  Bytes.ofNat 36 0x3082013a3081eda003020102020101300506032b6570301e310a300806035504030c0168
    ++ Bytes.ofNat 36 0x3110300e060355040a0c076b657967617465301e170d3730303130313030303030305a17
    ++ Bytes.ofNat 36 0x0d3730303130323030303030305a301e310a300806035504030c01683110300e06035504
    ++ Bytes.ofNat 36 0x0a0c076b657967617465302a300506032b65700321003ee2a8a7283cb2fd728943daa127
    ++ Bytes.ofNat 36 0xef09e483071a8b4bc699ba4522f09b14cfdea350304e300c0603551d1104053003820168
    ++ Bytes.ofNat 36 0x300e0603551d0f0101ff040403020186301d0603551d0e041604146fbccd82e5310548f9
    ++ Bytes.ofNat 36 0xb7b91895f3b54df64e9ade300f0603551d130101ff040530030101ff300506032b657003
    ++ Bytes.ofNat 36 0x410058441292e900e2eb2967ec7f17decd581ea48752e0ea58929cf2b43b78f2dffc6087
    ++ Bytes.ofNat 30 0x6075d8f01114f0f3b6260430e76557db1b83c90c8cd41d961a36028a7202

def Certificate.small : Certificate :=
  .ofBytes smallDer (by decide +kernel) (by decide +kernel)

def Chain.small : Chain := ⟨.small, [], by decide⟩

def Authority.small : Authority := ⟨.small, .generate .ed25519 [7], .ed25519⟩

def Signer.small : Signer := ⟨.small, 1, Nat.one_pos⟩

theorem Authority.generate_small :
    generate "h" .ed25519 1 ⟨0, 0⟩ ⟨[7], [1]⟩ = .ok small := by
  decide +kernel

theorem Certificate.verifySignedBy_small :
    Certificate.small.verifySignedBy .small = .ok () := by
  decide +kernel

theorem Certificate.publicKey_small :
    Certificate.small.publicKey = SigningRequest.edwards.publicKey := by
  decide +kernel

theorem Certificate.commonName_small : Certificate.small.commonName = some "h" := by
  decide +kernel

theorem SigningRequest.verifySignature_edwards : edwards.verifySignature = .ok () := by
  decide +kernel

theorem SigningRequest.content_edwards :
    Content.ofFields edwards.fields = .ok ⟨[Entries.ofText [2, 5, 4, 3] "h"], [], .ed25519,
      edwards.fields.publicKey.key⟩ := by
  decide +kernel

theorem Signer.issuerEntries_small :
    issuerEntries Certificate.small = .ok (Authority.nameOf "h") := by
  decide +kernel

/-- The small authority issues a certificate for the small request. -/
theorem Signer.issue_small_edwards :
    ∃ chain, Signer.small.issue .edwards ⟨0, 0⟩ [1] = .ok chain := by
  have hwindow : Validity.window? ⟨0, 0⟩ Signer.small.days = some (0, 86400) := rfl
  exact exists_issue SigningRequest.verifySignature_edwards SigningRequest.content_edwards hwindow
    issuerEntries_small (by decide +kernel) (by decide)

/-- A certificate that is issued for the small request carries its key. -/
theorem Signer.publicKey_of_issue_edwards [Signatures] {s : Signer} {now : Time.Instant}
    {serial : Bytes} {chain : Chain} (h : s.issue .edwards now serial = .ok chain) :
    chain.leaf.publicKey = SigningRequest.edwards.publicKey := by
  obtain ⟨kind, hkind, hkey⟩ := publicKey_of_issue h
  have hedwards : SigningRequest.Content.keyKindOf
      SigningRequest.edwards.fields.signed.algorithm.algorithm = .ok .ed25519 := by decide +kernel
  cases hedwards.symm.trans hkind
  rw [Certificate.publicKey, hkey]
  decide +kernel

end Enrollment
