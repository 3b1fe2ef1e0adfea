/-
Answering a body: who is admitted, and what a granted reply holds.

A body is admitted exactly when it is complete and carries the code of the
key in its own request for a certificate (`authenticate_eq_ok_iff`).  A
granted reply is the signer's chain in the form of a response
(`granted_of_handle`), whatever the signer is.

With an authority's own signer the certificate carries the bits of the key
that was authenticated, labelled as the signature algorithm of the request
says.  So it carries that very key exactly when the request labels its key
in that way (`certifiesAuthenticated_iff`).
-/
import Enrollment.Crypto.Standard
import Enrollment.Proofs.Authority.Signer
import Enrollment.Proofs.Message
import Enrollment.Proofs.SigningRequest.Basic
import Enrollment.Service.Handler

namespace Enrollment.Service

variable {token : Token} {body : Bytes} {csr : SigningRequest}

-- ============================================================== admission

/-- A complete body is admitted if its code is that of the key in its request. -/
theorem authenticate_of_complete {code : Bytes} {text : String}
    (hrequest : Request.ofJson body = .ok ⟨some code, some text⟩)
    (hread : SigningRequest.ofPem text = .ok csr) :
    authenticate token body
      = if token.mac csr.publicKey = code then .ok csr else .error .forbidden := by
  have hsteps : authenticate token body
      = if !token.verify csr.publicKey code then .error .forbidden else .ok csr := by
    rw [authenticate, hrequest]
    show (SigningRequest.ofPem text).mapError (fun _ => Rejection.invalidRequest) >>= _ = _
    rw [hread]
    show (if !token.verify csr.publicKey code then _ else _) = _
    cases token.verify csr.publicKey code <;> rfl
  rw [hsteps]
  by_cases hcode : token.mac csr.publicKey = code
  · rw [if_pos hcode, Token.verify, beq_iff_eq.2 hcode]
    rfl
  · rw [if_neg hcode, Token.verify, beq_eq_false_iff_ne.2 hcode]
    rfl

/-- A body is admitted exactly when it is complete and its code is that of the
key in its request. -/
theorem authenticate_eq_ok_iff :
    authenticate token body = .ok csr
      ↔ ∃ text, Request.ofJson body = .ok ⟨some (token.mac csr.publicKey), some text⟩
          ∧ SigningRequest.ofPem text = .ok csr := by
  constructor
  · intro h
    obtain ⟨⟨hmac, found⟩, hrequest, hsteps⟩ := bind_eq_ok h
    cases hmac with
    | none => cases hsteps
    | some code =>
      cases found with
      | none => cases hsteps
      | some text =>
        obtain ⟨read, hread, -⟩ := bind_eq_ok hsteps
        have hrequest := mapError_eq_ok hrequest
        have hread := mapError_eq_ok hread
        rw [authenticate_of_complete hrequest hread] at h
        split at h
        case isTrue hcode =>
          cases h
          exact ⟨text, hcode ▸ hrequest, hread⟩
        case isFalse => cases h
  · rintro ⟨text, hrequest, hread⟩
    rw [authenticate_of_complete hrequest hread, if_pos rfl]

/-- What a host that knows some token sends is admitted if that token makes the
same code of its key. -/
theorem authenticate_ofToken (own : Token) (hread : SigningRequest.ofPem csr.pem = .ok csr) :
    authenticate token (Request.ofToken own csr).toJson
      = if token.mac csr.publicKey = own.mac csr.publicKey then .ok csr
        else .error .forbidden :=
  authenticate_of_complete (Request.ofJson_toJson _) hread

/-- Why a body is not admitted. -/
theorem mem_of_authenticate {why : Rejection} (h : authenticate token body = .error why) :
    why ∈ [Rejection.malformed, .missingCode, .missingRequest, .invalidRequest, .forbidden] := by
  -- the steps in order: the message, its two members, the request, the code
  rcases bind_eq_error h with h | ⟨⟨hmac, found⟩, -, h⟩
  · obtain ⟨cause, -, rfl⟩ := mapError_eq_error h
    decide
  · cases hmac with
    | none =>
      cases h
      decide
    | some code =>
      cases found with
      | none =>
        cases h
        decide
      | some text =>
        rcases bind_eq_error h with h | ⟨read, -, h⟩
        · obtain ⟨cause, -, rfl⟩ := mapError_eq_error h
          decide
        · split at h
          case isTrue =>
            cases h
            decide
          case isFalse => cases h

-- ================================================================= asking

/-- What a signer answers is passed on or cannot be. -/
theorem status_conclude (answer : Except Failure Chain) :
    (conclude token answer).status = 200 ∨ (conclude token answer).status = 500 := by
  cases answer with
  | error failure => exact .inr rfl
  | ok chain =>
    obtain ⟨leaf, issuers, hlength⟩ := chain
    cases issuers with
    | nil => exact .inr rfl
    | cons issuer rest => exact .inl rfl

section

variable {m : Type → Type} [Monad m] {signs : SignsIn m}

/-- A body that is not admitted is rejected, and the signer is not asked. -/
theorem handle_of_not_admitted {why : Rejection} (h : authenticate token body = .error why) :
    handle token signs body = pure (.rejected why) := by
  rw [handle, h]

/-- A body that is admitted is answered with what the signer makes of its request. -/
theorem handle_of_admitted [LawfulMonad m] (h : authenticate token body = .ok csr) :
    handle token signs body = conclude token <$> signs csr := by
  rw [handle, h, map_eq_pure_bind]

end

-- ================================================================ granting

/-- A granted reply to a body is the signer's answer to the request in it: a code
over the key of the certificate that is named as issuer, and the first
certificate. -/
theorem granted_of_handle {signs : SignsIn (Except Crash)} {response : Response}
    (h : handle token signs body = .ok (.granted response)) :
    ∃ csr chain issuer rest, authenticate token body = .ok csr ∧ signs csr = .ok (.ok chain)
      ∧ chain.issuers = issuer :: rest ∧ response = .issued token issuer chain.leaf := by
  cases hbody : authenticate token body with
  | error why =>
    rw [handle_of_not_admitted hbody] at h
    cases h
  | ok csr =>
    rw [handle_of_admitted hbody] at h
    obtain ⟨answer, hanswer, h⟩ := map_eq_ok h
    cases answer with
    | error failure => cases h
    | ok chain =>
      obtain ⟨leaf, issuers, hlength⟩ := chain
      cases issuers with
      | nil => cases h
      | cons issuer rest =>
        cases h
        exact ⟨csr, _, issuer, rest, rfl, hanswer, rfl, rfl⟩

/-- No rejection has a status of success. -/
theorem Rejection.status_not_success (why : Rejection) :
    ¬(200 ≤ why.status ∧ why.status ≤ 299) := by
  cases why <;> decide

/-- The body of a rejection is within the limit. -/
theorem Rejection.length_toJson_le (why : Rejection) :
    (Response.rejected why.message).toJson.length ≤ Limits.bodySize := by
  have hmessage : Utf8.size why.message ≤ 100 := by
    cases why <;> decide +kernel
  have hbody := Response.length_toJson_rejected_le why.message
  rw [Limits.bodySize]
  omega

/-- Only a granted reply has the status of success. -/
theorem Reply.status_eq_ok_iff {reply : Reply} :
    reply.status = 200 ↔ ∃ response, reply = .granted response := by
  cases reply with
  | granted response => exact ⟨fun _ => ⟨response, rfl⟩, fun _ => rfl⟩
  | rejected why =>
    refine ⟨fun h => ?_, ?_⟩
    · cases why <;> cases h
    · rintro ⟨response, hreply⟩
      cases hreply

-- ========================================================== certified keys

section

variable [Signatures]

/-- An authority's own signer gives a chain when it has issued one. -/
theorem signsWith_eq_ok_iff {s : Signer} {now : Time.Instant} {serial : Bytes} {chain : Chain} :
    signsWith s now serial csr = .ok (.ok chain) ↔ s.issue csr now serial = .ok chain := by
  rw [signsWith]
  cases s.issue csr now serial with
  | ok found => exact ⟨fun h => by cases h; rfl, fun h => by cases h; rfl⟩
  | error halt =>
    cases halt with
    | failed failure => exact ⟨fun h => (by cases h), fun h => (by cases h)⟩
    | crashed crash => exact ⟨fun h => (by cases h), fun h => (by cases h)⟩

/-- An admitted request for which a certificate is issued is granted it. -/
theorem handle_of_issue {s : Signer} {now : Time.Instant} {serial : Bytes} {chain : Chain}
    (hcsr : authenticate token body = .ok csr) (hissue : s.issue csr now serial = .ok chain) :
    handle token (signsWith s now serial) body
      = .ok (.granted (.issued token s.authority.certificate chain.leaf)) := by
  have hissuers := (Chain.prepend_eq_ok_iff.1 (Signer.prepend_of_issue hissue)).2.2
  obtain ⟨leaf, issuers, hlength⟩ := chain
  cases hissuers
  rw [handle_of_admitted hcsr, signsWith_eq_ok_iff.2 hissue]
  rfl

/-- An admitted request for which no certificate can be issued is rejected, and
not told why. -/
theorem handle_of_failed {s : Signer} {now : Time.Instant} {serial : Bytes} {failure : Failure}
    (hcsr : authenticate token body = .ok csr)
    (hissue : s.issue csr now serial = .error (.failed failure)) :
    handle token (signsWith s now serial) body = .ok (.rejected .signingFailed) := by
  rw [handle_of_admitted hcsr, signsWith, hissue]
  rfl

/-- Answering breaks down where issuing does. -/
theorem handle_of_crashed {s : Signer} {now : Time.Instant} {serial : Bytes} {crash : Crash}
    (hcsr : authenticate token body = .ok csr)
    (hissue : s.issue csr now serial = .error (.crashed crash)) :
    handle token (signsWith s now serial) body = .error crash := by
  rw [handle_of_admitted hcsr, signsWith, hissue]
  rfl

/-- The key that a response certifies is the key that its request authenticates:
the code that was sent is over the key in the certificate, which is the key in
the request, and the request's own signature verifies under it. -/
def CertifiesAuthenticated (token : Token) (body : Bytes) (response : Response) : Prop :=
  ∃ request text csr certificate leaf,
    Request.ofJson body = .ok request ∧ request.csr = some text
      ∧ SigningRequest.ofPem text = .ok csr
      ∧ response.certificate = some certificate ∧ Certificate.ofPem certificate = .ok leaf
      ∧ request.hmac = some (token.mac leaf.publicKey)
      ∧ leaf.publicKey = csr.publicKey
      ∧ csr.fields.signed.verify leaf.fields.publicKey = .ok ()

/-- What a granted reply of an authority's own signer holds. -/
theorem granted_of_signsWith {s : Signer} {now : Time.Instant} {serial : Bytes} {reply : Reply}
    (h : handle token (signsWith s now serial) body = .ok reply) (hok : reply.status = 200) :
    ∃ csr kind leaf,
      Request.ofJson body = .ok ⟨some (token.mac csr.publicKey), some csr.pem⟩
        ∧ SigningRequest.ofPem csr.pem = .ok csr
        ∧ csr.verifySignature = .ok ()
        ∧ SigningRequest.Content.keyKindOf csr.fields.signed.algorithm.algorithm = .ok kind
        ∧ reply = .granted (.issued token s.authority.certificate leaf)
        ∧ leaf.publicKey = kind.encodePublic csr.fields.publicKey.key := by
  obtain ⟨response, rfl⟩ := Reply.status_eq_ok_iff.1 hok
  obtain ⟨csr, chain, issuer, rest, hcsr, hsigns, hissuers, rfl⟩ := granted_of_handle h
  obtain ⟨text, hrequest, hread⟩ := authenticate_eq_ok_iff.1 hcsr
  have htext := SigningRequest.pem_of_ofPem hread
  subst htext
  have hissue := signsWith_eq_ok_iff.1 hsigns
  have hissuer : issuer = s.authority.certificate := by
    have hchain := (Chain.prepend_eq_ok_iff.1 (Signer.prepend_of_issue hissue)).2.2
    rw [hissuers] at hchain
    exact (List.cons.inj hchain).1
  subst hissuer
  obtain ⟨kind, hkind, hkey⟩ := Signer.publicKey_of_issue hissue
  have hleaf : chain.leaf.publicKey = kind.encodePublic csr.fields.publicKey.key := by
    rw [Certificate.publicKey, hkey]
  exact ⟨csr, kind, chain.leaf, hrequest, hread, Signer.verifySignature_of_issue hissue, hkind,
    rfl, hleaf⟩

/-- A response certifies the key that was authenticated if its certificate carries
the key of the request. -/
theorem certifiesAuthenticated_issued {issuer leaf : Certificate}
    (hrequest : Request.ofJson body = .ok ⟨some (token.mac csr.publicKey), some csr.pem⟩)
    (hread : SigningRequest.ofPem csr.pem = .ok csr) (hverify : csr.verifySignature = .ok ()) :
    CertifiesAuthenticated token body (.issued token issuer leaf)
      ↔ leaf.publicKey = csr.publicKey := by
  constructor
  · rintro ⟨request, text, other, certificate, found, hrequest', htext, hread', hcertificate,
      hpem, -, hsame, -⟩
    cases hrequest.symm.trans hrequest'
    cases htext
    cases hread.symm.trans hread'
    have hcertificate : leaf.pem = certificate := Option.some.inj hcertificate
    subst hcertificate
    cases (Certificate.ofPem_pem leaf).symm.trans hpem
    exact hsame
  · intro hsame
    refine ⟨_, csr.pem, csr, leaf.pem, leaf, hrequest, rfl, hread, rfl, Certificate.ofPem_pem _,
      ?_, hsame, ?_⟩
    · rw [hsame]
    · rw [SigningRequest.fields_publicKey_eq hsame]
      exact mapError_eq_ok hverify

/-- A certificate that an authority's own signer grants carries the bits of the
key that was authenticated, and carries that very key exactly when the request
labels its key as the kind that its signature algorithm stands for. -/
theorem certifiesAuthenticated_iff {s : Signer} {now : Time.Instant} {serial : Bytes}
    {reply : Reply} (h : handle token (signsWith s now serial) body = .ok reply)
    (hok : reply.status = 200) :
    ∃ csr kind leaf,
      Request.ofJson body = .ok ⟨some (token.mac csr.publicKey), some csr.pem⟩
        ∧ SigningRequest.ofPem csr.pem = .ok csr
        ∧ csr.verifySignature = .ok ()
        ∧ SigningRequest.Content.keyKindOf csr.fields.signed.algorithm.algorithm = .ok kind
        ∧ reply = .granted (.issued token s.authority.certificate leaf)
        ∧ leaf.publicKey = kind.encodePublic csr.fields.publicKey.key
        ∧ (CertifiesAuthenticated token body reply.message
            ↔ csr.publicKey = kind.encodePublic csr.fields.publicKey.key) := by
  obtain ⟨csr, kind, leaf, hrequest, hread, hverify, hkind, rfl, hleaf⟩ :=
    granted_of_signsWith h hok
  refine ⟨csr, kind, leaf, hrequest, hread, hverify, hkind, rfl, hleaf, ?_⟩
  rw [Reply.message, certifiesAuthenticated_issued hrequest hread hverify, hleaf]
  exact eq_comm

end

/-- A request for a key on the curve P-256, signed by ECDSA over SHA-384. -/
def curveDer : Bytes :=
  Bytes.ofNat 36 0x3081c7306e020100300c310a300806035504030c01683059301306072a8648ce3d020106
    ++ Bytes.ofNat 36 0x082a8648ce3d03010703420004bda4161e320cbf206a7678caa69866223858e67be582c8
    ++ Bytes.ofNat 36 0x5fe75943df78f6c23728f9745e11d1dfb266d9e6b85166d25fe38949d12d7eba55bd8da6
    ++ Bytes.ofNat 36 0x3429d4b6e0a000300a06082a8648ce3d0403030349003046022100ade7ca38b0a39d84f0
    ++ Bytes.ofNat 36 0xab7dc9db5414782e478e5226d5d2a198a2c19a5d27dd1702210097ffdb59e96022553493
    ++ Bytes.ofNat 22 0x7cf65d4510420d2d0cad2d84adf47e171a870082e4d5

def curveRequest : SigningRequest := .ofDer curveDer (by decide +kernel) (by decide +kernel)

/-- What a host that knows a short token sends. -/
def smallBody (csr : SigningRequest) : Bytes := (Request.ofToken .small csr).toJson

/-- A request that the small authority issues a certificate for is granted it. -/
theorem handle_small {chain : Chain} (hread : SigningRequest.ofPem csr.pem = .ok csr)
    (hissue : Signer.small.issue csr ⟨0, 0⟩ [1] = .ok chain) :
    handle .small (signsWith .small ⟨0, 0⟩ [1]) (smallBody csr)
      = .ok (.granted (.issued .small .small chain.leaf)) := by
  have hcsr : authenticate .small (smallBody csr) = .ok csr := by
    rw [smallBody, authenticate_ofToken .small hread, if_pos rfl]
  exact handle_of_issue hcsr hissue

/-- The small authority issues a certificate for the request on a curve. -/
theorem issue_small_curve :
    ∃ chain, Signer.small.issue curveRequest ⟨0, 0⟩ [1] = .ok chain := by
  have hsignature : curveRequest.verifySignature = .ok () := by decide +kernel
  have hcontent : SigningRequest.Content.ofFields curveRequest.fields
      = .ok ⟨[Entries.ofText [2, 5, 4, 3] "h"], [], .ec .p384,
          curveRequest.fields.publicKey.key⟩ := by decide +kernel
  have hwindow : Validity.window? ⟨0, 0⟩ Signer.small.days = some (0, 86400) := rfl
  exact Signer.exists_issue hsignature hcontent hwindow Signer.issuerEntries_small
    (by decide +kernel) (by decide)

/-- The request that a body was made for is the one that is read in it. -/
theorem eq_of_ofJson_small {code : Option Bytes} {other : SigningRequest}
    (hread : SigningRequest.ofPem csr.pem = .ok csr)
    (hrequest : Request.ofJson (smallBody csr) = .ok ⟨code, some other.pem⟩)
    (hother : SigningRequest.ofPem other.pem = .ok other) : other = csr := by
  have hsame : Request.ofToken .small csr = ⟨code, some other.pem⟩ :=
    Except.ok.inj ((Request.ofJson_toJson _).symm.trans hrequest)
  have hpem : csr.pem = other.pem := Option.some.inj (congrArg Request.csr hsame)
  rw [hpem, hother] at hread
  exact Except.ok.inj hread

/-- The key of a request that was made for it is the one that is certified. -/
theorem certifiesAuthenticated_edwards :
    ∃ s reply, handle .small (signsWith s ⟨0, 0⟩ [1]) (smallBody .edwards) = .ok reply
      ∧ reply.status = 200
      ∧ CertifiesAuthenticated .small (smallBody .edwards) reply.message := by
  have hpem := SigningRequest.ofPem_edwards
  obtain ⟨chain, hissue⟩ := Signer.issue_small_edwards
  have hreply := handle_small hpem hissue
  obtain ⟨csr, kind, leaf, hrequest, hread, -, hkind, -, -, hiff⟩ :=
    certifiesAuthenticated_iff hreply rfl
  have hcsr : csr = SigningRequest.edwards := eq_of_ofJson_small hpem hrequest hread
  subst hcsr
  have hedwards : SigningRequest.Content.keyKindOf
      SigningRequest.edwards.fields.signed.algorithm.algorithm = .ok .ed25519 := by decide +kernel
  cases hedwards.symm.trans hkind
  exact ⟨_, _, hreply, rfl, hiff.2 (by decide +kernel)⟩

/-- A key on the curve P-256 is certified as one on the curve P-384 when the
signature of its request is over SHA-384. -/
theorem not_certifiesAuthenticated_curve :
    ∃ s reply, handle .small (signsWith s ⟨0, 0⟩ [1]) (smallBody curveRequest) = .ok reply
      ∧ reply.status = 200
      ∧ ¬CertifiesAuthenticated .small (smallBody curveRequest) reply.message := by
  have hpem : SigningRequest.ofPem curveRequest.pem = .ok curveRequest :=
    SigningRequest.ofPem_ofDer _ _
  obtain ⟨chain, hissue⟩ := issue_small_curve
  have hreply := handle_small hpem hissue
  obtain ⟨csr, kind, leaf, hrequest, hread, hverify, hkind, hgranted, hleaf⟩ :=
    granted_of_signsWith hreply rfl
  have hcsr : csr = curveRequest := eq_of_ofJson_small hpem hrequest hread
  subst hcsr
  have hcurve : SigningRequest.Content.keyKindOf
      curveRequest.fields.signed.algorithm.algorithm = .ok (.ec .p384) := by decide +kernel
  cases hcurve.symm.trans hkind
  refine ⟨_, _, hreply, rfl, fun h => ?_⟩
  rw [hgranted] at h
  have hsame := (certifiesAuthenticated_issued hrequest hread hverify).1 h
  exact absurd (hleaf.symm.trans hsame) (by decide +kernel)

end Enrollment.Service
