/-
Issuing certificates.

A certificate takes its subject, its key and its host names from the request;
what it may be used for and how long it is valid is for the signer to say.
-/
import Enrollment.Authority.Basic
import Enrollment.SigningRequest.Generate

namespace Enrollment

/-- An authority that issues certificates valid for a number of days. -/
structure Signer where
  authority : Authority
  days : Nat
  days_pos : 0 < days

namespace Signer

/-- The days that certificates are valid for when nothing else is asked. -/
def defaultDays : Nat := 825

/-- The authority as a signer by an algorithm, which has to be its own. -/
def ofAuthority (a : Authority) (algorithm : KeyAlgorithm) (days : Nat) :
    Except Failure Signer :=
  if a.algorithm ≠ algorithm then
    .error (.signing (.algorithmMismatch algorithm.name a.algorithm.name))
  else if h : 0 < days then .ok ⟨a, days, h⟩
  else .error (.signing .noValidity)

/-- The name that a certificate's subject has as an issuer. -/
def issuerEntries (c : Certificate) : Except ContentFault Entries := do
  let usages := c.fields.extensions.filter (·.id == ExtensionId.keyUsage)
  if 1 < usages.length then throw .unreadable
  Entries.ofName c.fields.subject

/-- The certificate that a request is answered with. -/
def template (issuer : Entries) (content : SigningRequest.Content) (serial : Bytes)
    (window : Int × Int) : Template where
  serial := Serial.ofDraw serial
  issuer := issuer
  subject := content.subject
  notBefore := window.1
  notAfter := window.2
  names := content.alternativeNames.filter AlternativeName.isHost
  usages := [.digitalSignature, .keyEncipherment]
  purposes := [Purpose.serverAuth, Purpose.clientAuth]
  isAuthority := false
  publicKey := content.keyKind.encodePublic content.key

variable [Signatures]

/-- Issues a certificate: the answer is the new certificate in front of the
authority's own chain. -/
def issue (s : Signer) (request : SigningRequest) (now : Time.Instant) (serial : Bytes) :
    Except Halt Chain := do
  Halt.lift request.verifySignature
  let content ← Halt.lift ((SigningRequest.Content.ofFields request.fields).mapError
    fun fault => .protocol (.requestContent fault))
  let some window := Validity.window? now s.days | throw (.crashed .dateOutOfRange)
  let issuer ← Halt.lift ((issuerEntries s.authority.certificate).mapError
    fun fault => .signing (.issuerContent fault))
  let some der := (template issuer content serial window).sign? s.authority.key
    | throw (.crashed .objectIdOutOfRange)
  let leaf ← Halt.lift (Certificate.ofDer der)
  Halt.lift (s.authority.chain.prepend leaf)

end Signer

end Enrollment
