/-
Answering the body of a request.

Before the signer is asked, the request must be complete and must prove
knowledge of the token.  The reply proves it in turn, over the key of the
certificate that the signer names as issuer.
-/
import Enrollment.Authority.Signer
import Enrollment.Service.Reply

namespace Enrollment.Service

/-- A signer, which answers a request with a chain or a failure and may have
effects of its own. -/
abbrev SignsIn (m : Type → Type) := SigningRequest → m (Except Failure Chain)

/-- An authority's own signer at a point in time, with a serial number drawn for
the request; it breaks down where the date of expiry cannot be computed. -/
def signsWith [Signatures] (s : Signer) (now : Time.Instant) (serial : Bytes) :
    SignsIn (Except Crash) :=
  fun request => Halt.settle (s.issue request now serial)

/-- The request for a certificate in a body, when it is complete and proves
knowledge of the token. -/
def authenticate (token : Token) (body : Bytes) : Except Rejection SigningRequest := do
  let request ← (Request.ofJson body).mapError fun _ => .malformed
  let some code := request.hmac | throw .missingCode
  let some text := request.csr | throw .missingRequest
  let csr ← (SigningRequest.ofPem text).mapError fun _ => .invalidRequest
  if !token.verify csr.publicKey code then throw .forbidden
  return csr

/-- The reply to an admitted request, from the signer's answer. -/
def conclude (token : Token) : Except Failure Chain → Reply
  | .ok ⟨leaf, issuer :: _, _⟩ => .granted (.issued token issuer leaf)
  | .ok ⟨_, [], _⟩ => .rejected .signingFailed
  | .error _ => .rejected .signingFailed

/-- Answers a body; the signer is asked once, for an admitted request, and
otherwise not at all. -/
def handle {m : Type → Type} [Monad m] (token : Token) (signs : SignsIn m) (body : Bytes) :
    m Reply :=
  match authenticate token body with
  | .error why => return .rejected why
  | .ok request => return conclude token (← signs request)

end Enrollment.Service
