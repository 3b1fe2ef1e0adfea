/-
What the service replies with: a certificate, or a rejection.

A rejection has a status and a short text and says nothing else.
-/
import Enrollment.Http
import Enrollment.Message
import Enrollment.Notice

namespace Enrollment.Service

/-- Why a request is not granted. -/
inductive Rejection where
  -- what the request is not
  | noSuchPath
  | noSuchMethod
  | rateExceeded
  | bodyTooLarge
  | bodyTimeout
  | bodyUnreadable
  -- what it does not say
  | malformed
  | missingCode
  | missingRequest
  | invalidRequest
  -- who does not ask or cannot grant
  | forbidden
  | signingFailed
  deriving Repr, DecidableEq

namespace Rejection

/-- The status of a rejection. -/
def status : Rejection → Nat
  | .noSuchPath => 404
  | .noSuchMethod => 405
  | .rateExceeded => 429
  | .bodyTimeout => 408
  | .bodyTooLarge | .bodyUnreadable => 400
  | .malformed | .missingCode | .missingRequest | .invalidRequest => 400
  | .forbidden => 403
  | .signingFailed => 500

/-- The text of a rejection. -/
def message : Rejection → String
  | .noSuchPath => "not found"
  | .noSuchMethod => "method not allowed"
  | .rateExceeded => "rate limit exceeded"
  | .bodyTooLarge => "request body too large"
  | .bodyTimeout => "request timed out"
  | .bodyUnreadable => "failed to read request body"
  | .malformed => "malformed request"
  | .missingCode => "hmac field must be set"
  | .missingRequest => "csr field must be set"
  | .invalidRequest => "invalid csr"
  | .forbidden => "forbidden"
  | .signingFailed => "internal error"

/-- What is noted of a rejection. -/
def notices : Rejection → List Notice
  | .rateExceeded => [.rateExceeded]
  | .bodyTooLarge => [.oversizedRequest]
  | .bodyTimeout => [.bodyTimeout]
  | .forbidden => [.requestCode]
  | .signingFailed => [.signingFailed]
  | _ => []

/-- The rejection of a request whose body cannot be read. -/
def ofBodyFault : Http.BodyFault → Rejection
  | .tooLarge => .bodyTooLarge
  | .broken => .bodyUnreadable
  | .stalled => .bodyTimeout

end Rejection

/-- The answer to a request. -/
inductive Reply where
  | granted (response : Response)
  | rejected (why : Rejection)
  deriving Repr, DecidableEq

namespace Reply

/-- The status of a reply. -/
def status : Reply → Nat
  | .granted _ => 200
  | .rejected why => why.status

/-- The message of a reply. -/
def message : Reply → Response
  | .granted response => response
  | .rejected why => .rejected why.message

/-- What is noted of a reply. -/
def notices : Reply → List Notice
  | .granted _ => []
  | .rejected why => why.notices

/-- A reply as it is sent. -/
def toHttp (r : Reply) : Http.Response :=
  ⟨r.status, .ofBytes r.message.toJson⟩

end Reply

end Enrollment.Service
