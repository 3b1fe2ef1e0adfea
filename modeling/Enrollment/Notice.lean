/-
What either side writes to its log: a notice has a level and a text, and for
the two that are about a time of validity, the end that it lies beyond.
-/
import Enrollment.Der.Time
import Enrollment.Token

namespace Enrollment

/-- How grave a notice is. -/
inductive Level where
  | warning
  | error
  deriving Repr, DecidableEq

/-- The label of a level. -/
def Level.label : Level → String
  | .warning => "WARN"
  | .error => "ERROR"

/-- An entry of a log. -/
inductive Notice where
  | weakToken
  -- authorities
  | authorityExpired (notAfter : Der.ZonedTime)
  | authorityNotYetValid (notBefore : Der.ZonedTime)
  -- the service
  | connectionLimit
  | handshakeFailed
  | handshakeTimeout
  | rateExceeded
  | oversizedRequest
  | bodyTimeout
  | requestCode
  | signingFailed
  -- the client
  | responseCode
  deriving Repr, DecidableEq

namespace Notice

/-- The level of a notice: only a failure to sign is an error. -/
def level : Notice → Level
  | .signingFailed => .error
  | _ => .warning

/-- The wording of a notice. -/
def message : Notice → String
  | .weakToken => "Token is shorter than recommended"
  | .authorityExpired _ => "CA certificate has expired"
  | .authorityNotYetValid _ => "CA certificate is not yet valid"
  | .connectionLimit => "Connection limit reached, dropping connection"
  | .handshakeFailed => "TLS handshake failed"
  | .handshakeTimeout => "TLS handshake timed out"
  | .rateExceeded => "Rate limit exceeded for signing endpoint"
  | .oversizedRequest => "Rejecting oversized request"
  | .bodyTimeout => "Request body timed out"
  | .requestCode => "Request HMAC mismatch"
  | .signingFailed => "Signing failed"
  | .responseCode => "Response HMAC mismatch"

/-- A notice as a line. -/
def text (n : Notice) : String :=
  n.level.label ++ " " ++ n.message

end Notice

/-- What is noted of a token when it is put to use. -/
def Token.notices (t : Token) : List Notice :=
  if t.isWeak then [.weakToken] else []

end Enrollment
