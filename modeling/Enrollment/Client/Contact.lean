/-
The authority as a client meets it: what comes of dialling its host, which
certificates are presented, and how the request is answered.

Nothing of this is to be trusted.  Whoever sits between the two sides may
present any certificates and give any answer; only the time that the client
waits is the client's own.
-/
import Enrollment.Http

namespace Enrollment.Client

/-- What comes back for a request. -/
inductive Answer where
  | response (response : Http.Response)
  /-- The connection ends, or what comes back is no response. -/
  | broken (text : String)
  /-- Nothing comes in time. -/
  | stalled
  deriving Repr, DecidableEq

/-- What comes of dialling a host. -/
inductive Contact where
  /-- There is no connection. -/
  | refused (text : String)
  /-- The handshake fails. -/
  | handshakeFailed (text : String)
  /-- There is no end of it in time. -/
  | stalled
  /-- The handshake is done: certificates were presented, and a request will be
  answered. -/
  | connected (presented : List Bytes) (answer : Http.Request → Answer)

/-- What comes of dialling each host and port. -/
abbrev Network := (host : String) → (port : Nat) → Contact

end Enrollment.Client
