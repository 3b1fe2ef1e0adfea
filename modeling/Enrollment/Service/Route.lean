/-
Answering a request as it arrives.

Path and method are looked at first, then the rate, then the size of the body,
and last what the body says.  So a request to another place is never counted,
and one that is turned away for its rate is not read.
-/
import Enrollment.Service.Handler
import Enrollment.Service.Limiter

namespace Enrollment.Service

/-- Is it a request for a certificate, by its path and its method? -/
def checkPlace (r : Http.Request) : Except Rejection Unit :=
  if r.path ≠ Http.signPath then .error .noSuchPath
  else if r.method ≠ Http.signMethod then .error .noSuchMethod
  else .ok ()

/-- Lets a request through, and counts it, where there is a limiter. -/
def checkRate (limiter : Option Limiter) (now : Nat) : Bool × Option Limiter :=
  match limiter with
  | none => (true, none)
  | some l =>
    let (passed, l) := l.check now
    (passed, some l)

variable {m : Type → Type} [Monad m]

/-- Answers a request for a certificate that was let through. -/
def serve (token : Token) (signs : SignsIn m) (body : Http.Body) : m Reply :=
  match body.read Limits.bodySize with
  | .error fault => return .rejected (.ofBodyFault fault)
  | .ok bytes => handle token signs bytes

/-- Answers a request at a time in nanoseconds, and hands back the limiter. -/
def route (token : Token) (signs : SignsIn m) (limiter : Option Limiter) (now : Nat)
    (r : Http.Request) : m (Reply × Option Limiter) :=
  match checkPlace r with
  | .error why => return (.rejected why, limiter)
  | .ok () =>
    match checkRate limiter now with
    | (false, limiter) => return (.rejected .rateExceeded, limiter)
    | (true, limiter) => return (← serve token signs r.body, limiter)

end Enrollment.Service
