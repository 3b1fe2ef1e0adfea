/-
What the service shows of itself when a connection is opened: the authority's
chain, as far as it can be presented.
-/
import Enrollment.Certificate.Period
import Enrollment.Certificate.Presentable
import Enrollment.Notice
import Enrollment.Service.Settings

namespace Enrollment.Service

/-- Why an authority cannot be presented. -/
inductive IdentityFault where
  /-- Its certificate is of a form that no handshake takes. -/
  | notPresentable
  deriving Repr, DecidableEq

/-- The wording of a fault. -/
def IdentityFault.message : IdentityFault → String
  | .notPresentable => "failed to build TLS config"

/-- The protocols offered above the connection. -/
def protocols : List String := ["http/1.1"]

/-- What is noted of an authority: a certificate out of its time is presented all
the same, as clients do not look at the time. -/
def validityNotices (a : Authority) (now : Time.Instant) : List Notice :=
  match a.certificate.positionAt now with
  | .current => []
  | .notYetValid notBefore => [.authorityNotYetValid notBefore]
  | .expired notAfter => [.authorityExpired notAfter]

/-- Checks that an authority can be presented; only its own certificate counts. -/
def checkIdentity (a : Authority) : Except IdentityFault Unit :=
  if a.certificate.isPresentable then .ok () else .error .notPresentable

end Enrollment.Service
