/-
What a service is set to.
-/
import Enrollment.Authority.Signer
import Enrollment.Net.Address
import Enrollment.Notice

namespace Enrollment

/-- How many requests are let through: so many each second, and so many at once. -/
structure Rate where
  perSecond : Nat := 20
  burst : Nat := 50
  deriving Repr, DecidableEq

namespace Service

/-- The port of the service when nothing else is asked. -/
def defaultPort : Nat := 8443

/-- The settings of a service. -/
structure Settings where
  address : Net.Address := .v4 [0, 0, 0, 0]
  /-- The port; for zero, the system chooses one. -/
  port : Nat := defaultPort
  /-- The days that certificates are valid for. -/
  days : Nat := Signer.defaultDays
  /-- The algorithm to sign by; the one of the authority's key if none is given. -/
  algorithm : Option KeyAlgorithm := none
  /-- The rate of requests; unlimited if none is given. -/
  rate : Option Rate := some {}
  handshakeTimeout : Duration := ⟨10, 0⟩
  requestTimeout : Duration := ⟨30, 0⟩
  /-- Connections served at once. -/
  maxConnections : Nat := 256
  deriving Repr, DecidableEq

/-- The address that is listened at. -/
def Settings.socketAddress (s : Settings) : Net.SocketAddress :=
  ⟨s.address, s.port⟩

end Service

end Enrollment
