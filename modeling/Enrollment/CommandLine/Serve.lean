/-
The options of the command that serves requests.
-/
import Enrollment.CommandLine.Value
import Enrollment.Service.Settings

namespace Enrollment.CommandLine

/-- What an authority is served with. -/
structure ServeOptions where
  token : String
  cert : String := "ca-cert.pem"
  key : String := "ca-key.pem"
  address : Net.Address := ({} : Service.Settings).address
  port : Nat := Service.defaultPort
  days : Nat := Signer.defaultDays
  ratePerSecond : Nat := ({} : Rate).perSecond
  rateBurst : Nat := ({} : Rate).burst
  /-- In seconds. -/
  requestTimeout : Nat := ({} : Service.Settings).requestTimeout.seconds
  maxConnections : Nat := ({} : Service.Settings).maxConnections
  deriving Repr, DecidableEq

namespace ServeOptions

/-- The options of the command. -/
def spec : Options ServeOptions where
  start := { token := "" }
  parameters := [
    { name := "token", variableName := some "KEYGATE_TOKEN", required := true
      store := storing .ok fun t o => { o with token := t } },
    { name := "cert", variableName := some "KEYGATE_CERT"
      store := storing Value.path fun t o => { o with cert := t } },
    { name := "key", variableName := some "KEYGATE_KEY"
      store := storing Value.path fun t o => { o with key := t } },
    { name := "bind", variableName := some "KEYGATE_BIND"
      store := storing Value.address fun a o => { o with address := a } },
    { name := "port", variableName := some "KEYGATE_PORT"
      store := storing (Value.small Value.maxPort) fun n o => { o with port := n } },
    { name := "days", variableName := some "KEYGATE_DAYS"
      store := storing (Value.small Value.maxCount) fun n o => { o with days := n } },
    { name := "rate-per-second", variableName := some "KEYGATE_RATE_PER_SECOND"
      store := storing (Value.small Value.maxCount) fun n o => { o with ratePerSecond := n } },
    { name := "rate-burst", variableName := some "KEYGATE_RATE_BURST"
      store := storing (Value.small Value.maxCount) fun n o => { o with rateBurst := n } },
    { name := "request-timeout", variableName := some "KEYGATE_REQUEST_TIMEOUT"
      store := storing (Value.nat Value.maxSize) fun n o => { o with requestTimeout := n } },
    { name := "max-connections", variableName := some "KEYGATE_MAX_CONNECTIONS"
      store := storing (Value.nat Value.maxSize) fun n o => { o with maxConnections := n } }]

/-- The settings of the service; a rate of zero stands for no limit. -/
def settings (o : ServeOptions) : Service.Settings where
  address := o.address
  port := o.port
  days := o.days
  rate := if o.ratePerSecond = 0 then none else some ⟨o.ratePerSecond, o.rateBurst⟩
  requestTimeout := ⟨o.requestTimeout, 0⟩
  maxConnections := o.maxConnections

end ServeOptions

end Enrollment.CommandLine
