/-
The options of the command that requests a certificate.
-/
import Enrollment.Client.Settings
import Enrollment.CommandLine.Value

namespace Enrollment.CommandLine

/-- What a certificate is requested with. -/
structure RequestOptions where
  token : String
  subject : String
  settings : Client.Settings
  outDir : String := "."
  deriving Repr, DecidableEq

namespace RequestOptions

/-- Reads a value and puts it into the settings of the client. -/
def setting {α : Type} (value : String → Except Refusal α)
    (put : α → Client.Settings → Client.Settings) :
    String → RequestOptions → Except Refusal RequestOptions :=
  storing value fun a o => { o with settings := put a o.settings }

/-- The options of the command. -/
def spec : Options RequestOptions where
  start := { token := "", subject := "", settings := { host := "" } }
  parameters := [
    { name := "ca-hostname", variableName := some "KEYGATE_CA_HOSTNAME", required := true
      store := setting .ok fun t s => { s with host := t } },
    { name := "token", variableName := some "KEYGATE_TOKEN", required := true
      store := storing .ok fun t o => { o with token := t } },
    { name := "dn", variableName := some "KEYGATE_DN", required := true
      store := storing .ok fun t o => { o with subject := t } },
    { name := "port", variableName := some "KEYGATE_PORT"
      store := setting (Value.small Value.maxPort) fun n s => { s with port := n } },
    { name := "san", repeats := true
      store := setting .ok fun t s => { s with names := s.names ++ [t] } },
    { name := "algorithm", variableName := some "KEYGATE_ALGORITHM"
      store := setting Value.algorithm fun a s => { s with algorithm := a } },
    { name := "timeout", variableName := some "KEYGATE_TIMEOUT"
      store := setting Value.duration fun d s => { s with timeout := d } },
    { name := "out-dir", variableName := some "KEYGATE_OUT_DIR"
      store := storing Value.path fun t o => { o with outDir := t } }]

end RequestOptions

end Enrollment.CommandLine
