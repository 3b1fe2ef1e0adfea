/-
The options of the command that makes an authority.
-/
import Enrollment.CommandLine.Value

namespace Enrollment.CommandLine

/-- What an authority is made with. -/
structure InitOptions where
  hostname : String
  days : Nat := 3650
  algorithm : KeyAlgorithm := .standard
  outDir : String := "."
  deriving Repr, DecidableEq

/-- The options of the command. -/
def InitOptions.spec : Options InitOptions where
  start := { hostname := "" }
  parameters := [
    { name := "hostname", variableName := some "KEYGATE_HOSTNAME", required := true
      store := storing .ok fun t o => { o with hostname := t } },
    { name := "days"
      store := storing (Value.small Value.maxCount) fun n o => { o with days := n } },
    { name := "algorithm", variableName := some "KEYGATE_ALGORITHM"
      store := storing Value.algorithm fun a o => { o with algorithm := a } },
    { name := "out-dir", variableName := some "KEYGATE_OUT_DIR"
      store := storing Value.path fun t o => { o with outDir := t } }]

end Enrollment.CommandLine
