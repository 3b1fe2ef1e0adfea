/-
What a client is set to.
-/
import Enrollment.Duration
import Enrollment.KeyAlgorithm
import Enrollment.Text.Quoted

namespace Enrollment.Client

/-- The settings of a client. -/
structure Settings where
  /-- The host to connect to, which is also the name that the authority's
  certificate has to bear. -/
  host : String
  port : Nat := 8443
  /-- The algorithm of fresh keys. -/
  algorithm : KeyAlgorithm := .standard
  /-- The alternative names to ask for. -/
  names : List String := []
  /-- The time that one exchange may take. -/
  timeout : Duration := ⟨30, 0⟩
  deriving Repr, DecidableEq

/-- The text that settings are shown as. -/
def Settings.describe (s : Settings) : String :=
  "ClientSettings \x7b ca_hostname: " ++ Text.quoted s.host ++ ", port: " ++ Text.decimal s.port
    ++ ", algorithm: " ++ s.algorithm.label ++ ", subject_alt_names: ["
    ++ ", ".intercalate (s.names.map Text.quoted) ++ "], timeout: " ++ s.timeout.text ++ " \x7d"

end Enrollment.Client
