/-
Requesting a certificate: the fresh key and the chain issued for it become two
files of a directory, named after the common name in the certificate.  Nothing
is written unless the request succeeds.
-/
import Enrollment.Client.Exchange
import Enrollment.Command.Job
import Enrollment.CommandLine.Request

namespace Enrollment.Command

-- ============================================================ file names

/-- Is the character kept in a file name? -/
def isFileNameChar (c : Char) : Bool :=
  Text.isAsciiLetter c || Text.isAsciiDigit c || c == '-' || c == '.' || c == '_'

/-- A common name with an underscore for each character that a file name should
not have. -/
def fileStem (commonName : String) : String :=
  String.ofList (commonName.toList.map fun c => if isFileNameChar c then c else '_')

/-- The stem of the files for a certificate. -/
def stemOf (c : Certificate) : String :=
  (c.commonName.map fileStem).getD "host"

-- ============================================================= requesting

variable [Signatures]

/-- Requests a certificate over a network, with a key from drawn bytes. -/
def request (o : CommandLine.RequestOptions) (network : Client.Network) (draw : Bytes) :
    Job Unit := do
  let token ← Job.expect .readToken .enrollment (Token.ofSecret (Utf8.encode o.token))
  let client : Client := ⟨o.settings, token⟩
  Job.note client.notices
  let (key, outcome) ← Job.expectOrCrash (.requestFrom o.settings.host)
    (client.issue network o.subject draw)
  Job.note outcome.notices
  let chain ← Job.expect (.requestFrom o.settings.host) .enrollment outcome.result
  let stem := stemOf chain.leaf
  Job.createDirectories o.outDir
  Job.writePrivate (Path.join o.outDir (stem ++ "-key.pem")) key.pem
  Job.write (Path.join o.outDir (stem ++ "-chain.pem")) chain.pem

end Enrollment.Command
