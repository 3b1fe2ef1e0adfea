/-
Making an authority: its key and its certificate as two files of a directory.
An existing key is not written over.
-/
import Enrollment.Command.Job
import Enrollment.CommandLine.Init

namespace Enrollment.Command

/-- The names of the files of an authority. -/
def authorityCertificateName : String := "ca-cert.pem"
def authorityKeyName : String := "ca-key.pem"

variable [Signatures]

/-- Makes an authority, at a point in time and from drawn bytes. -/
def init (o : CommandLine.InitOptions) (now : Time.Instant) (draw : Authority.Draw) :
    Job Unit := do
  Job.createDirectories o.outDir
  let certificatePath := Path.join o.outDir authorityCertificateName
  let keyPath := Path.join o.outDir authorityKeyName
  if (← get).files.has keyPath then Job.fail (.keepFile keyPath) .itself
  let a ← Job.expectOrCrash .generateAuthority
    (Authority.generate o.hostname o.algorithm o.days now draw)
  Job.writePrivate keyPath a.keyPem
  Job.write certificatePath a.chain.pem

end Enrollment.Command
