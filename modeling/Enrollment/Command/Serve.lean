/-
Serving an authority: it is loaded from two files, and the service is
configured and started.  It runs until it is told to stop.
-/
import Enrollment.Command.Job

namespace Enrollment.Command

variable [Signatures]

/-- Configures a service, with what is noted on the way. -/
def configure (settings : Service.Settings) (a : Authority) (token : Token) (now : Time.Instant) :
    Job Service.Server := do
  let configured := Service.Server.configure settings a token now
  Job.note configured.notices
  match configured.result with
  | .error crash => throw (.crashed crash)
  | .ok result => Job.expect .configureServer .service result

/-- Loads an authority and starts its service; `bind` is what the system makes of
the address asked for. -/
def serve (settings : Service.Settings) (token certificatePath keyPath : String)
    (now : Time.Instant) (bind : Net.SocketAddress → Except String Net.SocketAddress) :
    Job Service.Server := do
  let chainText ← Job.readText certificatePath
  let keyText ← Job.readText keyPath
  let a ← Job.expect .loadAuthority .enrollment (Authority.ofPem chainText keyText)
  let token ← Job.expect .readToken .enrollment (Token.ofSecret (Utf8.encode token))
  let server ← configure settings a token now
  let (started, server) := server.start bind
  let _ ← Job.expect .startServer .service started
  return server

/-- Stops a service. -/
def stop (server : Service.Server) : Job Unit :=
  Job.expect .stopServer .service server.shutdown.1

end Enrollment.Command
