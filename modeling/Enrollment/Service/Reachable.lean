/-
A service as a client meets it, with nobody in between.
-/
import Enrollment.Client.Contact
import Enrollment.Service.Server

namespace Enrollment.Service

/-- The answer that a client gets, when a reply is sent or answering breaks down. -/
def answerOf : Except Crash (Reply × Server) → Client.Answer
  | .ok (reply, _) => .response reply.toHttp
  | .error _ => .broken "connection closed before message completed"

/-- What comes of dialling a service, at a time in nanoseconds: it presents its
authority's own chain and answers as it is told to sign. -/
def Server.contact (s : Server) (signs : SignsIn (Except Crash)) (now : Nat) : Client.Contact :=
  if !s.isRunning then .refused "connection refused"
  else if s.free = 0 then .handshakeFailed "connection dropped"
  else .connected (s.authority.chain.toList.map (·.der)) fun r => answerOf (s.request signs now r)

end Enrollment.Service
