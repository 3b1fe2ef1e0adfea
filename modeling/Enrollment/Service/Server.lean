/-
The service as a whole: configured once, then started and shut down in turn.

While it runs it serves connections, of which it has a fixed number of places.
A connection takes a place when it arrives and gives it back however it ends;
when there is none it is dropped.  The limiter and the places outlive a
shutdown, which ends every connection that is being served.
-/
import Enrollment.Service.Identity
import Enrollment.Service.Route

namespace Enrollment.Service

-- ================================================================= faults

/-- Why the service cannot be configured, started or shut down. -/
inductive Fault where
  | alreadyRunning
  | notRunning
  | bind (address : Net.SocketAddress) (text : String)
  | identity (fault : IdentityFault)
  | authority (failure : Failure)
  deriving Repr, DecidableEq

namespace Fault

/-- The wording of a fault. -/
def message : Fault → String
  | .alreadyRunning => "server is already running"
  | .notRunning => "server is not running"
  | .bind address text => "failed to bind " ++ address.text ++ ": " ++ text
  | .identity fault => "TLS configuration failed: " ++ fault.message
  | .authority failure => "CA configuration failed: " ++ failure.message

/-- What lies behind a fault. -/
def causes : Fault → List String
  | .alreadyRunning | .notRunning => []
  | .bind _ text => [text]
  | .identity fault => [fault.message]
  | .authority failure => failure.message :: failure.causes

end Fault

-- ============================================================ the service

/-- A service. -/
structure Server where
  settings : Settings
  /-- What it presents itself with. -/
  authority : Authority
  token : Token
  limiter : Option Limiter
  /-- The address it listens at, while it runs. -/
  listening : Option Net.SocketAddress := none
  /-- The places that are free. -/
  free : Nat
  /-- The connections being served. -/
  served : List Nat := []

namespace Server

/-- The greatest number of places. -/
def maxPlaces : Nat := 2 ^ 61 - 1

/-- Does the service run? -/
def isRunning (s : Server) : Bool :=
  s.listening.isSome

/-- What comes of configuring a service, and what was noted on the way. -/
structure Configured where
  notices : List Notice
  result : Except Crash (Except Fault Server)

/-- Configures a service whose requests a signer of any kind answers; the
authority is only what it presents itself with. -/
def configureWith (settings : Settings) (a : Authority) (token : Token) (now : Time.Instant) :
    Configured where
  notices := token.notices ++ validityNotices a now
  result :=
    match checkIdentity a with
    | .error fault => .ok (.error (.identity fault))
    | .ok () =>
      if maxPlaces < settings.maxConnections then .error .tooManyPlaces
      else .ok (.ok
        { settings, authority := a, token
          limiter := settings.rate.map Limiter.ofRate
          free := settings.maxConnections })

/-- The signer of a service that signs with its own authority. -/
def signerOf (settings : Settings) (a : Authority) : Except Failure Signer :=
  Signer.ofAuthority a (settings.algorithm.getD a.algorithm) settings.days

/-- Configures a service that signs with its own authority. -/
def configure (settings : Settings) (a : Authority) (token : Token) (now : Time.Instant) :
    Configured :=
  match signerOf settings a with
  | .error failure => ⟨[], .ok (.error (.authority failure))⟩
  | .ok _ => configureWith settings a token now

-- ============================================================= life cycle

/-- Starts to listen; `bind` is what the system makes of the address asked for. -/
def start (s : Server) (bind : Net.SocketAddress → Except String Net.SocketAddress) :
    Except Fault Net.SocketAddress × Server :=
  if s.isRunning then (.error .alreadyRunning, s)
  else
    match bind s.settings.socketAddress with
    | .error text => (.error (.bind s.settings.socketAddress text), s)
    | .ok address => (.ok address, { s with listening := some address })

/-- Stops listening, and ends every connection that is being served. -/
def shutdown (s : Server) : Except Fault Unit × Server :=
  if s.isRunning then
    (.ok (), { s with listening := none, free := s.free + s.served.length, served := [] })
  else (.error .notRunning, s)

-- ============================================================ connections

/-- How a connection ends. -/
inductive Ending where
  | handshakeFailed
  | handshakeTimeout
  /-- The other side closes it, or breaks the rules above the handshake. -/
  | closed
  /-- Answering a request on it broke down. -/
  | crashed (crash : Crash)
  deriving Repr, DecidableEq

/-- What is noted of the end of a connection. -/
def Ending.notices : Ending → List Notice
  | .handshakeFailed => [.handshakeFailed]
  | .handshakeTimeout => [.handshakeTimeout]
  | .closed | .crashed _ => []

/-- What becomes of a connection that arrives. -/
inductive Arrival where
  | served
  /-- It is dropped, as there is no place. -/
  | dropped
  /-- Nobody listens. -/
  | refused
  deriving Repr, DecidableEq

/-- What is noted of an arrival. -/
def Arrival.notices : Arrival → List Notice
  | .dropped => [.connectionLimit]
  | .served | .refused => []

/-- A connection arrives, and takes a place if there is one. -/
def arrive (s : Server) (connection : Nat) : Arrival × Server :=
  if !s.isRunning then (.refused, s)
  else if s.free = 0 then (.dropped, s)
  else (.served, { s with free := s.free - 1, served := connection :: s.served })

/-- A connection ends and gives its place back, if it had one. -/
def finish (s : Server) (connection : Nat) (how : Ending) : List Notice × Server :=
  if connection ∈ s.served then
    (how.notices, { s with free := s.free + 1, served := s.served.erase connection })
  else ([], s)

/-- A request comes on a connection, at a time in nanoseconds. -/
def request {m : Type → Type} [Monad m] (s : Server) (signs : SignsIn m) (now : Nat)
    (r : Http.Request) : m (Reply × Server) := do
  let (reply, limiter) ← route s.token signs s.limiter now r
  return (reply, { s with limiter })

end Server

end Enrollment.Service
