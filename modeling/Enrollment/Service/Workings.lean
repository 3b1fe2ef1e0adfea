/-
The inside of a service.

Behind a lock it keeps whether it runs.  A start that could bind spawns a loop
that accepts connections; the loop spawns a task for each of them, which holds
a permit until it ends, and is joined by the loop later.  A shutdown stops the
loop, and that aborts the tasks it has.  The permits are shared by all loops,
one after the other.
-/
import Enrollment.Service.Run

namespace Enrollment.Service

/-- A task that serves a connection. -/
structure Task where
  /-- The loop that spawned it. -/
  loop : Nat
  connection : Nat
  /-- It has given its permit back, and is not joined yet. -/
  ended : Bool := false
  deriving Repr, DecidableEq

/-- Ends the first task that serves a connection. -/
def Task.endFirst (connection : Nat) : List Task → List Task
  | [] => []
  | t :: tasks =>
    if t.connection = connection ∧ t.ended = false then { t with ended := true } :: tasks
    else t :: endFirst connection tasks

/-- What is kept behind the lock. -/
inductive LockedState where
  | stopped
  | running (address : Net.SocketAddress) (loop : Nat)
  deriving Repr, DecidableEq

/-- The inside of a service. -/
structure Workings where
  settings : Settings
  authority : Authority
  token : Token
  limiter : Option Limiter
  state : LockedState := .stopped
  /-- The loops that accept connections. -/
  loops : List Nat := []
  /-- How many loops were spawned so far. -/
  spawned : Nat := 0
  tasks : List Task := []
  /-- The permits that no task holds. -/
  permits : Nat

/-- What happens to the inside of a service. -/
inductive Happening where
  | event (event : Event)
  /-- Its address is asked for. -/
  | lookUp
  /-- A loop joins the task of a connection, which has ended. -/
  | join (connection : Nat)

/-- What is seen of it. -/
inductive Effect where
  | outcome (outcome : Outcome)
  | address (address : Option Net.SocketAddress)
  | joined

namespace Workings

/-- The inside of a service that is configured and was not started yet. -/
def ofServer (s : Server) : Workings where
  settings := s.settings
  authority := s.authority
  token := s.token
  limiter := s.limiter
  permits := s.free

/-- The connections being served. -/
def served (w : Workings) : List Nat :=
  (w.tasks.filter fun t => !t.ended).map (·.connection)

/-- The address that it listens at, while it runs. -/
def address? (w : Workings) : Option Net.SocketAddress :=
  match w.state with
  | .running address _ => some address
  | .stopped => none

/-- The service, as it looks from outside. -/
def view (w : Workings) : Server where
  settings := w.settings
  authority := w.authority
  token := w.token
  limiter := w.limiter
  listening := w.address?
  free := w.permits
  served := w.served

-- ============================================================= life cycle

/-- Binds the address and spawns a loop; the state comes last. -/
def start (w : Workings) (bind : Net.SocketAddress → Except String Net.SocketAddress) :
    Except Fault Net.SocketAddress × Workings :=
  match w.state with
  | .running _ _ => (.error .alreadyRunning, w)
  | .stopped =>
    match bind w.settings.socketAddress with
    | .error text => (.error (.bind w.settings.socketAddress text), w)
    | .ok address =>
      let listening := { w with loops := w.loops ++ [w.spawned], spawned := w.spawned + 1 }
      (.ok address, { listening with state := .running address w.spawned })

/-- A loop stops: its tasks are aborted, and those that had not ended give their
permits back. -/
def stopLoop (w : Workings) (loop : Nat) : Workings :=
  let aborted := w.tasks.filter fun t => t.loop = loop
  { w with
    loops := w.loops.erase loop
    tasks := w.tasks.filter fun t => t.loop ≠ loop
    permits := w.permits + (aborted.filter fun t => !t.ended).length }

/-- Sets the state to stopped, and only then looks at what it was. -/
def shutdown (w : Workings) : Except Fault Unit × Workings :=
  let found := w.state
  let w := { w with state := .stopped }
  match found with
  | .running _ loop => (.ok (), w.stopLoop loop)
  | .stopped => (.error .notRunning, w)

-- ============================================================ connections

/-- A connection arrives at the loop that listens, if there is one. -/
def arrive (w : Workings) (connection : Nat) : Server.Arrival × Workings :=
  match w.loops with
  | [] => (.refused, w)
  | loop :: _ =>
    if w.permits = 0 then (.dropped, w)
    else (.served,
      { w with permits := w.permits - 1, tasks := { loop, connection } :: w.tasks })

/-- The task of a connection ends, and gives its permit back. -/
def finish (w : Workings) (connection : Nat) : Workings :=
  if connection ∈ w.served then
    { w with permits := w.permits + 1, tasks := Task.endFirst connection w.tasks }
  else w

/-- Answers a request, or breaks down over it. -/
def respond (w : Workings) (c : Call) : Except Crash Reply × Workings :=
  match route w.token c.signs w.limiter c.now c.request with
  | .ok (reply, limiter) => (.ok reply, { w with limiter })
  | .error crash =>
    (.error crash, finish { w with limiter := (checkRate w.limiter c.now).2 } c.connection)

/-- A task that has ended is forgotten. -/
def join (w : Workings) (connection : Nat) : Workings :=
  { w with tasks := w.tasks.eraseP fun t => t.connection = connection ∧ t.ended = true }

-- ================================================================== runs

/-- What an event does to the inside of a service. -/
def react (w : Workings) : Event → Outcome × Workings
  | .start bind => ((.started (w.start bind).1), (w.start bind).2)
  | .shutdown => (.stopped w.shutdown.1, w.shutdown.2)
  | .arrive connection => (.arrived (w.arrive connection).1, (w.arrive connection).2)
  | .finish connection _ => (.finished, w.finish connection)
  | .call c =>
    if c.connection ∈ w.served then (.answered (w.respond c).1, (w.respond c).2)
    else (.unheard, w)

/-- What happens to the inside of a service, one thing after the other. -/
def step (w : Workings) : Happening → Effect × Workings
  | .event event => (.outcome (w.react event).1, (w.react event).2)
  | .lookUp => (.address w.address?, w)
  | .join connection => (.joined, w.join connection)

/-- What comes of what happens one after the other. -/
def run (w : Workings) : List Happening → List (Happening × Effect) × Workings
  | [] => ([], w)
  | happening :: rest =>
    let log := (w.step happening).2.run rest
    ((happening, (w.step happening).1) :: log.1, log.2)

/-- An event with what came of it, as it is seen from outside. -/
def outside? : Happening × Effect → Option (Event × Outcome)
  | (.event event, .outcome outcome) => some (event, outcome)
  | _ => none

end Workings

end Enrollment.Service
