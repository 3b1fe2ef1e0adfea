/-
A service over time: what happens to it, one event after the other.

Connections come and go, requests come on those that are served, and the
service is started and shut down, all of it in any order.  A request is
answered at the moment it comes, by the signer as it is at that moment; where
answering breaks down, only the connection ends, and the request has been
counted by then.
-/
import Enrollment.Service.Server

namespace Enrollment.Service

/-- A request that comes on a connection. -/
structure Call where
  connection : Nat
  /-- When it comes, in nanoseconds. -/
  now : Nat
  request : Http.Request
  /-- The signer as it is then, with all that it draws at random. -/
  signs : SignsIn (Except Crash)

/-- What happens to a service. -/
inductive Event where
  | start (bind : Net.SocketAddress → Except String Net.SocketAddress)
  | shutdown
  | arrive (connection : Nat)
  | finish (connection : Nat) (how : Server.Ending)
  | call (c : Call)

/-- What comes of an event. -/
inductive Outcome where
  | started (result : Except Fault Net.SocketAddress)
  | stopped (result : Except Fault Unit)
  | arrived (arrival : Server.Arrival)
  | finished
  | answered (result : Except Crash Reply)
  /-- The request came on a connection that is not served. -/
  | unheard

namespace Server

/-- Answers a request, or breaks down over it. -/
def respond (s : Server) (c : Call) : Except Crash Reply × Server :=
  match s.request c.signs c.now c.request with
  | .ok (reply, s) => (.ok reply, s)
  | .error crash =>
    let counted := { s with limiter := (checkRate s.limiter c.now).2 }
    (.error crash, (counted.finish c.connection (.crashed crash)).2)

/-- What an event does to a service. -/
def step (s : Server) : Event → Outcome × Server
  | .start bind =>
    let (result, s) := s.start bind
    (.started result, s)
  | .shutdown =>
    let (result, s) := s.shutdown
    (.stopped result, s)
  | .arrive connection =>
    let (arrival, s) := s.arrive connection
    (.arrived arrival, s)
  | .finish connection how => (.finished, (s.finish connection how).2)
  | .call c =>
    if c.connection ∈ s.served then
      let (result, s) := s.respond c
      (.answered result, s)
    else (.unheard, s)

/-- What comes of events that happen one after the other. -/
def run (s : Server) : List Event → List (Event × Outcome) × Server
  | [] => ([], s)
  | event :: events =>
    let (outcome, s) := s.step event
    let (rest, s) := s.run events
    ((event, outcome) :: rest, s)

/-- A request that is answered, with its answer. -/
def answer? : Event × Outcome → Option (Call × Except Crash Reply)
  | (.call c, .answered result) => some (c, result)
  | _ => none

/-- The requests that are answered in a run, with their answers, in order. -/
def answers (s : Server) (events : List Event) : List (Call × Except Crash Reply) :=
  (s.run events).1.filterMap answer?

end Server

end Enrollment.Service
