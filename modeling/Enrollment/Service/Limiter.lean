/-
Limiting the rate of requests.

Requests let through are spread over time at even distances: each moves the
point at which the next one would be due by one distance.  A request may come
earlier than it is due, by as many distances as a burst has requests; one that
comes still earlier is turned away and moves nothing.
-/
import Enrollment.Service.Settings

namespace Enrollment.Service

/-- A limiter; times are in nanoseconds from some fixed point. -/
structure Limiter where
  /-- The distance of two requests. -/
  interval : Nat
  /-- The requests of a burst. -/
  burst : Nat
  /-- When the next request would be due, once one was let through. -/
  due : Option Nat := none
  deriving Repr, DecidableEq

namespace Limiter

/-- The number, or a default instead of zero. -/
def orDefault (n default : Nat) : Nat :=
  if n = 0 then default else n

/-- A limiter for a rate; zeros in it stand for the defaults. -/
def ofRate (r : Rate) : Limiter where
  interval := 1000000000 / orDefault r.perSecond ({} : Rate).perSecond
  burst := orDefault r.burst ({} : Rate).burst

/-- When a request would be due that comes `now`. -/
def dueAt (l : Limiter) (now : Nat) : Nat :=
  l.due.getD (now + l.interval)

/-- Lets a request through or turns it away. -/
def check (l : Limiter) (now : Nat) : Bool × Limiter :=
  if now < l.dueAt now - l.interval * l.burst then (false, l)
  else (true, { l with due := some (max (l.dueAt now) now + l.interval) })

/-- Asks for a number of requests at one moment. -/
def checkMany (l : Limiter) (now : Nat) : (count : Nat) → List Bool × Limiter
  | 0 => ([], l)
  | count + 1 =>
    let (first, l) := l.check now
    let (rest, l) := l.checkMany now count
    (first :: rest, l)

end Limiter

end Enrollment.Service
