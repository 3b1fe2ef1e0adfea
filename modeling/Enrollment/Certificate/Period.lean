/-
Where a point in time lies in relation to a certificate's time of validity.
Both ends belong to it, except that a start before 2050 written in the long form
lies just behind the instant it names.
-/
import Enrollment.Certificate.Basic

namespace Enrollment

/-- A position in relation to a time of validity, with the end that it lies beyond. -/
inductive Position where
  | current
  | notYetValid (notBefore : Der.ZonedTime)
  | expired (notAfter : Der.ZonedTime)
  deriving Repr, DecidableEq

/-- The position of a point in time; that the time has not come is told before
that it is over. -/
def Certificate.positionAt (c : Certificate) (point : Time.Instant) : Position :=
  if c.fields.notBefore.follows point then .notYetValid c.fields.notBefore
  else if c.fields.notAfter.precedes point then .expired c.fields.notAfter
  else .current

end Enrollment
