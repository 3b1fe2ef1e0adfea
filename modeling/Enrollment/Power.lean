/-
Powers of natural numbers: the one reading of `b ^ n` on them that this whole
library uses, whatever else is imported beside it.
-/

namespace Enrollment

/-- The power of a natural number is that of the numbers themselves, and not
that of a monoid they happen to form. -/
@[default_instance high]
instance (priority := high) natPow : Pow Nat Nat := instPowNat

end Enrollment
