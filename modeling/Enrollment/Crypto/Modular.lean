/-
Arithmetic of residues.
-/

import Enrollment.Power

namespace Enrollment.Crypto

/-- A power of a residue, by squaring. -/
def powMod (base exponent modulus : Nat) : Nat :=
  if exponent = 0 then 1 % modulus
  else
    let half := powMod (base * base % modulus) (exponent / 2) modulus
    if exponent % 2 = 1 then base * half % modulus else half
termination_by exponent
decreasing_by omega

/-- The inverse of a residue that is not zero, for a prime modulus. -/
def inverse (a prime : Nat) : Nat :=
  powMod (a % prime) (prime - 2) prime

/-- The difference of two residues. -/
def subMod (a b modulus : Nat) : Nat :=
  (a + (modulus - b % modulus)) % modulus

/-- The number of bits of a number. -/
def bitLength (n : Nat) : Nat :=
  if n = 0 then 0 else n.log2 + 1

end Enrollment.Crypto
