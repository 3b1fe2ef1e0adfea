/-
Reading the values of options.
-/
import Enrollment.CommandLine.Options
import Enrollment.Duration
import Enrollment.KeyAlgorithm
import Enrollment.Net.Address

namespace Enrollment.CommandLine.Value

/-- The result of a reader, or the refusal of a wrong value. -/
def orWrong {α : Type} : Option α → Except Refusal α
  | some a => .ok a
  | none => .error .wrongValue

/-- A number up to a limit, in decimal digits with an optional plus sign. -/
def nat (max : Nat) (text : String) : Except Refusal Nat :=
  orWrong (Text.natUpTo? max text.toList)

/-- A number up to a limit that is read with a sign, so that a zero may be negative. -/
def small (max : Nat) (text : String) : Except Refusal Nat :=
  match text.toList with
  | '-' :: digits =>
    if digits.head? = some '+' then .error .wrongValue else orWrong (Text.natUpTo? 0 digits)
  | digits => orWrong (Text.natUpTo? max digits)

/-- The limits of numbers. -/
def maxPort : Nat := 2 ^ 16 - 1
def maxCount : Nat := 2 ^ 32 - 1
def maxSize : Nat := 2 ^ 64 - 1

/-- A path, which must not be empty. -/
def path (text : String) : Except Refusal String :=
  if text.isEmpty then .error .missingValue else .ok text

/-- A key algorithm. -/
def algorithm (text : String) : Except Refusal KeyAlgorithm :=
  (KeyAlgorithm.parse text).mapError fun _ => .wrongValue

/-- A length of time. -/
def duration (text : String) : Except Refusal Duration :=
  (Duration.parse text).mapError fun _ => .wrongValue

/-- An internet address. -/
def address (text : String) : Except Refusal Net.Address :=
  orWrong (Net.Address.parse text)

end Enrollment.CommandLine.Value
