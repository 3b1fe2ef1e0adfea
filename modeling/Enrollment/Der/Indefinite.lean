/-
Elements of indefinite length.

The contents of such an element are other elements, up to an empty one with the
tag zero, which is the mark of the end and no part of them.  They may hold
elements of indefinite length in turn.  Nothing is written in this form, and
nothing but a serial number is read in it.
-/
import Enrollment.Der.Basic

namespace Enrollment.Der

/-- The least number of open elements inside of which nothing is read. -/
def maxOpen : Nat := 50

/-- What an element is for the one around it. -/
inductive Mark where
  /-- An element of indefinite length begins. -/
  | opens
  /-- The innermost element of indefinite length ends. -/
  | closes
  /-- An element stands here as a whole. -/
  | element
  deriving Repr, DecidableEq

/-- The next mark inside an element of indefinite length. -/
def readMark : Reader Mark := fun bs => do
  let (tag, rest) ← readTag bs
  match rest with
  | 0x80 :: rest => if tag.constructed then some (.opens, rest) else none
  | _ =>
    let (length, rest) ← readLength rest
    if length = 0 ∧ tag.number = 0 then return (.closes, rest)
    if rest.length < length then none
    return (.element, rest.drop length)

/-- What follows the end of the elements that are open. -/
def afterEnd (opened : Nat) (bs : Bytes) : Option Bytes :=
  if opened = 0 then some bs
  else if maxOpen ≤ opened then none
  else
    match readMark bs with
    | none => none
    | some (mark, rest) =>
      if rest.length < bs.length then
        match mark with
        | .opens => afterEnd (opened + 1) rest
        | .closes => afterEnd (opened - 1) rest
        | .element => afterEnd opened rest
      else none
termination_by bs.length

/-- The length of the usual mark of the end, which is cut off whatever the length
of the mark. -/
def endLength : Nat := 2

/-- An element of indefinite length. -/
def readIndefinite : Reader Element := fun bs => do
  let (tag, rest) ← readTag bs
  match rest with
  | 0x80 :: rest =>
    if !tag.constructed then none
    let after ← afterEnd 1 rest
    let inside := taken rest after
    return (⟨tag, inside.take (inside.length - endLength), taken bs after⟩, after)
  | _ => none

/-- An element of definite or of indefinite length. -/
def readLoose : Reader Element := fun bs =>
  match readElement bs with
  | some found => some found
  | none => readIndefinite bs

end Enrollment.Der
