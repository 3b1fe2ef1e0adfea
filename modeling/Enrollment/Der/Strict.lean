/-
DER read strictly: tags of one byte, lengths of at most two bytes in their
shortest form, integers without superfluous zeros, and nothing left over inside
an element.  Keys and signatures are read so.
-/
import Enrollment.Der.Value

namespace Enrollment.Der.Strict

/-- The length of an element, in its shortest form. -/
def readLength : Reader Nat
  | b :: rest =>
    if b < 128 then some (b.toNat, rest)
    else match b.toNat, rest with
      | 0x81, c :: rest => if c < 128 then none else some (c.toNat, rest)
      | 0x82, c :: d :: rest =>
        let n := c.toNat * 256 + d.toNat
        if n < 256 then none else some (n, rest)
      | _, _ => none
  | [] => none

/-- The tag byte and the contents of an element. -/
def readAny : Reader (UInt8 × Bytes)
  | tag :: rest =>
    if tag.toNat % 32 = 31 then none
    else do
      let (length, rest) ← readLength rest
      let contents := rest.take length
      if contents.length < length then none
      return ((tag, contents), rest.drop length)
  | [] => none

/-- The contents of an element with a given tag byte. -/
def read (tag : UInt8) : Reader Bytes := fun bs => do
  let ((t, contents), rest) ← readAny bs
  if t = tag then some (contents, rest) else none

/-- The contents of an element with a given tag byte, if the next one has it. -/
def readIf (tag : UInt8) : Reader (Option Bytes) := fun bs =>
  if bs.head? = some tag then do
    let (contents, rest) ← read tag bs
    return (some contents, rest)
  else some (none, bs)

/-- What a reader makes of all of some bytes. -/
def whole? {α : Type} (reader : Reader α) (bs : Bytes) : Option α :=
  match reader bs with
  | some (a, []) => some a
  | _ => none

/-- What a reader makes of all of the contents of an element. -/
def readNested {α : Type} (tag : UInt8) (inside : Reader α) : Reader α := fun bs => do
  let (contents, rest) ← read tag bs
  return (← whole? inside contents, rest)

/-- The tag bytes of the types read here. -/
def integerTag : UInt8 := 0x02
def bitStringTag : UInt8 := 0x03
def octetStringTag : UInt8 := 0x04
def sequenceTag : UInt8 := 0x30

/-- The number that the contents of an integer spell, if it is not negative and
written in its shortest form. -/
def natural? (contents : Bytes) : Option Nat :=
  match contents with
  | [] => none
  | [b] => if b < 128 then some b.toNat else none
  | a :: b :: _ => if 128 ≤ a ∨ (a = 0 ∧ b < 128) then none else some (Bytes.toNat contents)

/-- An integer that is not negative. -/
def readNatural : Reader Nat := fun bs => do
  let (contents, rest) ← read integerTag bs
  return (← natural? contents, rest)

/-- The bytes of a bit string without unused bits. -/
def wholeBits? : Bytes → Option Bytes
  | 0 :: rest => some rest
  | _ => none

/-- A bit string without unused bits. -/
def readBits : Reader Bytes := fun bs => do
  let (contents, rest) ← read bitStringTag bs
  return (← wholeBits? contents, rest)

end Enrollment.Der.Strict
