/-
DER: elements with a tag, a length and contents.

The reader takes lengths in any definite form, also with leading zeros, as
certificates in the field have them; the writer uses the shortest form only.
A reader gives back what it read and the bytes that are left.
-/
import Enrollment.Bytes

namespace Enrollment.Der

-- ================================================================== tags

/-- Who gives a tag number its meaning. -/
inductive TagClass where
  | universal
  | application
  | context
  | «private»
  deriving Repr, DecidableEq

/-- A tag. -/
structure Tag where
  cls : TagClass
  constructed : Bool
  number : Nat
  deriving Repr, DecidableEq

/-- An element: its tag, its contents, and the whole of it as it was read. -/
structure Element where
  tag : Tag
  contents : Bytes
  encoded : Bytes
  deriving Repr, DecidableEq

/-- A reader takes a value off the front of a byte string. -/
abbrev Reader (α : Type) := Bytes → Option (α × Bytes)

-- =============================================================== reading

/-- The class that the two high bits of a byte stand for. -/
def TagClass.ofBits (n : Nat) : TagClass :=
  match n with
  | 0 => .universal
  | 1 => .application
  | 2 => .context
  | _ => .private

/-- A tag number in groups of seven bits, of at most `left` bytes; it is kept
modulo 2^32. -/
def readLongNumber : (left number : Nat) → Bytes → Option (Nat × Bytes)
  | 0, _, _ => none
  | _ + 1, _, [] => none
  | left + 1, number, b :: rest =>
    let number := (number * 128 + b.toNat % 128) % 2 ^ 32
    if b.toNat < 128 then some (number, rest) else readLongNumber left number rest

/-- The tag of an element. -/
def readTag : Reader Tag
  | [] => none
  | b :: rest => do
    let n := b.toNat
    let cls := TagClass.ofBits (n / 64)
    let constructed := n / 32 % 2 = 1
    if n % 32 = 31 then
      let (number, rest) ← readLongNumber 5 0 rest
      return (⟨cls, constructed, number⟩, rest)
    else return (⟨cls, constructed, n % 32⟩, rest)

/-- The length of an element's contents. -/
def readLength : Reader Nat
  | [] => none
  | b :: rest =>
    let n := b.toNat
    if n < 128 then some (n, rest)
    else
      let count := n - 128
      let digits := rest.take count
      let length := Bytes.toNat digits
      if count = 0 ∨ count = 127 ∨ digits.length < count ∨ 2 ^ 64 ≤ length then none
      else some (length, rest.drop count)

/-- The tag and the length of an element. -/
def readHeader : Reader (Tag × Nat) := fun bs => do
  let (tag, rest) ← readTag bs
  let (length, rest) ← readLength rest
  return ((tag, length), rest)

/-- What was taken off a byte string to leave a rest of it. -/
def taken (bs rest : Bytes) : Bytes :=
  bs.take (bs.length - rest.length)

/-- An element. -/
def readElement : Reader Element := fun bs => do
  let ((tag, length), rest) ← readHeader bs
  let contents := rest.take length
  if contents.length < length then none
  let rest := rest.drop length
  return (⟨tag, contents, taken bs rest⟩, rest)

/-- Values one after the other, as many as can be read. -/
def readMany {α : Type} (item : Reader α) (bs : Bytes) : List α × Bytes :=
  match item bs with
  | none => ([], bs)
  | some (a, rest) =>
    if rest.length < bs.length then
      let (as, rest) := readMany item rest
      (a :: as, rest)
    else ([], bs)
termination_by bs.length

/-- Values one after the other, with nothing left. -/
def readAll {α : Type} (item : Reader α) (bs : Bytes) : Option (List α) :=
  match readMany item bs with
  | (as, []) => some as
  | _ => none

-- =============================================================== writing

/-- The number of a class in the two high bits of a byte. -/
def TagClass.bits : TagClass → Nat
  | .universal => 0
  | .application => 1
  | .context => 2
  | .private => 3

/-- The byte of a tag whose number is below thirty-one. -/
def Tag.byte (t : Tag) : UInt8 :=
  UInt8.ofNat (t.cls.bits * 64 + (if t.constructed then 32 else 0) + t.number)

/-- The shortest form of a length. -/
def writeLength (n : Nat) : Bytes :=
  if n < 128 then [UInt8.ofNat n]
  else
    let digits := Bytes.minimal n
    UInt8.ofNat (128 + digits.length) :: digits

/-- An element with a tag and contents. -/
def write (tag : Tag) (contents : Bytes) : Bytes :=
  tag.byte :: writeLength contents.length ++ contents

end Enrollment.Der
