/-
The universal types that certificates are made of.

A reader here looks at the tag number of an element and not at its class, and
that of object identifiers at neither.  Every writer writes the universal
class.
-/
import Enrollment.Der.ObjectId
import Enrollment.Text.Utf8

namespace Enrollment.Der

-- =================================================================== tags

namespace Tag

/-- A universal tag of an element without parts. -/
def primitive (number : Nat) : Tag := ⟨.universal, false, number⟩

/-- A universal tag of an element with parts. -/
def compound (number : Nat) : Tag := ⟨.universal, true, number⟩

/-- A tag whose meaning comes from where it stands. -/
def context (number : Nat) (constructed : Bool) : Tag := ⟨.context, constructed, number⟩

end Tag

namespace TagNumber

def boolean : Nat := 1
def integer : Nat := 2
def bitString : Nat := 3
def octetString : Nat := 4
def null : Nat := 5
def objectId : Nat := 6
def objectDescriptor : Nat := 7
def utf8String : Nat := 12
def sequence : Nat := 16
def set : Nat := 17
def numericString : Nat := 18
def printableString : Nat := 19
def teletexString : Nat := 20
def videotexString : Nat := 21
def ia5String : Nat := 22
def utcTime : Nat := 23
def generalizedTime : Nat := 24
def graphicString : Nat := 25
def visibleString : Nat := 26
def generalString : Nat := 27
def universalString : Nat := 28
def bmpString : Nat := 30

end TagNumber

-- ================================================================ reading

/-- An element with a given tag number. -/
def readNumbered (number : Nat) : Reader Element := fun bs => do
  let (e, rest) ← readElement bs
  if e.tag.number = number then some (e, rest) else none

/-- An element with a given tag number and no parts. -/
def readPrimitive (number : Nat) : Reader Element := fun bs => do
  let (e, rest) ← readNumbered number bs
  if e.tag.constructed then none else some (e, rest)

/-- What a reader finds in the contents of an element with a given tag number;
what it leaves of them is dropped. -/
def readInside {α : Type} (number : Nat) (inside : Reader α) : Reader α := fun bs => do
  let (e, rest) ← readNumbered number bs
  let (a, _) ← inside e.contents
  return (a, rest)

/-- What a reader finds in a sequence. -/
def readSequence {α : Type} (inside : Reader α) : Reader α :=
  readInside TagNumber.sequence inside

/-- What a reader finds in a sequence, and the sequence up to what it leaves. -/
def readSpanned {α : Type} (number : Nat) (inside : Reader α) : Reader (α × Bytes) :=
  fun bs => do
    let (e, rest) ← readNumbered number bs
    let (a, left) ← inside e.contents
    return ((a, e.encoded.take (e.encoded.length - left.length)), rest)

/-- An object identifier; its tag is not looked at. -/
def readObjectId : Reader ObjectId := fun bs => do
  let (e, rest) ← readElement bs
  if e.tag.constructed then none
  return (⟨e.contents⟩, rest)

/-- The contents of an octet string. -/
def readOctets : Reader Bytes := fun bs => do
  let (e, rest) ← readPrimitive TagNumber.octetString bs
  return (e.contents, rest)

/-- The bytes of a bit string; the bits that its first byte declares unused
are zero. -/
def bitsOf? (contents : Bytes) : Option Bytes :=
  match contents with
  | [] => none
  | unused :: bits =>
    match bits.getLast? with
    | none => if unused = 0 then some [] else none
    | some last =>
      let n := unused.toNat
      if 8 < n ∨ last.toNat % 2 ^ n ≠ 0 then none else some bits

/-- The bytes of a bit string. -/
def readBits : Reader Bytes := fun bs => do
  let (e, rest) ← readPrimitive TagNumber.bitString bs
  return (← bitsOf? e.contents, rest)

/-- The number of a minimal integer that is not negative and below 2^32. -/
def smallNat? (contents : Bytes) : Option Nat :=
  match contents with
  | [] => none
  | [b] => if b < 128 then some b.toNat else none
  | a :: b :: _ =>
    if 128 ≤ a ∨ (a = 0 ∧ b < 128) then none
    else
      let n := Bytes.toNat contents
      if n < 2 ^ 32 then some n else none

/-- A minimal integer that is not negative and below 2^32. -/
def readSmallNat : Reader Nat := fun bs => do
  let (e, rest) ← readPrimitive TagNumber.integer bs
  return (← smallNat? e.contents, rest)

/-- What a reader finds inside an element with a given context tag, if the next
element has that number. -/
def readTagged? {α : Type} (number : Nat) (inside : Bytes → Option α) : Reader (Option α) :=
  fun bs =>
    if bs.isEmpty then some (none, bs)
    else do
      let (e, rest) ← readElement bs
      if e.tag.number ≠ number then return (none, bs)
      if e.tag.cls ≠ .context then none
      return (some (← inside e.contents), rest)

-- ================================================================ writing

/-- A sequence of elements. -/
def sequence (parts : List Bytes) : Bytes :=
  write (.compound TagNumber.sequence) parts.flatten

/-- A set of one element. -/
def singleton (part : Bytes) : Bytes :=
  write (.compound TagNumber.set) part

/-- An integer that is not negative, in its shortest form. -/
def natural (n : Nat) : Bytes :=
  let digits := Bytes.minimal n
  let contents := match digits with
    | [] => [0]
    | b :: _ => if 128 ≤ b then 0 :: digits else digits
  write (.primitive TagNumber.integer) contents

/-- An object identifier. -/
def objectId (oid : ObjectId) : Bytes :=
  write (.primitive TagNumber.objectId) oid.contents

/-- An octet string. -/
def octets (contents : Bytes) : Bytes :=
  write (.primitive TagNumber.octetString) contents

/-- A bit string of whole bytes. -/
def bits (contents : Bytes) : Bytes :=
  write (.primitive TagNumber.bitString) (0 :: contents)

/-- A truth value. -/
def boolean (b : Bool) : Bytes :=
  write (.primitive TagNumber.boolean) [if b then 255 else 0]

/-- The element without contents. -/
def null : Bytes :=
  write (.primitive TagNumber.null) []

/-- An element around others whose meaning comes from where it stands. -/
def tagged (number : Nat) (contents : Bytes) : Bytes :=
  write (.context number true) contents

end Enrollment.Der
