/-
Object identifiers.

An identifier is kept as the bytes it was read from, and two are the same only
if those bytes are.  Its arcs are what the bytes stand for: the first byte
gives two of them, and every other is a number in groups of seven bits.
-/
import Enrollment.Der.Basic
import Enrollment.Text.Blank

namespace Enrollment.Der

/-- An object identifier by its contents. -/
structure ObjectId where
  contents : Bytes
  deriving Repr, DecidableEq

namespace ObjectId

-- ================================================================== arcs

/-- The numbers that groups of seven bits spell, of at most sixty-four bits by
the count of their groups; `groups` and `number` are those of the number that
is being read.  A number whose last group is missing counts as it is. -/
def numbers (groups number : Nat) : Bytes → Option (List Nat)
  | [] => some (if groups = 0 then [] else [number % 2 ^ 64])
  | b :: rest => do
    let number := number * 128 + b.toNat % 128
    if b.toNat < 128 then
      if 64 < (groups + 1) * 7 then none
      return number :: (← numbers 0 0 rest)
    else numbers (groups + 1) number rest

/-- The arcs of an identifier; none when one has more than sixty-four bits. -/
def arcs? (oid : ObjectId) : Option (List Nat) :=
  match oid.contents with
  | [] => some []
  | [b] => if b = 0 then some [0] else some [b.toNat / 40, b.toNat % 40]
  | b :: rest => do return b.toNat / 40 :: b.toNat % 40 :: (← numbers 0 0 rest)

/-- A number in groups of seven bits in front of other bytes; `fuel` bounds the
groups. -/
def groupsOnto : (fuel n : Nat) → (acc : Bytes) → Bytes
  | 0, _, acc => acc
  | fuel + 1, n, acc =>
    let acc := UInt8.ofNat (n % 128 + (if acc.isEmpty then 0 else 128)) :: acc
    if n < 128 then acc else groupsOnto fuel (n / 128) acc

/-- A number in groups of seven bits. -/
def writeNumber (n : Nat) : Bytes :=
  groupsOnto (n.log2 + 1) n []

/-- The identifier with given arcs, of which the first is at most two and the
second, unless the first is two, below forty. -/
def ofArcs? : List Nat → Option ObjectId
  | first :: second :: rest =>
    if 2 < first ∨ (first < 2 ∧ 40 ≤ second) then none
    else some ⟨List.flatMap writeNumber ((first * 40 + second) :: rest)⟩
  | _ => none

/-- The identifier with given arcs, which have to be those of one. -/
def ofArcs (arcs : List Nat) : ObjectId :=
  (ofArcs? arcs).getD ⟨[]⟩

/-- The arcs with points between them; the bytes when an arc is too large. -/
def text (oid : ObjectId) : String :=
  match oid.arcs? with
  | some arcs => ".".intercalate (arcs.map Text.decimal)
  | none => " ".intercalate (oid.contents.map fun b => Bytes.toHex [b])

end ObjectId

end Enrollment.Der
