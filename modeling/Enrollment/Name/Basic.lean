/-
Distinguished names as certificates hold them: a sequence of sets of
attributes, where nearly every set holds one.

A name is read as far as its parts can be read.  What follows the last part
that can be read belongs neither to the name nor to its encoding.
-/
import Enrollment.Der.Value

namespace Enrollment

/-- A typed value inside a name. -/
structure Attribute where
  type : Der.ObjectId
  /-- The tag of the value. -/
  tag : Der.Tag
  /-- The contents of the value. -/
  value : Bytes
  deriving Repr, DecidableEq

/-- A distinguished name: its sets of attributes and its encoding. -/
structure Name where
  sets : List (List Attribute)
  encoded : Bytes
  deriving Repr, DecidableEq

namespace Name

/-- An attribute. -/
def readAttribute : Der.Reader Attribute :=
  Der.readSequence fun bs => do
    let (type, rest) ← Der.readObjectId bs
    let (value, rest) ← Der.readElement rest
    return (⟨type, value.tag, value.contents⟩, rest)

/-- A set of at least one attribute. -/
def readSet : Der.Reader (List Attribute) :=
  Der.readInside Der.TagNumber.set fun bs =>
    match Der.readMany readAttribute bs with
    | ([], _) => none
    | (attributes, rest) => some (attributes, rest)

/-- A name. -/
def read : Der.Reader Name := fun bs => do
  let ((sets, encoded), rest) ←
    Der.readSpanned Der.TagNumber.sequence (fun bs => some (Der.readMany readSet bs)) bs
  return (⟨sets, encoded⟩, rest)

/-- The attributes of a name in order. -/
def attributes (n : Name) : List Attribute :=
  n.sets.flatten

end Name

end Enrollment
