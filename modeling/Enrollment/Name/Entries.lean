/-
Names as lists of entries, the form in which the library writes them.

A list of entries has one string for each attribute type.  Putting in a type
that is already there keeps its place and replaces its string.
-/
import Enrollment.Failure
import Enrollment.Name.Basic

namespace Enrollment

namespace StringKind

/-- The tag number of a kind of string. -/
def tagNumber : StringKind → Nat
  | .utf8 => Der.TagNumber.utf8String
  | .printable => Der.TagNumber.printableString
  | .ia5 => Der.TagNumber.ia5String
  | .teletex => Der.TagNumber.teletexString
  | .bmp => Der.TagNumber.bmpString
  | .universal => Der.TagNumber.universalString

/-- The kind of string with a tag number. -/
def ofTagNumber? (n : Nat) : Option StringKind :=
  [utf8, printable, ia5, teletex, bmp, universal].find? fun k => k.tagNumber == n

/-- May the character stand in a printable string? -/
def isPrintable (c : Char) : Bool :=
  Text.isAsciiLetter c || Text.isAsciiDigit c || " '()+,-./:=?".toList.contains c

/-- Is a wide string made of characters of two bytes each? -/
def isBmp : Bytes → Bool
  | [] => true
  | [_] => false
  | a :: b :: rest =>
    let n := a.toNat * 256 + b.toNat
    (n < 0xD800 || (0xDFFF < n && n < 0xFFFF)) && isBmp rest

/-- Is a wide string made of characters of four bytes each? -/
def isUniversal : Bytes → Bool
  | [] => true
  | a :: b :: c :: d :: rest =>
    let n := Bytes.toNat [a, b, c, d]
    (n < 0xD800 || (0xDFFF < n && n < 0x110000)) && isUniversal rest
  | _ => false

/-- The characters that a kind of string allows. -/
def allows : StringKind → Char → Bool
  | .printable, c => isPrintable c
  | .ia5, c => c.toNat < 128
  | .teletex, c => 0x20 ≤ c.toNat && c.toNat < 128
  | _, _ => true

/-- Are these the contents of a string of the kind? -/
def check (kind : StringKind) (contents : Bytes) : Except ContentFault Unit :=
  match kind with
  | .bmp => if isBmp contents then .ok () else .error (.text .bmp "Invalid UTF-16 encoding")
  | .universal =>
    if isUniversal contents then .ok ()
    else .error (.text .universal "Invalid UTF-32 encoding")
  | _ =>
    match Utf8.decodeChars? contents with
    | none => .error .unreadable
    | some cs =>
      if cs.all kind.allows then .ok () else .error (.text kind (String.ofList cs))

end StringKind

/-- A string for an attribute type. -/
structure Entry where
  /-- The arcs of the attribute type. -/
  type : List Nat
  kind : StringKind
  contents : Bytes
  deriving Repr, DecidableEq

/-- Entries in order, at most one for each attribute type. -/
abbrev Entries := List Entry

namespace Entries

/-- The entries with one more, which replaces an earlier one of its type. -/
def put (entry : Entry) : Entries → Entries
  | [] => [entry]
  | e :: es => if e.type = entry.type then entry :: es else e :: put entry es

/-- A text as an entry. -/
def ofText (type : List Nat) (value : String) : Entry :=
  ⟨type, .utf8, Utf8.encode value⟩

/-- The entry that a set of attributes gives; it has to hold one string. -/
def ofSet : List Attribute → Except ContentFault Entry
  | [a] => do
    let some type := a.type.arcs? | throw .unreadable
    let some kind := StringKind.ofTagNumber? a.tag.number | throw .unreadable
    kind.check a.value
    return ⟨type, kind, a.value⟩
  | _ => .error .unreadable

/-- The entries of a name, taken one after the other. -/
def ofSets (entries : Entries) : List (List Attribute) → Except ContentFault Entries
  | [] => .ok entries
  | set :: sets => do
    let entry ← ofSet set
    ofSets (put entry entries) sets

/-- The entries of a name. -/
def ofName (n : Name) : Except ContentFault Entries :=
  ofSets [] n.sets

/-- The encoding of an entry; none when its type cannot be written. -/
def writeSet? (e : Entry) : Option Bytes := do
  let type ← Der.ObjectId.ofArcs? e.type
  return Der.singleton (Der.sequence
    [Der.objectId type, Der.write (.primitive e.kind.tagNumber) e.contents])

/-- The encoding of a name with these entries. -/
def write? (es : Entries) : Option Bytes := do
  return Der.sequence (← es.mapM writeSet?)

end Entries

end Enrollment
