/-
Names as one line of text, and the common name in them.

The text joins sets with commas and the attributes of a set with plus signs.
Nothing in it is escaped, so two different names can have one text.
-/
import Enrollment.Name.Label

namespace Enrollment.Name

/-- The kinds of string whose bytes are shown as UTF-8. -/
def plainStrings : List Nat :=
  [Der.TagNumber.numericString, Der.TagNumber.visibleString, Der.TagNumber.printableString,
    Der.TagNumber.generalString, Der.TagNumber.objectDescriptor, Der.TagNumber.graphicString,
    Der.TagNumber.teletexString, Der.TagNumber.videotexString, Der.TagNumber.utf8String,
    Der.TagNumber.ia5String]

/-- UTF-16 units from pairs of bytes; an odd byte at the end is one by itself. -/
def units : Bytes → List Nat
  | a :: b :: rest => (a.toNat * 256 + b.toNat) :: units rest
  | [a] => [a.toNat]
  | [] => []

/-- The characters of UTF-16 units, or none when a surrogate lacks its partner. -/
def ofUnits? : List Nat → Option (List Char)
  | [] => some []
  | n :: rest =>
    if n < 0xD800 ∨ 0xDFFF < n then (ofUnits? rest).map (Char.ofNat n :: ·)
    else match rest with
      | m :: rest =>
        if n < 0xDC00 ∧ 0xDC00 ≤ m ∧ m ≤ 0xDFFF then
          (ofUnits? rest).map (Char.ofNat ((n - 0xD800) * 1024 + (m - 0xDC00) + 0x10000) :: ·)
        else none
      | [] => none

/-- The text of a value: its characters if it is a string that can be decoded,
and its bytes in hexadecimal if it is no string. -/
def valueText? (a : Attribute) : Option String :=
  if plainStrings.contains a.tag.number then Utf8.decode? a.value
  else if a.tag.number = Der.TagNumber.bmpString then
    (ofUnits? (units a.value)).map String.ofList
  else some a.value.toHexUpper

/-- The text of an attribute. -/
def attributeText? (a : Attribute) : Option String := do
  return AttributeType.label a.type ++ "=" ++ (← valueText? a)

/-- The text of a set of attributes. -/
def setText? (attributes : List Attribute) : Option String := do
  return " + ".intercalate (← attributes.mapM attributeText?)

/-- What stands for a name of which a string cannot be decoded. -/
def undecodable : String := "<X509Error: Invalid X.509 name>"

/-- The text of a name. -/
def text (n : Name) : String :=
  match n.sets.mapM setText? with
  | some texts => ", ".intercalate texts
  | none => undecodable

/-- The kinds of string that are taken for a common name. -/
def commonNameStrings : List Nat :=
  [Der.TagNumber.numericString, Der.TagNumber.printableString, Der.TagNumber.utf8String,
    Der.TagNumber.ia5String]

/-- The first common name, if it is a string of a kind that is taken. -/
def commonName (n : Name) : Option String := do
  let a ← n.attributes.find? (·.type == AttributeType.commonName)
  if commonNameStrings.contains a.tag.number then Utf8.decode? a.value else none

end Enrollment.Name
