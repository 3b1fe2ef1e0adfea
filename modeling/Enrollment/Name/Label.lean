/-
The short labels of attribute types.

Only types of attributes have one here.  An identifier of another kind, such as that of an
extension or of an algorithm, is shown by its arcs where it stands for a type.
-/
import Enrollment.Name.Basic

namespace Enrollment.AttributeType

/-- The object identifier of common names. -/
def commonName : Der.ObjectId := .ofArcs [2, 5, 4, 3]

/-- The labels of the types that have one, by their arcs. -/
def labels : List (List Nat × String) := [
  ([2, 5, 4], "x509"),
  ([2, 5, 4, 0], "objectClass"),
  ([2, 5, 4, 1], "aliasedEntryName"),
  ([2, 5, 4, 2], "knowledgeInformation"),
  ([2, 5, 4, 3], "CN"),
  ([2, 5, 4, 4], "surname"),
  ([2, 5, 4, 5], "serialNumber"),
  ([2, 5, 4, 6], "C"),
  ([2, 5, 4, 7], "L"),
  ([2, 5, 4, 8], "ST"),
  ([2, 5, 4, 9], "streetAddress"),
  ([2, 5, 4, 10], "O"),
  ([2, 5, 4, 11], "OU"),
  ([2, 5, 4, 12], "title"),
  ([2, 5, 4, 13], "description"),
  ([2, 5, 4, 14], "searchGuide"),
  ([2, 5, 4, 15], "businessCategory"),
  ([2, 5, 4, 16], "postalAddress"),
  ([2, 5, 4, 17], "postalCode"),
  ([2, 5, 4, 41], "name"),
  ([2, 5, 4, 42], "givenName"),
  ([2, 5, 4, 43], "initials"),
  ([2, 5, 4, 44], "generationQualifier"),
  ([2, 5, 4, 45], "uniqueIdentifier"),
  ([2, 5, 4, 46], "dnQualifier"),
  ([0, 9, 2342, 19200300, 100, 1, 1], "uid"),
  ([0, 9, 2342, 19200300, 100, 1, 25], "DC"),
  ([1, 2, 840, 113549, 1, 9, 1], "Email"),
  ([1, 2, 840, 113549, 1, 9, 2], "unstructuredName"),
  ([1, 2, 840, 113549, 1, 9, 7], "challengePassword"),
  ([1, 3, 6, 1, 4, 1, 311, 60, 2, 1, 3], "msJurisdictionCountry")]

/-- The labels by identifier, so that a type written in another way than the
usual one has none. -/
def table : List (Der.ObjectId × String) :=
  labels.map fun l => (.ofArcs l.1, l.2)

/-- The label of a type, or its arcs. -/
def label (type : Der.ObjectId) : String :=
  match table.lookup type with
  | some label => label
  | none => "OID(" ++ type.text ++ ")"

end Enrollment.AttributeType
