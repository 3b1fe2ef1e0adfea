/-
Names as they are written on a command line: components with commas between
them, each a type, an equals sign and a value.

A backslash in front of a comma or of a backslash makes that character part of
a value; in front of any other it stands for itself.
-/
import Enrollment.Name.Entries

namespace Enrollment.Name.Written

/-- The attribute types that a written name may use. -/
inductive AttributeKind where
  | commonName
  | organization
  | organizationalUnit
  | country
  | state
  | locality
  deriving Repr, DecidableEq

namespace AttributeKind

/-- All kinds. -/
def all : List AttributeKind :=
  [commonName, organization, organizationalUnit, country, state, locality]

/-- How a kind is written. -/
def letters : AttributeKind → String
  | .commonName => "CN"
  | .organization => "O"
  | .organizationalUnit => "OU"
  | .country => "C"
  | .state => "ST"
  | .locality => "L"

/-- The arcs of a kind. -/
def arcs : AttributeKind → List Nat
  | .commonName => [2, 5, 4, 3]
  | .organization => [2, 5, 4, 10]
  | .organizationalUnit => [2, 5, 4, 11]
  | .country => [2, 5, 4, 6]
  | .state => [2, 5, 4, 8]
  | .locality => [2, 5, 4, 7]

/-- The kind that letters in either case stand for. -/
def ofLetters? (cs : List Char) : Option AttributeKind :=
  let upper := cs.map Text.asciiUpper
  all.find? fun k => k.letters.toList == upper

end AttributeKind

/-- The components of a written name, with the escapes taken out; `acc` holds
the characters of the current one in reverse. -/
def componentsOnto (acc : List Char) : List Char → List (List Char)
  | [] => [acc.reverse]
  | ',' :: rest => acc.reverse :: componentsOnto [] rest
  | '\\' :: c :: rest =>
    if c = ',' ∨ c = '\\' then componentsOnto (c :: acc) rest
    else componentsOnto (c :: '\\' :: acc) rest
  | c :: rest => componentsOnto (c :: acc) rest

/-- The components of a written name. -/
def components (text : String) : List (List Char) :=
  componentsOnto [] text.toList

/-- The entry that a component gives; it is neither blank nor has it white space
around it. -/
def ofComponent (component : List Char) : Except Failure (AttributeKind × List Char) :=
  let type := Text.trim (component.takeWhile (· != '='))
  match component.dropWhile (· != '=') with
  | [] => .error (.protocol (.malformedComponent (String.ofList component)))
  | _ :: rest =>
    let value := Text.trim rest
    if value.isEmpty then .error (.protocol (.emptyValue (String.ofList type)))
    else match AttributeKind.ofLetters? type with
      | some kind => .ok (kind, value)
      | none => .error (.protocol (.unsupportedAttribute (String.ofList type)))

/-- The pair as an entry of a name. -/
def entry (pair : AttributeKind × List Char) : Entry :=
  Entries.ofText pair.1.arcs (String.ofList pair.2)

/-- The components that are not blank, trimmed. -/
def givenComponents (text : String) : List (List Char) :=
  ((components text).map Text.trim).filter fun c => !c.isEmpty

/-- The entries of a written name; a type that occurs again replaces its value
and keeps its place. -/
def parse (text : String) : Except Failure Entries :=
  match givenComponents text with
  | [] => .error (.protocol .emptyName)
  | given => do
    let pairs ← given.mapM ofComponent
    return pairs.foldl (fun es pair => Entries.put (entry pair) es) []

end Enrollment.Name.Written
