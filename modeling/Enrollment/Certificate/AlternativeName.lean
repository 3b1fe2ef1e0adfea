/-
Alternative names: the names besides the subject that a certificate is for.
-/
import Enrollment.Certificate.Parts
import Enrollment.Name.Entries
import Enrollment.Net.Address

namespace Enrollment

/-- An alternative name. -/
inductive AlternativeName where
  | email (text : String)
  | dns (text : String)
  | uri (text : String)
  | address (address : Net.Address)
  /-- A text of a type of its own. -/
  | other (type : List Nat) (text : String)
  deriving Repr, DecidableEq

namespace AlternativeName

/-- The context tag numbers of the kinds. -/
def otherTag : Nat := 0
def emailTag : Nat := 1
def dnsTag : Nat := 2
def uriTag : Nat := 6
def addressTag : Nat := 7

/-- A text of ASCII characters. -/
def asciiText (text : String) : Except ContentFault String :=
  if text.toList.all (StringKind.allows .ia5) then .ok text else .error (.text .ia5 text)

/-- A text as an alternative name: an address if it is one, and else a host
name. -/
def ofText (text : String) : Except ContentFault AlternativeName :=
  match Net.Address.parse text with
  | some a => .ok (.address a)
  | none => (asciiText text).map .dns

/-- Texts as alternative names. -/
def ofTexts (texts : List String) : Except ContentFault (List AlternativeName) :=
  texts.mapM ofText

-- ================================================================ reading

/-- Can the element stand among the names of an extension? -/
def isName (e : Der.Element) : Bool :=
  e.tag.cls == .context && e.tag.number ≤ 8

/-- The names in the value of an extension, as elements. -/
def readElements? (value : Bytes) : Option (List Der.Element) := do
  let (e, _) ← Der.readNumbered Der.TagNumber.sequence value
  let names ← Der.readAll Der.readElement e.contents
  if names.all isName then some names else none

/-- The address that octets stand for. -/
def addressOfOctets (octets : Bytes) : Except ContentFault Net.Address :=
  match octets.length with
  | 4 => .ok (.v4 octets)
  | 16 => .ok (.v6 ((List.range 8).map fun i => Bytes.toNat ((octets.drop (2 * i)).take 2)))
  | n => .error (.addressLength n)

/-- The text and the type in a name of a type of its own. -/
def otherOfContents (contents : Bytes) : Except ContentFault AlternativeName :=
  let read : Option AlternativeName := do
    let (type, rest) ← Der.readObjectId contents
    let arcs ← type.arcs?
    let (wrapper, _) ← Der.readElement rest
    if wrapper.tag.cls ≠ .context ∨ wrapper.tag.number ≠ 0 then none
    let (value, _) ← Der.readElement wrapper.contents
    if value.tag.number ≠ Der.TagNumber.utf8String then none
    return .other arcs (← Utf8.decode? value.contents)
  match read with
  | some name => .ok name
  | none => .error .unreadable

/-- The text of a name that is one, or a complaint about its kind. -/
def textOfContents (contents : Bytes) : Except ContentFault String :=
  match Utf8.decode? contents with
  | some text => asciiText text
  | none => .error .nameKind

/-- The name that an element stands for. -/
def ofElement (e : Der.Element) : Except ContentFault AlternativeName :=
  let n := e.tag.number
  if n = otherTag then otherOfContents e.contents
  else if n = emailTag then (textOfContents e.contents).map .email
  else if n = dnsTag then (textOfContents e.contents).map .dns
  else if n = uriTag then (textOfContents e.contents).map .uri
  else if n = addressTag then (addressOfOctets e.contents).map .address
  else .error .nameKind

-- ================================================================ writing

/-- The encoding of a host name or an address; the other kinds are not written. -/
def write? : AlternativeName → Option Bytes
  | dns text => some (Der.write (.context dnsTag false) (Utf8.encode text))
  | address a => some (Der.write (.context addressTag false) a.octets)
  | _ => none

/-- Is the name of a kind that certificates are issued for? -/
def isHost : AlternativeName → Bool
  | dns _ | address _ => true
  | _ => false

end AlternativeName

end Enrollment
