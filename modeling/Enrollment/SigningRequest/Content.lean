/-
What a request asks for that can be carried over into a certificate: its
subject, its alternative names and its key.

A request may also ask for key usages and basic constraints.  These are read,
so that a request for anything else can be refused, and are not carried over.
-/
import Enrollment.Certificate.AlternativeName
import Enrollment.Key.Kind
import Enrollment.SigningRequest.Basic

namespace Enrollment

namespace ExtensionId

/-- The object identifiers of extensions. -/
def subjectKeyId : Der.ObjectId := .ofArcs [2, 5, 29, 14]
def keyUsage : Der.ObjectId := .ofArcs [2, 5, 29, 15]
def alternativeNames : Der.ObjectId := .ofArcs [2, 5, 29, 17]
def basicConstraints : Der.ObjectId := .ofArcs [2, 5, 29, 19]
def extendedKeyUsage : Der.ObjectId := .ofArcs [2, 5, 29, 37]

end ExtensionId

namespace SigningRequest

/-- What is carried over from a request. -/
structure Content where
  subject : Entries
  alternativeNames : List AlternativeName
  keyKind : KeyKind
  /-- The bits of the public key. -/
  key : Bytes
  deriving Repr, DecidableEq

namespace Content

-- ============================================================== extensions

/-- The extended usages of keys that a request may ask for. -/
def grantedPurposes : List Der.ObjectId :=
  .ofArcs [2, 5, 29, 37, 0] ::
    [1, 2, 3, 4, 8, 9].map fun n => .ofArcs [1, 3, 6, 1, 5, 5, 7, 3, n]

/-- Is the value a bit string? -/
def isKeyUsage (value : Bytes) : Bool :=
  (Der.readBits value).isSome

/-- Is the value a list of extended usages that may be asked for? -/
def isPurposes (value : Bytes) : Bool :=
  match Der.readNumbered Der.TagNumber.sequence value with
  | some (e, _) =>
    match Der.readAll Der.readObjectId e.contents with
    | some purposes => purposes.all grantedPurposes.contains
    | none => false
  | none => false

/-- The truth value that an element is. -/
def truth? (e : Der.Element) : Option Bool :=
  if e.tag.number = Der.TagNumber.boolean then
    match e.contents with
    | [b] => some (b ≠ 0)
    | _ => none
  else none

/-- The small number that an element is. -/
def number? (e : Der.Element) : Option Nat :=
  if e.tag.number = Der.TagNumber.integer then Der.smallNat? e.contents else none

/-- Whether basic constraints ask for an authority, and the length of path that
they ask for. -/
def constraints? (value : Bytes) : Option (Bool × Option Nat) := do
  let (e, _) ← Der.readNumbered Der.TagNumber.sequence value
  match ← Der.readAll Der.readElement e.contents with
  | [] => return (false, none)
  | [a] =>
    match truth? a with
    | some isAuthority => return (isAuthority, none)
    | none => return (false, some (← number? a))
  | [a, b] => return (← truth? a, some (← number? b))
  | _ => none

/-- The longest path that an authority may be asked for with. -/
def maxPath : Nat := 255

/-- Checks that basic constraints can be understood. -/
def checkConstraints (value : Bytes) : Except ContentFault Unit :=
  match constraints? value with
  | none => .error .extensionNotGranted
  | some (true, some path) => if path ≤ maxPath then .ok () else .error .unreadable
  | some _ => .ok ()

/-- The alternative names that an extension asks for; none when it asks for
something else that may be asked for. -/
def namesOf (e : Extension) : Except ContentFault (List AlternativeName) :=
  if e.id = ExtensionId.alternativeNames then
    match AlternativeName.readElements? e.value with
    | some names => names.mapM AlternativeName.ofElement
    | none => .error .extensionNotGranted
  else if e.id = ExtensionId.keyUsage ∧ isKeyUsage e.value then .ok []
  else if e.id = ExtensionId.extendedKeyUsage ∧ isPurposes e.value then .ok []
  else if e.id = ExtensionId.basicConstraints then (checkConstraints e.value).map fun _ => []
  else .error .extensionNotGranted

-- ================================================================= content

/-- The kind of key that the signature algorithm of a request stands for. -/
def keyKindOf (algorithm : Der.ObjectId) : Except ContentFault KeyKind :=
  match algorithm.arcs? with
  | none => .error .unreadable
  | some arcs =>
    match KeyKind.ofSignatureId? arcs with
    | some kind => .ok kind
    | none => .error .algorithm

/-- What is carried over from a request. -/
def ofFields (f : Fields) : Except ContentFault Content := do
  let keyKind ← keyKindOf f.signed.algorithm.algorithm
  let subject ← Entries.ofName f.subject
  let names ← f.extensions.mapM namesOf
  return ⟨subject, names.flatten, keyKind, f.publicKey.key⟩

end Content

end SigningRequest

end Enrollment
