/-
Which certificates can be presented in a handshake.

The reader of this library is lenient, as certificates in the field are not all
alike.  The other side of a handshake reads strictly: it takes certificates of
the third version alone, with one signature algorithm inside and outside, with
no extension twice among those it understands, with no critical extension that
it does not understand, and with nothing behind the end.
-/
import Enrollment.Certificate.Basic
import Enrollment.Der.Strict

namespace Enrollment.Certificate.Strict

open Der (Reader readAll)
open Der.Strict

/-- The tag bytes of the types read here. -/
def booleanTag : UInt8 := 0x01
def objectIdTag : UInt8 := 0x06
def versionTag : UInt8 := 0xA0
def extensionsTag : UInt8 := 0xA3

-- ============================================================ extensions

/-- An extension as it is written. -/
structure Item where
  id : Bytes
  critical : Bool
  value : Bytes
  deriving Repr, DecidableEq

/-- Whether an extension is critical; left out, it is not. -/
def readCritical : Reader Bool := fun bs => do
  match ← readIf booleanTag bs with
  | (none, rest) => return (false, rest)
  | (some [0x00], rest) => return (false, rest)
  | (some [0xFF], rest) => return (true, rest)
  | (some _, _) => none

/-- An extension. -/
def readItem : Reader Item :=
  readNested sequenceTag fun bs => do
    let (id, bs) ← read objectIdTag bs
    let (critical, bs) ← readCritical bs
    let (value, bs) ← read octetStringTag bs
    return (⟨id, critical, value⟩, bs)

/-- The last arc of an identifier directly below 2.5.29. -/
def standardArc? : Bytes → Option UInt8
  | [0x55, 0x1D, arc] => some arc
  | _ => none

/-- The last arc of the identifier for the uses of a key. -/
def keyUsageArc : UInt8 := 15

/-- The last arcs of the identifiers of the extensions that are understood. -/
def understoodArcs : List UInt8 := [keyUsageArc, 17, 19, 30, 31, 37]

/-- Has the value of an understood extension the outer form it has to have? -/
def hasForm (arc : UInt8) (value : Bytes) : Bool :=
  arc == keyUsageArc || (whole? (read sequenceTag) value).isSome

/-- Can all extensions be taken, when those with the arcs `seen` came before? -/
def areUsable : (seen : List UInt8) → List Item → Bool
  | _, [] => true
  | seen, item :: items =>
    match (standardArc? item.id).filter understoodArcs.contains with
    | some arc => !seen.contains arc && hasForm arc item.value && areUsable (arc :: seen) items
    | none => !item.critical && areUsable seen items

/-- The extensions at the end of the signed part. -/
def readExtensions? (bs : Bytes) : Option (List Item) :=
  if bs.isEmpty then some []
  else do
    let contents ← whole? (readNested extensionsTag (read sequenceTag)) bs
    readAll readItem contents

-- =========================================================== certificates

/-- The version number, in its own element. -/
def readVersion : Reader Nat :=
  readNested versionTag readNatural

/-- Is the content of a signed part usable, when it is signed by an algorithm? -/
def isUsablePart (algorithm part : Bytes) : Bool :=
  let check : Option Bool := do
    let (version, bs) ← readVersion part
    let (_, bs) ← read integerTag bs
    let (innerAlgorithm, bs) ← read sequenceTag bs
    let (_issuer, bs) ← read sequenceTag bs
    let (_validity, bs) ← read sequenceTag bs
    let (_subject, bs) ← read sequenceTag bs
    let (_publicKey, bs) ← read sequenceTag bs
    let items ← readExtensions? bs
    return version = 2 && innerAlgorithm = algorithm && areUsable [] items
  check.getD false

/-- The three parts of a certificate: what is signed, the algorithm, the signature. -/
def readParts : Reader (Bytes × Bytes × Bytes) :=
  readNested sequenceTag fun bs => do
    let (part, bs) ← read sequenceTag bs
    let (algorithm, bs) ← read sequenceTag bs
    let (signature, bs) ← readBits bs
    return ((part, algorithm, signature), bs)

end Enrollment.Certificate.Strict

namespace Enrollment.Certificate

/-- Can the certificate be presented in a handshake? -/
def isPresentable (c : Certificate) : Bool :=
  match Der.Strict.whole? Strict.readParts c.der with
  | some (part, algorithm, _) => Strict.isUsablePart algorithm part
  | none => false

end Enrollment.Certificate
