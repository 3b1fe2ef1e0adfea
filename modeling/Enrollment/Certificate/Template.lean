/-
New certificates.

A template says what goes into a certificate; its encoding is fixed by these
definitions: the extensions stand in one order, and those that would be empty
are left out.
-/
import Enrollment.Der.Time
import Enrollment.Key.Pair
import Enrollment.SigningRequest.Content

namespace Enrollment

/-- What the key of a certificate may be used for, by its bit. -/
inductive KeyUsage where
  | digitalSignature
  | keyEncipherment
  | certificateSigning
  | revocationSigning
  deriving Repr, DecidableEq

namespace KeyUsage

/-- The place of a usage, counted from the highest bit. -/
def place : KeyUsage → Nat
  | digitalSignature => 0
  | keyEncipherment => 2
  | certificateSigning => 5
  | revocationSigning => 6

/-- The bit string of usages, as short as it can be. -/
def encode (usages : List KeyUsage) : Bytes :=
  let bits := usages.foldl (fun bits u => bits + 2 ^ (7 - u.place)) 0
  let last := (usages.map place).foldl max 0
  Der.write (.primitive Der.TagNumber.bitString) [UInt8.ofNat (7 - last), UInt8.ofNat bits]

end KeyUsage

namespace Purpose

/-- The object identifiers of extended usages. -/
def serverAuth : Der.ObjectId := .ofArcs [1, 3, 6, 1, 5, 5, 7, 3, 1]
def clientAuth : Der.ObjectId := .ofArcs [1, 3, 6, 1, 5, 5, 7, 3, 2]

end Purpose

namespace Extension

/-- The encoding of an extension. -/
def encode (e : Extension) : Bytes :=
  Der.sequence
    [Der.objectId e.id, if e.critical then Der.boolean true else [], Der.octets e.value]

/-- The extension with alternative names; it is critical when nothing else names
the subject. -/
def ofNames (subject : Entries) (names : List AlternativeName) : List Extension :=
  if names.isEmpty then []
  else [⟨ExtensionId.alternativeNames, subject.isEmpty,
    Der.sequence (names.filterMap AlternativeName.write?)⟩]

/-- Bytes of a key identifier. -/
def keyIdLength : Nat := 20

/-- The extension that identifies a public key by its hash. -/
def ofKey (publicKey : Bytes) : Extension :=
  ⟨ExtensionId.subjectKeyId, false, Der.octets ((sha256 publicKey).take keyIdLength)⟩

/-- The extension that tells authorities from others. -/
def ofAuthority (isAuthority : Bool) : Extension :=
  ⟨ExtensionId.basicConstraints, true,
    Der.sequence (if isAuthority then [Der.boolean true] else [])⟩

end Extension

/-- What goes into a certificate. -/
structure Template where
  serial : Nat
  issuer : Entries
  subject : Entries
  /-- The ends of the time of validity, in seconds. -/
  notBefore : Int
  notAfter : Int
  names : List AlternativeName
  usages : List KeyUsage
  purposes : List Der.ObjectId
  isAuthority : Bool
  /-- The encoding of the public key. -/
  publicKey : Bytes
  deriving Repr, DecidableEq

namespace Template

/-- The extensions in order. -/
def extensions (t : Template) : List Extension :=
  Extension.ofNames t.subject t.names
    ++ [⟨ExtensionId.keyUsage, true, KeyUsage.encode t.usages⟩]
    ++ (if t.purposes.isEmpty then []
        else [⟨ExtensionId.extendedKeyUsage, false, Der.sequence (t.purposes.map Der.objectId)⟩])
    ++ [Extension.ofKey t.publicKey, Extension.ofAuthority t.isAuthority]

/-- The signed part, for a label of the signature; none when a type in a name
cannot be written. -/
def signedPart? (t : Template) (label : Bytes) : Option Bytes := do
  let issuer ← t.issuer.write?
  let subject ← t.subject.write?
  return Der.sequence [
    Der.tagged 0 (Der.natural 2),
    Der.natural t.serial,
    label,
    issuer,
    Der.sequence [Der.ZonedTime.write t.notBefore, Der.ZonedTime.write t.notAfter],
    subject,
    t.publicKey,
    Der.tagged 3 (Der.sequence (t.extensions.map Extension.encode))]

/-- The certificate signed with a key. -/
def sign? [Signatures] (t : Template) (key : KeyPair) : Option Bytes := do
  let label := key.kind.signatureLabel
  let part ← t.signedPart? label
  return Der.sequence [part, label, Der.bits (key.sign part)]

end Template

-- ================================================================= drawing

namespace Serial

/-- Bytes drawn for a serial number. -/
def drawLength : Nat := 16

/-- The serial number of a draw: its number with the highest bit cleared. -/
def ofDraw (draw : Bytes) : Nat :=
  Bytes.toNat draw % 2 ^ (8 * drawLength - 1)

end Serial

namespace Validity

/-- The ends of a validity of so many days from an instant on, in seconds; there
are none when it ends after the year 9999. -/
def window? (now : Time.Instant) (days : Nat) : Option (Int × Int) :=
  let stop := now.seconds + 86400 * days
  if stop ≤ Time.lastSecond then some (now.seconds, stop) else none

end Validity

end Enrollment
