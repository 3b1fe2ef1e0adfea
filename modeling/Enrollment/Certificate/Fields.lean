/-
What stands in a certificate.
-/
import Enrollment.Certificate.Parts
import Enrollment.Der.Indefinite
import Enrollment.Der.Time
import Enrollment.Name.Text

namespace Enrollment.Certificate

/-- The fields of a certificate. -/
structure Fields where
  /-- The version number as it is written: two stands for the third version. -/
  version : Nat
  /-- The contents of the serial number. -/
  serial : Bytes
  /-- The signature algorithm that the signed part names. -/
  innerAlgorithm : AlgorithmId
  issuer : Name
  notBefore : Der.ZonedTime
  notAfter : Der.ZonedTime
  subject : Name
  publicKey : PublicKeyInfo
  extensions : List Extension
  /-- The signed part and its signature. -/
  signed : Signed
  deriving Repr, DecidableEq

namespace Fields

/-- The version number in its own element. -/
def readVersion : Der.Reader Nat := fun bs => do
  let (version, rest) ← Der.readTagged? 0 (fun bs => (Der.readSmallNat bs).map (·.1)) bs
  return (version.getD 0, rest)

/-- The contents of the serial number, which may be of indefinite length. -/
def readSerial : Der.Reader Bytes := fun bs => do
  let (e, rest) ← Der.readLoose bs
  if e.tag.number = Der.TagNumber.integer then some (e.contents, rest) else none

/-- The two ends of the time of validity. -/
def readValidity : Der.Reader (Der.ZonedTime × Der.ZonedTime) :=
  Der.readSequence fun bs => do
    let (notBefore, bs) ← Der.ZonedTime.read bs
    let (notAfter, bs) ← Der.ZonedTime.read bs
    return ((notBefore, notAfter), bs)

/-- An element under a context tag, if there is one; it must not be empty. -/
def skipUniqueId (number : Nat) : Bytes → Option Bytes := fun bs =>
  if bs.isEmpty then some bs
  else do
    let (e, rest) ← Der.readElement bs
    if e.tag.number ≠ number ∨ e.tag.cls ≠ .context then return bs
    if e.contents.isEmpty then none
    return rest

/-- The extensions at the end of the signed part.  Only the number of the tag
around them counts; what follows its length has to be the extensions alone. -/
def readExtensions (bs : Bytes) : Option (List Extension) :=
  if bs.isEmpty then some []
  else do
    let ((tag, _), rest) ← Der.readHeader bs
    if tag.number ≠ 3 then none
    let (extensions, rest) ← Extension.readList rest
    if rest.isEmpty then some extensions else none

/-- The fields inside the signed part; those of the signature are left empty. -/
def readSignedPart : Der.Reader Fields := fun bs => do
  let (part, rest) ← Der.readNumbered Der.TagNumber.sequence bs
  let bs := part.contents
  let (version, bs) ← readVersion bs
  let (serial, bs) ← readSerial bs
  let (innerAlgorithm, bs) ← AlgorithmId.read bs
  let (issuer, bs) ← Name.read bs
  let ((notBefore, notAfter), bs) ← readValidity bs
  let (subject, bs) ← Name.read bs
  let (publicKey, bs) ← PublicKeyInfo.read bs
  let bs ← skipUniqueId 1 bs
  let bs ← skipUniqueId 2 bs
  let extensions ← readExtensions bs
  return ({ version, serial, innerAlgorithm, issuer, notBefore, notAfter,
            subject, publicKey, extensions,
            signed := ⟨part.encoded, innerAlgorithm, []⟩ }, rest)

/-- The fields of the certificate at the front of a byte string. -/
def read : Der.Reader Fields :=
  Der.readSequence fun bs => do
    let (fields, bs) ← readSignedPart bs
    let (algorithm, bs) ← AlgorithmId.read bs
    let (signature, bs) ← Der.readBits bs
    return ({ fields with signed := { fields.signed with algorithm, signature } }, bs)

end Fields

end Enrollment.Certificate
