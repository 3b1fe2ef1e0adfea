/-
What stands in a request for a certificate.
-/
import Enrollment.Certificate.Parts
import Enrollment.Name.Text

namespace Enrollment.SigningRequest

/-- The object identifiers of the attributes that are looked into. -/
def extensionRequest : Der.ObjectId := .ofArcs [1, 2, 840, 113549, 1, 9, 14]
def challengePassword : Der.ObjectId := .ofArcs [1, 2, 840, 113549, 1, 9, 7]

/-- The fields of a request. -/
structure Fields where
  version : Nat
  subject : Name
  publicKey : PublicKeyInfo
  /-- The extensions that the first attribute of that kind asks for. -/
  extensions : List Extension
  /-- The signed part and its signature. -/
  signed : Signed
  deriving Repr, DecidableEq

namespace Fields

/-- The kinds of string that a password may be. -/
def passwordStrings : List Nat :=
  [Der.TagNumber.utf8String, Der.TagNumber.printableString, Der.TagNumber.teletexString,
    Der.TagNumber.universalString, Der.TagNumber.bmpString]

/-- An attribute: the extensions that it asks for, if it is of that kind. -/
def readAttribute : Der.Reader (Option (List Extension)) :=
  Der.readSequence fun bs => do
    let (type, bs) ← Der.readObjectId bs
    let ((tag, _), bs) ← Der.readHeader bs
    if tag.number ≠ Der.TagNumber.set then none
    if type = extensionRequest then
      let (extensions, bs) ← Extension.readList bs
      return (some extensions, bs)
    else if type = challengePassword then
      let (password, bs) ← Der.readElement bs
      if passwordStrings.contains password.tag.number then some (none, bs) else none
    else return (none, bs)

/-- The attributes at the end of the signed part. -/
def readAttributes? (bs : Bytes) : Option (List (Option (List Extension))) := do
  let ((tag, _), bs) ← Der.readHeader bs
  if bs.isEmpty then return []
  if tag.number ≠ 0 then none
  Der.readAll readAttribute bs

/-- The fields inside the signed part; those of the signature are left empty. -/
def readSignedPart : Der.Reader Fields := fun bs => do
  let (part, rest) ← Der.readNumbered Der.TagNumber.sequence bs
  let bs := part.contents
  let (version, bs) ← Der.readSmallNat bs
  let (subject, bs) ← Name.read bs
  let (publicKey, bs) ← PublicKeyInfo.read bs
  let attributes ← readAttributes? bs
  return ({ version, subject, publicKey,
            extensions := ((attributes.filterMap id).head?).getD [],
            signed := ⟨part.encoded, publicKey.algorithm, []⟩ }, rest)

/-- The fields of the request at the front of a byte string. -/
def read : Der.Reader Fields :=
  Der.readSequence fun bs => do
    let (fields, bs) ← readSignedPart bs
    let (algorithm, bs) ← AlgorithmId.read bs
    let (signature, bs) ← Der.readBits bs
    return ({ fields with signed := { fields.signed with algorithm, signature } }, bs)

end Fields

end Enrollment.SigningRequest
