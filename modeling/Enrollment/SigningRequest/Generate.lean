/-
Making requests for certificates.
-/
import Enrollment.Certificate.Template
import Enrollment.Name.Written

namespace Enrollment.SigningRequest

/-- The attributes of a request for alternative names. -/
def attributesOf (subject : Entries) (names : List AlternativeName) : Bytes :=
  match Extension.ofNames subject names with
  | [] => []
  | extensions =>
    Der.sequence [Der.objectId extensionRequest,
      Der.singleton (Der.sequence (extensions.map Extension.encode))]

/-- The signed part of a request. -/
def signedPart? (subject : Entries) (names : List AlternativeName) (key : KeyPair) :
    Option Bytes := do
  return Der.sequence [Der.natural 0, ← subject.write?, key.encodedPublic,
    Der.tagged 0 (attributesOf subject names)]

variable [Signatures]

/-- The request with a subject and alternative names, signed with the key that
the certificate is to be for. -/
def sign? (subject : Entries) (names : List AlternativeName) (key : KeyPair) :
    Option Bytes := do
  let part ← signedPart? subject names key
  return Der.sequence [part, key.kind.signatureLabel, Der.bits (key.sign part)]

/-- Makes a request from texts. -/
def generate (subject : String) (names : List String) (key : KeyPair) :
    Except Halt SigningRequest := do
  let names ← Halt.lift ((AlternativeName.ofTexts names).mapError
    fun fault => .protocol (.alternativeName fault))
  let subject ← Halt.lift (Name.Written.parse subject)
  let some der := sign? subject names key | throw (.crashed .objectIdOutOfRange)
  Halt.lift (ofPem (Pem.encode .lf ⟨"CERTIFICATE REQUEST", der⟩))

end Enrollment.SigningRequest
