/-
Requests for certificates.

A request is kept as the text it came in.  Reading it does not check that it is
signed with the key it carries; that is done before a certificate is issued.
-/
import Enrollment.SigningRequest.Fields

namespace Enrollment

/-- A request for a certificate, with what was read from it. -/
structure SigningRequest where
  /-- The text as it was received or made. -/
  pem : String
  der : Bytes
  fields : SigningRequest.Fields
  pem_size_le : Utf8.size pem ≤ Limits.certificateSize
  read_der : (SigningRequest.Fields.read der).map (·.1) = some fields

namespace SigningRequest

/-- The tags of a request's block. -/
def blockTags : List String := ["CERTIFICATE REQUEST", "NEW CERTIFICATE REQUEST"]

/-- The request in the first block of a text. -/
def ofPem (text : String) : Except Failure SigningRequest :=
  if hl : Utf8.size text ≤ Limits.certificateSize then
    match Pem.parse text with
    | .error fault => .error (.protocol (.requestPem fault))
    | .ok block =>
      if blockTags.contains block.tag then
        match hr : (Fields.read block.contents).map (·.1) with
        | some fields => .ok ⟨text, block.contents, fields, hl, hr⟩
        | none => .error (.protocol .requestUnreadable)
      else .error (.protocol (.notRequest block.tag))
  else .error (.protocol (.requestTooLarge (Utf8.size text)))

/-- The text of the subject's name. -/
def subject (r : SigningRequest) : String := r.fields.subject.text

/-- The encoding of the public key, over which the code of a request is made. -/
def publicKey (r : SigningRequest) : Bytes := r.fields.publicKey.encoded

/-- Checks that the request is signed with the key it carries. -/
def verifySignature [Signatures] (r : SigningRequest) : Except Failure Unit :=
  (r.fields.signed.verify r.fields.publicKey).mapError
    fun fault => .security (.requestSignature fault)

end SigningRequest

end Enrollment
