/-
The two messages of an enrolment and their form as JSON.

A request carries an authentication code over the key that a certificate is
asked for, and the text of the request for it.  A response carries either a
code over the authority's key and the certificate, or an error.  Every field
may be absent, so that what is missing can be told.
-/
import Enrollment.Certificate.Basic
import Enrollment.Json.Record
import Enrollment.SigningRequest.Basic
import Enrollment.Token

namespace Enrollment

namespace Message

/-- The text of a code. -/
def codeText (code : Bytes) : String :=
  String.ofList (Base64.encode code)

/-- A text as a code. -/
def codeOfText (text : String) : Except Json.Fault Bytes :=
  (Base64.decode (Utf8.encode text)).mapError .base64

/-- A member of an object, if it is present. -/
def member (name : String) (value : Option String) : List (String × String) :=
  match value with
  | some text => [(name, text)]
  | none => []

/-- The body that an object makes. -/
def body (members : List (String × String)) : Bytes :=
  Utf8.encodeChars (Json.writeObject members)

end Message

-- ================================================================ request

/-- What a host sends. -/
structure Request where
  hmac : Option Bytes := none
  csr : Option String := none
  deriving Repr, DecidableEq

namespace Request

/-- The fields of a request. -/
def shape : Json.Shape Request where
  name := "AuthenticatedRequest"
  fields := [
    ⟨"hmac", fun text r => return { r with hmac := some (← Message.codeOfText text) }⟩,
    ⟨"csr", fun text r => return { r with csr := some text }⟩]
  empty := {}

/-- The request of a host that knows the token. -/
def ofToken (token : Token) (csr : SigningRequest) : Request :=
  { hmac := some (token.mac csr.publicKey), csr := some csr.pem }

/-- The body of a request. -/
def toJson (r : Request) : Bytes :=
  Message.body (Message.member "hmac" (r.hmac.map Message.codeText) ++ Message.member "csr" r.csr)

/-- The request that a body spells. -/
def ofJson (body : Bytes) : Except Failure Request :=
  (Json.ofDocument shape body).mapError fun fault => .protocol (.malformedRequest fault)

end Request

-- =============================================================== response

/-- What an authority answers. -/
structure Response where
  hmac : Option Bytes := none
  certificate : Option String := none
  error : Option String := none
  deriving Repr, DecidableEq

namespace Response

/-- The fields of a response. -/
def shape : Json.Shape Response where
  name := "AuthenticatedResponse"
  fields := [
    ⟨"hmac", fun text r => return { r with hmac := some (← Message.codeOfText text) }⟩,
    ⟨"certificate", fun text r => return { r with certificate := some text }⟩,
    ⟨"error", fun text r => return { r with error := some text }⟩]
  empty := {}

/-- The body of a response. -/
def toJson (r : Response) : Bytes :=
  Message.body (Message.member "hmac" (r.hmac.map Message.codeText)
    ++ Message.member "certificate" r.certificate ++ Message.member "error" r.error)

/-- The response that a body spells. -/
def ofJson (body : Bytes) : Except Failure Response :=
  (Json.ofDocument shape body).mapError fun fault => .protocol (.malformedResponse fault)

/-- The response that hands over a certificate, with a code over the key of the
certificate that issued it. -/
def issued (token : Token) (issuer leaf : Certificate) : Response :=
  { hmac := some (token.mac issuer.publicKey), certificate := some leaf.pem }

/-- The response that gives nothing but an error. -/
def rejected (message : String) : Response :=
  { error := some message }

end Response

end Enrollment
