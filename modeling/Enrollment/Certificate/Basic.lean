/-
Certificates.

A certificate is a byte string of limited size that can be read as one; bytes
behind its end are kept.  Nothing here says that a certificate is to be
trusted: whoever has one decides under which key it has to verify.
-/
import Enrollment.Certificate.Fields

namespace Enrollment

/-- A certificate, with what was read from it. -/
structure Certificate where
  der : Bytes
  fields : Certificate.Fields
  der_length_le : der.length ≤ Limits.certificateSize
  read_der : (Certificate.Fields.read der).map (·.1) = some fields

namespace Certificate

/-- Two certificates are the same when their bytes are. -/
theorem ext_der {a b : Certificate} (h : a.der = b.der) : a = b := by
  obtain ⟨da, fa, la, ra⟩ := a
  obtain ⟨db, fb, lb, rb⟩ := b
  cases h
  rw [ra] at rb
  cases rb
  rfl

instance : DecidableEq Certificate := fun a b =>
  if h : a.der = b.der then .isTrue (ext_der h) else .isFalse fun e => h (e ▸ rfl)

-- ================================================================ reading

/-- A byte string as a certificate. -/
def ofDer (der : Bytes) : Except Failure Certificate :=
  if hl : der.length ≤ Limits.certificateSize then
    match hr : (Fields.read der).map (·.1) with
    | some fields => .ok ⟨der, fields, hl, hr⟩
    | none => .error (.protocol .certificateUnreadable)
  else .error (.protocol (.certificateTooLarge der.length))

/-- The tag of a certificate's block. -/
def blockTag : String := "CERTIFICATE"

/-- The certificate in the first block of a text. -/
def ofPem (text : String) : Except Failure Certificate :=
  match Pem.parse text with
  | .error fault => .error (.protocol (.certificatePem fault))
  | .ok block =>
    if block.tag = blockTag then ofDer block.contents
    else .error (.protocol (.notCertificate block.tag))

/-- The block of a certificate. -/
def pem (c : Certificate) : String :=
  Pem.encode .crlf ⟨blockTag, c.der⟩

-- ================================================================= fields

/-- The text of the subject's name. -/
def subject (c : Certificate) : String := c.fields.subject.text

/-- The text of the issuer's name. -/
def issuer (c : Certificate) : String := c.fields.issuer.text

/-- The first common name of the subject. -/
def commonName (c : Certificate) : Option String := c.fields.subject.commonName

/-- The encoding of the public key. -/
def publicKey (c : Certificate) : Bytes := c.fields.publicKey.encoded

/-- The serial number in hexadecimal. -/
def serial (c : Certificate) : String := c.fields.serial.toHex

/-- The text that a certificate is shown as. -/
def describe (c : Certificate) : String :=
  "Certificate \x7b subject: " ++ Text.quoted c.subject ++ ", len: "
    ++ Text.decimal c.der.length ++ " \x7d"

-- ============================================================= signatures

variable [Signatures]

/-- Checks that the certificate is signed with the issuer's key. -/
def verifySignedBy (c issuer : Certificate) : Except Failure Unit :=
  (c.fields.signed.verify issuer.fields.publicKey).mapError
    fun fault => .security (.certificateSignature fault)

/-- Do subject and issuer have one encoding? -/
def isSelfIssued (c : Certificate) : Bool :=
  c.fields.subject.encoded == c.fields.issuer.encoded

/-- Checks that the certificate is signed with its own key. -/
def verifySelfSigned (c : Certificate) : Except Failure Unit :=
  (c.fields.signed.verify c.fields.publicKey).mapError
    fun fault => .security (.selfSignature fault)

end Certificate

end Enrollment
