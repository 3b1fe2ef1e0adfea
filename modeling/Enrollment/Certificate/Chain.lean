/-
Chains: a certificate, then the one that issued it, and so on.

That each certificate did issue the one before it is not part of the type; it
is what `validateLinks` checks.
-/
import Enrollment.Certificate.Basic

namespace Enrollment

/-- Up to eight certificates, the first of them apart. -/
structure Chain where
  leaf : Certificate
  /-- Everything after the first certificate. -/
  issuers : List Certificate
  length_le : issuers.length + 1 ≤ Limits.chainLength
  deriving DecidableEq

namespace Chain

-- ================================================================= making

/-- Certificates as a chain. -/
def ofList : List Certificate → Except Failure Chain
  | [] => .error (.protocol .emptyChain)
  | leaf :: issuers =>
    if h : issuers.length + 1 ≤ Limits.chainLength then .ok ⟨leaf, issuers, h⟩
    else .error (.protocol (.longChain (issuers.length + 1)))

/-- Byte strings as a chain. -/
def ofDers (ders : List Bytes) : Except Failure Chain := do
  ofList (← ders.mapM Certificate.ofDer)

/-- The certificates in the blocks of a text; other blocks are passed over. -/
def ofPem (text : String) : Except Failure Chain :=
  match Pem.parseMany text with
  | .error fault => .error (.protocol (.certificatePem fault))
  | .ok blocks => ofDers ((blocks.filter (·.tag == Certificate.blockTag)).map (·.contents))

-- ================================================================ reading

/-- The certificates in order. -/
def toList (c : Chain) : List Certificate := c.leaf :: c.issuers

/-- The number of certificates. -/
def length (c : Chain) : Nat := c.issuers.length + 1

/-- The blocks of all certificates in order. -/
def pem (c : Chain) : String :=
  String.join (c.toList.map Certificate.pem)

/-- The text that a chain is shown as. -/
def describe (c : Chain) : String :=
  "CertificateChain \x7b certs: [" ++ ", ".intercalate (c.toList.map Certificate.describe)
    ++ "] \x7d"

/-- The chain with one more certificate in front. -/
def prepend (c : Chain) (leaf : Certificate) : Except Failure Chain :=
  ofList (leaf :: c.toList)

-- =============================================================== checking

variable [Signatures]

/-- Checks that the parent is named as issuer and did sign. -/
def checkLink (child parent : Certificate) : Except Failure Unit := do
  if child.issuer ≠ parent.subject then
    throw (.security (.brokenLink child.issuer parent.subject))
  child.verifySignedBy parent

/-- Checks the links from a certificate on; the last certificate has to verify
itself when it names itself as issuer. -/
def checkFrom : Certificate → List Certificate → Except Failure Unit
  | last, [] => if last.isSelfIssued then last.verifySelfSigned else .ok ()
  | child, parent :: rest => do
    checkLink child parent
    checkFrom parent rest

/-- Checks the names and the signatures along a chain; times of validity and
extensions are not looked at. -/
def validateLinks (c : Chain) : Except Failure Unit :=
  checkFrom c.leaf c.issuers

end Chain

end Enrollment
