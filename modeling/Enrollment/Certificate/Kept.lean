/-
Chains as they are kept, and how they come about.

A certificate is kept as its bytes and nothing else, and these are read again each time
that something in it is asked for.  A chain is kept as a list of such certificates, and
the one at a place is taken without a look at how many there are.  So an answer can fail
to come: for bytes that cannot be read, and for a place that is not there.

Chains are made one after the other, and to make one does nothing to those that there are.
-/
import Enrollment.Certificate.Chain

namespace Enrollment

-- =========================================================== certificates

namespace Certificate

/-- The bytes that a certificate is kept as. -/
structure Kept where
  der : Bytes
  deriving Repr, DecidableEq

/-- A certificate as it is kept. -/
def kept (c : Certificate) : Kept := ⟨c.der⟩

namespace Kept

/-- Reads the bytes once more. -/
def fields (k : Kept) : Except Failure Fields :=
  match Fields.read k.der with
  | some (fields, _) => .ok fields
  | none => .error (.protocol .certificateUnreadable)

/-- The text of the subject's name. -/
def subject (k : Kept) : Except Failure String := do
  return (← k.fields).subject.text

/-- The text of the issuer's name. -/
def issuer (k : Kept) : Except Failure String := do
  return (← k.fields).issuer.text

/-- The first common name of the subject. -/
def commonName (k : Kept) : Except Failure (Option String) := do
  return (← k.fields).subject.commonName

/-- The encoding of the public key. -/
def publicKey (k : Kept) : Except Failure Bytes := do
  return (← k.fields).publicKey.encoded

/-- The serial number in hexadecimal. -/
def serial (k : Kept) : Except Failure String := do
  return (← k.fields).serial.toHex

/-- Do subject and issuer have one encoding? -/
def isSelfIssued (k : Kept) : Except Failure Bool := do
  let fields ← k.fields
  return fields.subject.encoded == fields.issuer.encoded

variable [Signatures]

/-- Checks that the certificate is signed with the issuer's key. -/
def verifySignedBy (k issuer : Kept) : Except Failure Unit := do
  let fields ← k.fields
  let key := (← issuer.fields).publicKey
  (fields.signed.verify key).mapError fun fault => .security (.certificateSignature fault)

/-- Checks that the certificate is signed with its own key. -/
def verifySelfSigned (k : Kept) : Except Failure Unit := do
  let fields ← k.fields
  (fields.signed.verify fields.publicKey).mapError fun fault => .security (.selfSignature fault)

end Kept

end Certificate

-- ================================================================= chains

namespace Chain

/-- The certificates that a chain is kept as. -/
structure Kept where
  certificates : List Certificate.Kept
  deriving Repr, DecidableEq

/-- A chain as it is kept. -/
def kept (c : Chain) : Kept := ⟨c.toList.map Certificate.kept⟩

namespace Kept

/-- What keeps an answer from coming. -/
inductive Stop where
  | failed (failure : Failure)
  /-- There is nothing at the place that was looked at. -/
  | outOfRange (place : Nat)
  deriving Repr, DecidableEq

/-- A failure as what keeps an answer from coming. -/
def Stop.lift {α : Type} (result : Except Failure α) : Except Stop α :=
  result.mapError .failed

/-- The certificate at a place. -/
def certificate (k : Kept) (place : Nat) : Except Stop Certificate.Kept :=
  match k.certificates[place]? with
  | some c => .ok c
  | none => .error (.outOfRange place)

/-- The certificates from a place on. -/
def behind (k : Kept) (place : Nat) : Except Stop (List Certificate.Kept) :=
  if place ≤ k.certificates.length then .ok (k.certificates.drop place)
  else .error (.outOfRange place)

/-- The first certificate. -/
def leaf (k : Kept) : Except Stop Certificate.Kept := k.certificate 0

/-- Everything after the first certificate. -/
def issuers (k : Kept) : Except Stop (List Certificate.Kept) := k.behind 1

variable [Signatures]

/-- Checks that the certificate behind a place is named as issuer and did sign. -/
def checkLink (k : Kept) (place : Nat) : Except Stop Unit := do
  let child ← k.certificate place
  let parent ← k.certificate (place + 1)
  let issuer ← Stop.lift child.issuer
  let subject ← Stop.lift parent.subject
  if issuer ≠ subject then
    throw (.failed (.security (.brokenLink issuer subject)))
  Stop.lift (child.verifySignedBy parent)

/-- Checks the last certificate, when it names itself as issuer. -/
def checkLast (k : Kept) : Except Stop Unit := do
  let last ← k.certificate (k.certificates.length - 1)
  if ← Stop.lift last.isSelfIssued then Stop.lift last.verifySelfSigned
  else .ok ()

/-- Checks the names and the signatures along a chain, place by place. -/
def validateLinks (k : Kept) : Except Stop Unit := do
  forM (List.range (k.certificates.length - 1)) k.checkLink
  k.checkLast

end Kept

-- ================================================================= making

/-- What a certificate is read from. -/
inductive Source where
  | der (bytes : Bytes)
  | pem (text : String)

/-- Reads a certificate. -/
def Source.certificate : Source → Except Failure Certificate
  | der bytes => Certificate.ofDer bytes
  | pem text => Certificate.ofPem text

/-- A way to make a chain. -/
inductive Making where
  | ofList (certificates : List Source)
  | ofPem (text : String)
  | ofDers (ders : List Bytes)
  /-- Puts a certificate in front of a chain, which is told by its place among those that
  were made. -/
  | prepend (place : Nat) (leaf : Source)

namespace Making

/-- What comes of it where some chains were made before; there is nothing to do if it is
about a chain that was not. -/
def perform (made : List Chain) : Making → Option (Except Failure Chain)
  | ofList certificates => some do Chain.ofList (← certificates.mapM Source.certificate)
  | ofPem text => some (Chain.ofPem text)
  | ofDers ders => some (Chain.ofDers ders)
  | prepend place leaf => made[place]?.map fun c => do c.prepend (← leaf.certificate)

/-- The chains that there are then. -/
def step (made : List Chain) (m : Making) : List Chain :=
  match m.perform made with
  | some (.ok c) => made ++ [c]
  | _ => made

/-- The chains that there are when some were made one after the other. -/
def run (makings : List Making) : List Chain := makings.foldl step []

end Making

end Chain

end Enrollment
