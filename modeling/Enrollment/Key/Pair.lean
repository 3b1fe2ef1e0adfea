/-
Key pairs: a secret key, its public key, and the document it came from.
-/
import Enrollment.Key.Document

namespace Enrollment

/-- A key pair. -/
structure KeyPair where
  /-- The document that holds the secret key. -/
  document : Bytes
  secret : SecretKey
  /-- The bits of the public key. -/
  publicKey : Bytes
  deriving Repr, DecidableEq

namespace KeyPair

/-- The kind of the key. -/
def kind (k : KeyPair) : KeyKind := .ofSecret k.secret

/-- The algorithm of the key, unless authorities do not use it. -/
def algorithm? (k : KeyPair) : Option KeyAlgorithm := k.kind.algorithm?

/-- The encoding of the public key. -/
def encodedPublic (k : KeyPair) : Bytes := k.kind.encodePublic k.publicKey

/-- The tag of a key's block. -/
def blockTag : String := "PRIVATE KEY"

/-- The block of a key. -/
def pem (k : KeyPair) : String :=
  Pem.encode .lf ⟨blockTag, k.document⟩

variable [Signatures]

/-- The key pair of a document. -/
def ofDocument? (document : Bytes) : Option KeyPair :=
  (KeyDocument.read? document).map fun k => ⟨document, k.1, k.2⟩

/-- The key pair in the first block of a text, whatever its tag. -/
def ofPem? (text : String) : Option KeyPair :=
  match Pem.parse text with
  | .ok block => ofDocument? block.contents
  | .error _ => none

/-- A fresh scalar of a curve, from drawn bytes. -/
def scalarOf (curve : Curve) (draw : Bytes) : Nat :=
  1 + Bytes.toNat draw % ((Weierstrass.params curve).order - 1)

/-- A fresh key pair on a curve. -/
def generateCurve (curve : Curve) (draw : Bytes) : KeyPair :=
  let scalar := scalarOf curve draw
  let secret := SecretKey.ecdsa curve scalar
  let key := Signatures.publicKey secret
  ⟨KeyDocument.writeCurve curve scalar key, secret, key⟩

/-- A fresh key pair of an algorithm, from drawn bytes. -/
def generate (algorithm : KeyAlgorithm) (draw : Bytes) : KeyPair :=
  match algorithm with
  | .ecdsaP256 => generateCurve .p256 draw
  | .ecdsaP384 => generateCurve .p384 draw
  | .ed25519 =>
    let seed := Bytes.ofNat 32 (Bytes.toNat draw)
    let secret := SecretKey.ed25519 seed
    let key := Signatures.publicKey secret
    ⟨KeyDocument.writeEdwards seed key, secret, key⟩

/-- The signature of a message. -/
def sign (k : KeyPair) (message : Bytes) : Bytes := Signatures.sign k.secret message

end KeyPair

end Enrollment
