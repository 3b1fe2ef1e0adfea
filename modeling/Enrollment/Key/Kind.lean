/-
Kinds of keys, and how keys of each kind and what they sign are labelled.
-/
import Enrollment.Certificate.Parts
import Enrollment.KeyAlgorithm

namespace Enrollment

/-- The kind of a key. -/
inductive KeyKind where
  | ec (curve : Curve)
  | ed25519
  | rsa
  deriving Repr, DecidableEq

namespace KeyId

/-- The object identifiers of public keys. -/
def ecPublicKey : Der.ObjectId := .ofArcs [1, 2, 840, 10045, 2, 1]
def rsaEncryption : Der.ObjectId := .ofArcs [1, 2, 840, 113549, 1, 1, 1]

end KeyId

namespace KeyKind

/-- The kind of a secret key. -/
def ofSecret : SecretKey → KeyKind
  | .ecdsa curve _ => .ec curve
  | .ed25519 _ => .ed25519
  | .rsa _ _ _ => .rsa

/-- The kind of keys of an algorithm. -/
def ofAlgorithm : KeyAlgorithm → KeyKind
  | .ecdsaP256 => .ec .p256
  | .ecdsaP384 => .ec .p384
  | .ed25519 => .ed25519

/-- The algorithm of a kind of keys, unless authorities do not use it. -/
def algorithm? : KeyKind → Option KeyAlgorithm
  | .ec .p256 => some .ecdsaP256
  | .ec .p384 => some .ecdsaP384
  | .ed25519 => some .ed25519
  | .rsa => none

/-- The elements that label a key. -/
def labelParts : KeyKind → List Bytes
  | .ec curve => [Der.objectId KeyId.ecPublicKey, Der.objectId curve.objectId]
  | .ed25519 => [Der.objectId SignatureId.ed25519]
  | .rsa => [Der.objectId KeyId.rsaEncryption, Der.null]

/-- The encoding of a public key from its bits. -/
def encodePublic (kind : KeyKind) (key : Bytes) : Bytes :=
  Der.sequence [Der.sequence kind.labelParts, Der.bits key]

/-- The label of signatures by a key. -/
def signatureLabel : KeyKind → Bytes
  | .ec .p256 => Der.sequence [Der.objectId SignatureId.ecdsaSha256]
  | .ec .p384 => Der.sequence [Der.objectId SignatureId.ecdsaSha384]
  | .ed25519 => Der.sequence [Der.objectId SignatureId.ed25519]
  | .rsa => Der.sequence [Der.objectId SignatureId.rsaSha256, Der.null]

/-- The kind of keys that make signatures with a given label. -/
def ofSignatureId? (arcs : List Nat) : Option KeyKind :=
  let ids : List (Der.ObjectId × KeyKind) := [
    (SignatureId.rsaSha256, .rsa), (SignatureId.rsaSha384, .rsa), (SignatureId.rsaSha512, .rsa),
    (SignatureId.ecdsaSha256, .ec .p256), (SignatureId.ecdsaSha384, .ec .p384),
    (SignatureId.ed25519, .ed25519)]
  (ids.find? fun p => p.1.arcs? == some arcs).map (·.2)

end KeyKind

end Enrollment
