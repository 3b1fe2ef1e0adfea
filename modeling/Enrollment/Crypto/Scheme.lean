/-
Which signatures there are, and what a library of them offers.

What is proved of certificates does not depend on how signatures are computed,
so the rest of the library takes the operations on signatures as an instance
of one class, and assumes at most of an authority's key that it is sound: what
is signed with it verifies under the public key that belongs to it.
-/
import Enrollment.Hash.Sha1

namespace Enrollment

/-- The hash functions that signatures are made over. -/
inductive HashKind where
  | sha1
  | sha256
  | sha384
  | sha512
  deriving Repr, DecidableEq

/-- The hash of a message. -/
def HashKind.digest : HashKind → Bytes → Bytes
  | .sha1 => Enrollment.sha1
  | .sha256 => Enrollment.sha256
  | .sha384 => Enrollment.sha384
  | .sha512 => Enrollment.sha512

/-- The elliptic curves of keys. -/
inductive Curve where
  | p256
  | p384
  deriving Repr, DecidableEq

/-- A way to make signatures. -/
inductive Scheme where
  | ecdsa (curve : Curve) (hash : HashKind)
  | ed25519
  | rsaPkcs1 (hash : HashKind)
  | rsaPss (hash : HashKind)
  deriving Repr, DecidableEq

/-- A secret key. -/
inductive SecretKey where
  | ecdsa (curve : Curve) (scalar : Nat)
  | ed25519 (seed : Bytes)
  | rsa (modulus publicExponent privateExponent : Nat)
  deriving Repr, DecidableEq

/-- The scheme that a key signs by. -/
def SecretKey.scheme : SecretKey → Scheme
  | .ecdsa .p256 _ => .ecdsa .p256 .sha256
  | .ecdsa .p384 _ => .ecdsa .p384 .sha384
  | .ed25519 _ => .ed25519
  | .rsa _ _ _ => .rsaPkcs1 .sha256

/-- Operations on signatures. -/
class Signatures where
  /-- Does a signature of a message verify under a public key? -/
  verify : Scheme → (publicKey message signature : Bytes) → Bool
  /-- The signature of a message. -/
  sign : SecretKey → (message : Bytes) → Bytes
  /-- The public key that belongs to a secret key. -/
  publicKey : SecretKey → Bytes

/-- What is signed with the key verifies under its public key. -/
def SecretKey.Sound [Signatures] (key : SecretKey) : Prop :=
  ∀ message, Signatures.verify key.scheme (Signatures.publicKey key) message
    (Signatures.sign key message) = true

end Enrollment
