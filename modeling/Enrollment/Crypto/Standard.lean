/-
The operations on signatures as the standards define them.
-/
import Enrollment.Crypto.Edwards
import Enrollment.Crypto.Rsa
import Enrollment.Crypto.Weierstrass

namespace Enrollment.Standard

/-- The two numbers of an ECDSA signature. -/
def ecdsaNumbers? (signature : Bytes) : Option (Nat × Nat) :=
  Der.Strict.whole? (Der.Strict.readNested Der.Strict.sequenceTag fun bs => do
    let (r, bs) ← Der.Strict.readNatural bs
    let (s, bs) ← Der.Strict.readNatural bs
    return ((r, s), bs)) signature

/-- Does a signature of a message verify under a public key? -/
def verify : Scheme → (publicKey message signature : Bytes) → Bool
  | .ecdsa curve hash, key, message, signature =>
    match ecdsaNumbers? signature with
    | some (r, s) =>
      Weierstrass.verify (Weierstrass.params curve) key (hash.digest message) r s
    | none => false
  | .ed25519, key, message, signature => Edwards.verify key message signature
  | .rsaPkcs1 hash, key, message, signature => Rsa.verifyPkcs1 hash key message signature
  | .rsaPss hash, key, message, signature => Rsa.verifyPss hash key message signature

/-- The hash that goes with a curve. -/
def curveHash : Curve → HashKind
  | .p256 => .sha256
  | .p384 => .sha384

/-- The signature of a message. -/
def sign : SecretKey → Bytes → Bytes
  | .ecdsa curve scalar, message =>
    let (r, s) :=
      Weierstrass.sign (Weierstrass.params curve) scalar ((curveHash curve).digest message)
    Der.sequence [Der.natural r, Der.natural s]
  | .ed25519 seed, message => Edwards.sign seed message
  | .rsa modulus _ privateExponent, message => Rsa.sign modulus privateExponent message

/-- The public key that belongs to a secret key. -/
def publicKey : SecretKey → Bytes
  | .ecdsa curve scalar => Weierstrass.publicKey (Weierstrass.params curve) scalar
  | .ed25519 seed => Edwards.publicKey seed
  | .rsa modulus exponent _ => (Rsa.PublicKey.mk modulus exponent).encode

/-- Signatures as the standards define them. -/
instance signatures : Signatures where
  verify := verify
  sign := sign
  publicKey := publicKey

end Enrollment.Standard
