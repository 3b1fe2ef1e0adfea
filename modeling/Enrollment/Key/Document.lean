/-
Secret keys as documents, without encryption.

A document names the kind of its key and holds the key in a form of that kind.
It is read strictly: a document that can be read has a public key that belongs
to the secret one, whether it states that public key or not.
-/
import Enrollment.Crypto.Rsa
import Enrollment.Crypto.Weierstrass
import Enrollment.Key.Kind

namespace Enrollment.KeyDocument

open Der

/-- The tag bytes that occur only here. -/
def attributesTag : UInt8 := 0xA0
def ownPublicTag : UInt8 := 0x81
def oldPublicTag : UInt8 := 0xA1
def curveTag : UInt8 := 0xA0
def pointTag : UInt8 := 0xA1

-- =============================================================== envelope

/-- The parts of a document. -/
structure Envelope where
  version : Nat
  /-- The contents of the label that names the kind. -/
  label : Bytes
  secret : Bytes
  /-- The public key, in documents of the second version. -/
  publicKey : Option Bytes

/-- The public key of a document of the second version; the old form has an
element around it. -/
def readOwnPublic : Reader Bytes := fun bs =>
  if bs.head? = some oldPublicTag then Strict.readNested oldPublicTag Strict.readBits bs
  else do
    let (contents, rest) ← Strict.read ownPublicTag bs
    return (← Strict.wholeBits? contents, rest)

/-- The parts of a document; its attributes are passed over. -/
def readEnvelope : Reader Envelope :=
  Strict.readNested Strict.sequenceTag fun bs => do
    let (version, bs) ← Strict.readNatural bs
    let (label, bs) ← Strict.read Strict.sequenceTag bs
    let (secret, bs) ← Strict.read Strict.octetStringTag bs
    let (_, bs) ← Strict.readIf attributesTag bs
    if version = 1 then
      let (publicKey, bs) ← readOwnPublic bs
      return (⟨version, label, secret, some publicKey⟩, bs)
    else return (⟨version, label, secret, none⟩, bs)

-- ================================================================== kinds

variable [Signatures]

/-- A secret key with its public key, if the stated public key is the same. -/
def withPublic (secret : SecretKey) (stated : Option Bytes) : Option (SecretKey × Bytes) :=
  let own := Signatures.publicKey secret
  match stated with
  | some key => if key = own then some (secret, own) else none
  | none => some (secret, own)

/-- The key in a document of an Edwards curve. -/
def edwards? (e : Envelope) : Option (SecretKey × Bytes) := do
  let seed ← Strict.whole? (Strict.read Strict.octetStringTag) e.secret
  if 1 < e.version ∨ seed.length ≠ 32 then none
  withPublic (.ed25519 seed) e.publicKey

/-- The key in a document of another curve, which has to state its public key. -/
def curve? (curve : Curve) (e : Envelope) : Option (SecretKey × Bytes) := do
  if e.version ≠ 0 then none
  let inner : Reader (Bytes × Bytes) := Strict.readNested Strict.sequenceTag fun bs => do
    let (version, bs) ← Strict.readNatural bs
    if version ≠ 1 then none
    let (scalar, bs) ← Strict.read Strict.octetStringTag bs
    let (named, bs) ← Strict.readIf curveTag bs
    if named.any (· != Der.objectId curve.objectId) then none
    let (key, bs) ← Strict.readNested pointTag Strict.readBits bs
    return ((scalar, key), bs)
  let (scalar, key) ← Strict.whole? inner e.secret
  let n := Bytes.toNat scalar
  let params := Weierstrass.params curve
  if scalar.length ≠ params.size ∨ n = 0 ∨ params.order ≤ n then none
  withPublic (.ecdsa curve n) (some key)

/-- The numbers of an RSA key. -/
structure RsaNumbers where
  modulus : Nat
  publicExponent : Nat
  privateExponent : Nat
  prime1 : Nat
  prime2 : Nat
  exponent1 : Nat
  exponent2 : Nat
  coefficient : Nat

/-- The numbers of an RSA key. -/
def readRsaNumbers : Reader RsaNumbers :=
  Strict.readNested Strict.sequenceTag fun bs => do
    let (version, bs) ← Strict.readNatural bs
    if version ≠ 0 then none
    let (modulus, bs) ← Strict.readNatural bs
    let (publicExponent, bs) ← Strict.readNatural bs
    let (privateExponent, bs) ← Strict.readNatural bs
    let (prime1, bs) ← Strict.readNatural bs
    let (prime2, bs) ← Strict.readNatural bs
    let (exponent1, bs) ← Strict.readNatural bs
    let (exponent2, bs) ← Strict.readNatural bs
    let (coefficient, bs) ← Strict.readNatural bs
    return (⟨modulus, publicExponent, privateExponent, prime1, prime2, exponent1, exponent2,
      coefficient⟩, bs)

/-- Do the numbers belong together, and is the key of a size in use? -/
def RsaNumbers.isSound (k : RsaNumbers) : Bool :=
  let bits := Crypto.bitLength k.modulus
  (Rsa.PublicKey.mk k.modulus k.publicExponent).isUsable 2048 65537
    && bits ≤ 4096 && k.modulus == k.prime1 * k.prime2
    && k.prime1 % 2 == 1 && k.prime2 % 2 == 1
    && Crypto.bitLength k.prime1 * 2 == bits && Crypto.bitLength k.prime2 * 2 == bits
    && k.privateExponent % 2 == 1 && k.privateExponent < k.modulus
    && k.exponent1 < k.prime1 && k.exponent2 < k.prime2 && k.coefficient < k.prime1
    && k.publicExponent * k.exponent1 % (k.prime1 - 1) == 1
    && k.publicExponent * k.exponent2 % (k.prime2 - 1) == 1
    && k.coefficient * k.prime2 % k.prime1 == 1

/-- The key in a document of RSA. -/
def rsa? (e : Envelope) : Option (SecretKey × Bytes) := do
  if e.version ≠ 0 then none
  let k ← Strict.whole? readRsaNumbers e.secret
  if k.isSound then withPublic (.rsa k.modulus k.publicExponent k.privateExponent) none else none

/-- The contents of the label of a kind. -/
def labelOf (kind : KeyKind) : Bytes := kind.labelParts.flatten

/-- The secret and the public key in a document. -/
def read? (document : Bytes) : Option (SecretKey × Bytes) := do
  let e ← Strict.whole? readEnvelope document
  if e.label = labelOf .ed25519 then edwards? e
  else if e.label = labelOf (.ec .p256) then curve? .p256 e
  else if e.label = labelOf (.ec .p384) then curve? .p384 e
  else if e.label = labelOf .rsa then rsa? e
  else none

-- ================================================================ writing

/-- The document of a key on a curve. -/
def writeCurve (curve : Curve) (scalar : Nat) (key : Bytes) : Bytes :=
  let size := (Weierstrass.params curve).size
  let inner := Der.sequence
    [Der.natural 1, Der.octets (Bytes.ofNat size scalar), Der.tagged 1 (Der.bits key)]
  Der.sequence [Der.natural 0, Der.sequence (KeyKind.ec curve).labelParts, Der.octets inner]

/-- The document of a key on an Edwards curve, with its public key. -/
def writeEdwards (seed key : Bytes) : Bytes :=
  Der.sequence
    [Der.natural 1, Der.sequence KeyKind.ed25519.labelParts, Der.octets (Der.octets seed),
      Der.write (.context 1 false) (0 :: key)]

end Enrollment.KeyDocument
