/-
RSA signatures with the two paddings in use: a hash behind fixed bytes, and a
salted hash spread over the whole block.
-/
import Enrollment.Crypto.Modular
import Enrollment.Crypto.Scheme
import Enrollment.Der.Strict

namespace Enrollment.Rsa

open Crypto

/-- A public key. -/
structure PublicKey where
  modulus : Nat
  exponent : Nat

/-- A public key as two integers in a sequence. -/
def PublicKey.read? (bytes : Bytes) : Option PublicKey :=
  Der.Strict.whole? (Der.Strict.readNested Der.Strict.sequenceTag fun bs => do
    let (modulus, bs) ← Der.Strict.readNatural bs
    let (exponent, bs) ← Der.Strict.readNatural bs
    return (⟨modulus, exponent⟩, bs)) bytes

/-- The encoding of a public key. -/
def PublicKey.encode (k : PublicKey) : Bytes :=
  Der.sequence [Der.natural k.modulus, Der.natural k.exponent]

/-- Bytes of the modulus. -/
def PublicKey.size (k : PublicKey) : Nat :=
  Bytes.digitCount k.modulus

/-- Is a key with at least so many bits usable? -/
def PublicKey.isUsable (minBits minExponent : Nat) (k : PublicKey) : Bool :=
  minBits ≤ 8 * k.size && bitLength k.modulus ≤ 8192 && k.modulus % 2 = 1
    && minExponent ≤ k.exponent && k.exponent % 2 = 1 && bitLength k.exponent ≤ 33

-- ============================================================ fixed bytes

/-- What stands in front of a hash, naming its function. -/
def digestHead : HashKind → Bytes
  | .sha1 => [0x30, 0x21, 0x30, 0x09, 0x06, 0x05, 0x2b, 0x0e, 0x03, 0x02, 0x1a, 0x05, 0x00,
      0x04, 0x14]
  | .sha256 => [0x30, 0x31, 0x30, 0x0d, 0x06, 0x09, 0x60, 0x86, 0x48, 0x01, 0x65, 0x03, 0x04,
      0x02, 0x01, 0x05, 0x00, 0x04, 0x20]
  | .sha384 => [0x30, 0x41, 0x30, 0x0d, 0x06, 0x09, 0x60, 0x86, 0x48, 0x01, 0x65, 0x03, 0x04,
      0x02, 0x02, 0x05, 0x00, 0x04, 0x30]
  | .sha512 => [0x30, 0x51, 0x30, 0x0d, 0x06, 0x09, 0x60, 0x86, 0x48, 0x01, 0x65, 0x03, 0x04,
      0x02, 0x03, 0x05, 0x00, 0x04, 0x40]

/-- The block that is signed for a message. -/
def block (hash : HashKind) (size : Nat) (message : Bytes) : Bytes :=
  let tail := digestHead hash ++ hash.digest message
  0 :: 1 :: List.replicate (size - 3 - tail.length) 0xFF ++ 0 :: tail

-- ============================================================ salted hash

/-- As many bytes as asked for, made from a seed by hashing it with counters. -/
def mask (hash : HashKind) (seed : Bytes) (length : Nat) : Bytes :=
  let unit := (hash.digest []).length
  ((List.range (length / unit + 1)).flatMap fun i => hash.digest (seed ++ Bytes.ofNat 4 i)).take
    length

/-- Is the block, of so many bits, a salted hash of the message? -/
def isSalted (hash : HashKind) (bits : Nat) (message block : Bytes) : Bool :=
  let digest := hash.digest message
  let unit := digest.length
  let size := (bits + 7) / 8
  let masked := block.take (size - unit - 1)
  let code := (block.drop (size - unit - 1)).take unit
  let spare := 8 * size - bits
  let clear := fun bs : Bytes =>
    Bytes.ofNat bs.length (Bytes.toNat bs % 2 ^ (8 * bs.length - spare))
  let plain := clear (Bytes.xor masked (mask hash code masked.length))
  let zeros := size - 2 * unit - 2
  if block.length ≠ size ∨ size < 2 * unit + 2 ∨ block.getLast? ≠ some 0xBC then false
  else if clear masked ≠ masked then false
  else if plain.take (zeros + 1) ≠ List.replicate zeros 0 ++ [1] then false
  else hash.digest (List.replicate 8 0 ++ digest ++ plain.drop (zeros + 1)) == code

-- ============================================================= signatures

/-- The least number of bits of a key that may sign over a hash. -/
def leastBits : HashKind → Nat
  | .sha1 => 1024
  | _ => 2048

/-- The number that a signature stands for under a public key. -/
def open? (minBits : Nat) (publicKey signature : Bytes) : Option (PublicKey × Nat) := do
  let k ← PublicKey.read? publicKey
  let s := Bytes.toNat signature
  if !k.isUsable minBits 3 || signature.length ≠ k.size || s = 0 || k.modulus ≤ s then none
  return (k, powMod s k.exponent k.modulus)

/-- Does a signature over a padded hash verify? -/
def verifyPkcs1 (hash : HashKind) (publicKey message signature : Bytes) : Bool :=
  match open? (leastBits hash) publicKey signature with
  | some (k, m) => Bytes.ofNat k.size m == block hash k.size message
  | none => false

/-- Does a signature over a salted hash verify? -/
def verifyPss (hash : HashKind) (publicKey message signature : Bytes) : Bool :=
  match open? 2048 publicKey signature with
  | some (k, m) =>
    let bits := bitLength k.modulus - 1
    let size := (bits + 7) / 8
    m < 256 ^ size && isSalted hash bits message (Bytes.ofNat size m)
  | none => false

/-- The signature over the padded SHA-256 hash of a message. -/
def sign (modulus privateExponent : Nat) (message : Bytes) : Bytes :=
  let size := Bytes.digitCount modulus
  let m := Bytes.toNat (block .sha256 size message)
  Bytes.ofNat size (powMod m privateExponent modulus)

end Enrollment.Rsa
