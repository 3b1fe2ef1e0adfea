/-
Ed25519: signatures over the curve -x² + y² = 1 + d·x²·y².

Points are kept as (X, Y, Z, T) with x = X/Z, y = Y/Z and x·y = T/Z.
-/
import Enrollment.Crypto.Modular
import Enrollment.Crypto.Scheme

namespace Enrollment.Edwards

open Crypto

/-- The prime of the field. -/
def prime : Nat := 2 ^ 255 - 19

/-- The order of the base point. -/
def order : Nat := 2 ^ 252 + 27742317777372353535851937790883648493

/-- The constant of the curve. -/
def d : Nat := subMod 0 (121665 * inverse 121666 prime) prime

/-- A square root of minus one. -/
def rootOfMinusOne : Nat := powMod 2 ((prime - 1) / 4) prime

/-- A point. -/
structure Point where
  x : Nat
  y : Nat
  z : Nat
  t : Nat

/-- The neutral point. -/
def Point.zero : Point := ⟨0, 1, 1, 0⟩

/-- The sum of two points, with twice the constant of the curve given. -/
def add (twiceD : Nat) (p q : Point) : Point :=
  let a := subMod p.y p.x prime * subMod q.y q.x prime % prime
  let b := (p.y + p.x) * (q.y + q.x) % prime
  let c := p.t * twiceD * q.t % prime
  let e := 2 * p.z * q.z % prime
  let f := subMod b a prime
  let g := subMod e c prime
  let h := e + c
  let k := b + a
  ⟨f * g % prime, h * k % prime, g * h % prime, f * k % prime⟩

/-- A multiple of a point. -/
def multiply (twiceD k : Nat) (p : Point) : Point :=
  if k = 0 then .zero
  else
    let half := multiply twiceD (k / 2) p
    let twice := add twiceD half half
    if k % 2 = 1 then add twiceD twice p else twice
termination_by k
decreasing_by omega

/-- The x coordinate with a given parity that goes with a y coordinate. -/
def recoverX? (y parity : Nat) : Option Nat :=
  let yy := y * y % prime
  let square := subMod yy 1 prime * inverse (d * yy + 1) prime % prime
  let root := powMod square ((prime + 3) / 8) prime
  let x :=
    if root * root % prime = square then some root
    else
      let other := root * rootOfMinusOne % prime
      if other * other % prime = square then some other else none
  x.map fun x => if x % 2 = parity then x else (prime - x) % prime

/-- The point that thirty-two bytes stand for; a y coordinate that is not
reduced is taken modulo the prime. -/
def point? (bytes : Bytes) : Option Point :=
  let n := Bytes.toNatLE bytes
  let y := n % 2 ^ 255 % prime
  if bytes.length ≠ 32 then none
  else (recoverX? y (n / 2 ^ 255)).map fun x => ⟨x, y, 1, x * y % prime⟩

/-- The bytes of a point. -/
def encode (p : Point) : Bytes :=
  let i := inverse p.z prime
  let x := p.x * i % prime
  let y := p.y * i % prime
  Bytes.ofNatLE 32 (y + 2 ^ 255 * (x % 2))

/-- The base point. -/
def base : Point :=
  let y := 4 * inverse 5 prime % prime
  let x := (recoverX? y 0).getD 0
  ⟨x, y, 1, x * y % prime⟩

/-- The scalar and the nonce key that a seed gives. -/
def expand (seed : Bytes) : Nat × Bytes :=
  let h := sha512 seed
  let n := Bytes.toNatLE (h.take 32)
  (n % 2 ^ 254 / 8 * 8 + 2 ^ 254, h.drop 32)

/-- The public key of a seed. -/
def publicKey (seed : Bytes) : Bytes :=
  encode (multiply (2 * d % prime) (expand seed).1 base)

/-- The signature of a message. -/
def sign (seed message : Bytes) : Bytes :=
  let (scalar, key) := expand seed
  let twiceD := 2 * d % prime
  let own := encode (multiply twiceD scalar base)
  let nonce := Bytes.toNatLE (sha512 (key ++ message)) % order
  let commitment := encode (multiply twiceD nonce base)
  let challenge := Bytes.toNatLE (sha512 (commitment ++ own ++ message)) % order
  commitment ++ Bytes.ofNatLE 32 ((nonce + challenge * scalar) % order)

/-- Does a signature of a message verify under a public key? -/
def verify (publicKey message signature : Bytes) : Bool :=
  let commitment := signature.take 32
  let response := Bytes.toNatLE (signature.drop 32)
  match point? publicKey with
  | none => false
  | some a =>
    if signature.length ≠ 64 ∨ order ≤ response then false
    else
      let twiceD := 2 * d % prime
      let challenge := Bytes.toNatLE (sha512 (commitment ++ publicKey ++ message)) % order
      let minusA : Point := ⟨(prime - a.x) % prime, a.y, 1, (prime - a.t) % prime⟩
      let sum := add twiceD (multiply twiceD response base) (multiply twiceD challenge minusA)
      encode sum == commitment

end Enrollment.Edwards
