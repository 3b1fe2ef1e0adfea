/-
ECDSA over the curves y² = x³ - 3x + b.

Points are kept in Jacobian coordinates, where (X, Y, Z) stands for the point
(X/Z², Y/Z³) and Z = 0 for the point at infinity, so that only the last step of
a multiplication divides.
-/
import Enrollment.Crypto.Modular
import Enrollment.Crypto.Scheme

namespace Enrollment.Weierstrass

open Crypto

/-- The numbers that define a curve with its base point. -/
structure Params where
  /-- Bytes of a coordinate and of a scalar. -/
  size : Nat
  prime : Nat
  b : Nat
  order : Nat
  baseX : Nat
  baseY : Nat

/-- The curve P-256. -/
def p256 : Params where
  size := 32
  prime := 0xffffffff00000001000000000000000000000000ffffffffffffffffffffffff
  b := 0x5ac635d8aa3a93e7b3ebbd55769886bc651d06b0cc53b0f63bce3c3e27d2604b
  order := 0xffffffff00000000ffffffffffffffffbce6faada7179e84f3b9cac2fc632551
  baseX := 0x6b17d1f2e12c4247f8bce6e563a440f277037d812deb33a0f4a13945d898c296
  baseY := 0x4fe342e2fe1a7f9b8ee7eb4a7c0f9e162bce33576b315ececbb6406837bf51f5

/-- The curve P-384. -/
def p384 : Params where
  size := 48
  prime :=
    0xfffffffffffffffffffffffffffffffffffffffffffffffffffffffffffffffeffffffff0000000000000000ffffffff
  b :=
    0xb3312fa7e23ee7e4988e056be3f82d19181d9c6efe8141120314088f5013875ac656398d8a2ed19d2a85c8edd3ec2aef
  order :=
    0xffffffffffffffffffffffffffffffffffffffffffffffffc7634d81f4372ddf581a0db248b0a77aecec196accc52973
  baseX :=
    0xaa87ca22be8b05378eb1c71ef320ad746e1d3b628ba79b9859f741e082542a385502f25dbf55296c3a545e3872760ab7
  baseY :=
    0x3617de4a96262c6f5d9e98bf9292dc29f8f41dbd289a147ce9da3113b5f0b8c00a60b1ce1d7e819d7a431d7c90ea0e5f

/-- The numbers of a curve. -/
def params : Curve → Params
  | .p256 => p256
  | .p384 => p384

/-- A point in Jacobian coordinates. -/
structure Point where
  x : Nat
  y : Nat
  z : Nat

/-- The point at infinity. -/
def Point.infinity : Point := ⟨1, 1, 0⟩

/-- Twice a point. -/
def double (c : Params) (a : Point) : Point :=
  let p := c.prime
  if a.z = 0 ∨ a.y = 0 then .infinity
  else
    let zz := a.z * a.z % p
    let yy := a.y * a.y % p
    let s := 4 * a.x * yy % p
    let m := 3 * (subMod a.x zz p) * (a.x + zz) % p
    let x := subMod (m * m) (2 * s) p
    let y := subMod (m * subMod s x p) (8 * yy * yy) p
    ⟨x, y, 2 * a.y * a.z % p⟩

/-- The sum of two points. -/
def add (c : Params) (a b : Point) : Point :=
  let p := c.prime
  if a.z = 0 then b
  else if b.z = 0 then a
  else
    let za := a.z * a.z % p
    let zb := b.z * b.z % p
    let ua := a.x * zb % p
    let ub := b.x * za % p
    let sa := a.y * zb * b.z % p
    let sb := b.y * za * a.z % p
    if ua = ub then
      if sa = sb then double c a else .infinity
    else
      let h := subMod ub ua p
      let r := subMod sb sa p
      let hh := h * h % p
      let hhh := h * hh % p
      let v := ua * hh % p
      let x := subMod (r * r) (hhh + 2 * v) p
      let y := subMod (r * subMod v x p) (sa * hhh) p
      ⟨x, y, h * a.z * b.z % p⟩

/-- A multiple of a point. -/
def multiply (c : Params) (k : Nat) (a : Point) : Point :=
  if k = 0 then .infinity
  else
    let twice := double c (multiply c (k / 2) a)
    if k % 2 = 1 then add c twice a else twice
termination_by k
decreasing_by omega

/-- The coordinates of a point that is not at infinity. -/
def coordinates (c : Params) (a : Point) : Nat × Nat :=
  let i := inverse a.z c.prime
  let ii := i * i % c.prime
  (a.x * ii % c.prime, a.y * ii * i % c.prime)

/-- The base point. -/
def base (c : Params) : Point := ⟨c.baseX, c.baseY, 1⟩

/-- Do the coordinates lie on the curve? -/
def isOn (c : Params) (x y : Nat) : Bool :=
  x < c.prime && y < c.prime && y * y % c.prime == (x * x * x + (c.prime - 3) * x + c.b) % c.prime

/-- The uncompressed form of the public key of a scalar. -/
def publicKey (c : Params) (scalar : Nat) : Bytes :=
  let (x, y) := coordinates c (multiply c scalar (base c))
  4 :: Bytes.ofNat c.size x ++ Bytes.ofNat c.size y

/-- The point that an uncompressed form stands for. -/
def point? (c : Params) (bytes : Bytes) : Option Point :=
  match bytes with
  | 4 :: rest =>
    let x := Bytes.toNat (rest.take c.size)
    let y := Bytes.toNat (rest.drop c.size)
    if rest.length = 2 * c.size ∧ isOn c x y then some ⟨x, y, 1⟩ else none
  | _ => none

/-- The leading bits of a digest, as many as the order has. -/
def digestNumber (c : Params) (digest : Bytes) : Nat :=
  Bytes.toNat (digest.take c.size)

/-- Do two numbers sign a digest under a public key? -/
def verify (c : Params) (publicKey digest : Bytes) (r s : Nat) : Bool :=
  match point? c publicKey with
  | none => false
  | some q =>
    let n := c.order
    if r = 0 ∨ n ≤ r ∨ s = 0 ∨ n ≤ s then false
    else
      let w := inverse s n
      let u := digestNumber c digest * w % n
      let v := r * w % n
      let sum := add c (multiply c u (base c)) (multiply c v q)
      if sum.z = 0 then false else (coordinates c sum).1 % n == r

/-- The two numbers that sign a digest, made with a given nonce. -/
def signWith (c : Params) (scalar nonce : Nat) (digest : Bytes) : Nat × Nat :=
  let n := c.order
  let r := (coordinates c (multiply c nonce (base c))).1 % n
  (r, inverse nonce n * (digestNumber c digest + r * scalar) % n)

/-- The two numbers that sign a digest; the nonce is drawn from the scalar and
the digest. -/
def sign (c : Params) (scalar : Nat) (digest : Bytes) : Nat × Nat :=
  let seed := sha512 (Bytes.ofNat c.size scalar ++ digest)
  signWith c scalar (1 + Bytes.toNat seed % (c.order - 1)) digest

end Enrollment.Weierstrass
