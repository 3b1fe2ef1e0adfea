/-
The SHA-2 family over one parameter, the width of a word: the schedule and the
rounds are the same for 32 and for 64 bits and differ only in rotation amounts
and in how many rounds there are.

The round constants are the first bits of the fractional parts of the cube
roots of the first eighty primes, so the 32-bit ones are the upper halves of
the first sixty-four 64-bit ones, and the table is given once.
-/
import Enrollment.Bytes

namespace Enrollment.Sha2

-- ================================================================ tables

/-- The fractional parts of the cube roots of the first eighty primes. -/
def cubeRoots : List Nat := [
  0x428a2f98d728ae22, 0x7137449123ef65cd, 0xb5c0fbcfec4d3b2f, 0xe9b5dba58189dbbc,
  0x3956c25bf348b538, 0x59f111f1b605d019, 0x923f82a4af194f9b, 0xab1c5ed5da6d8118,
  0xd807aa98a3030242, 0x12835b0145706fbe, 0x243185be4ee4b28c, 0x550c7dc3d5ffb4e2,
  0x72be5d74f27b896f, 0x80deb1fe3b1696b1, 0x9bdc06a725c71235, 0xc19bf174cf692694,
  0xe49b69c19ef14ad2, 0xefbe4786384f25e3, 0x0fc19dc68b8cd5b5, 0x240ca1cc77ac9c65,
  0x2de92c6f592b0275, 0x4a7484aa6ea6e483, 0x5cb0a9dcbd41fbd4, 0x76f988da831153b5,
  0x983e5152ee66dfab, 0xa831c66d2db43210, 0xb00327c898fb213f, 0xbf597fc7beef0ee4,
  0xc6e00bf33da88fc2, 0xd5a79147930aa725, 0x06ca6351e003826f, 0x142929670a0e6e70,
  0x27b70a8546d22ffc, 0x2e1b21385c26c926, 0x4d2c6dfc5ac42aed, 0x53380d139d95b3df,
  0x650a73548baf63de, 0x766a0abb3c77b2a8, 0x81c2c92e47edaee6, 0x92722c851482353b,
  0xa2bfe8a14cf10364, 0xa81a664bbc423001, 0xc24b8b70d0f89791, 0xc76c51a30654be30,
  0xd192e819d6ef5218, 0xd69906245565a910, 0xf40e35855771202a, 0x106aa07032bbd1b8,
  0x19a4c116b8d2d0c8, 0x1e376c085141ab53, 0x2748774cdf8eeb99, 0x34b0bcb5e19b48a8,
  0x391c0cb3c5c95a63, 0x4ed8aa4ae3418acb, 0x5b9cca4f7763e373, 0x682e6ff3d6b2b8a3,
  0x748f82ee5defb2fc, 0x78a5636f43172f60, 0x84c87814a1f0ab72, 0x8cc702081a6439ec,
  0x90befffa23631e28, 0xa4506cebde82bde9, 0xbef9a3f7b2c67915, 0xc67178f2e372532b,
  0xca273eceea26619c, 0xd186b8c721c0c207, 0xeada7dd6cde0eb1e, 0xf57d4f7fee6ed178,
  0x06f067aa72176fba, 0x0a637dc5a2c898a6, 0x113f9804bef90dae, 0x1b710b35131c471b,
  0x28db77f523047d84, 0x32caab7b40c72493, 0x3c9ebe0a15c9bebc, 0x431d67c49c100d4c,
  0x4cc5d4becb3e42b6, 0x597f299cfc657e2a, 0x5fcb6fab3ad6faec, 0x6c44198c4a475817]

/-- The fractional parts of the square roots of the first sixteen primes. -/
def squareRoots : List Nat := [
  0x6a09e667f3bcc908, 0xbb67ae8584caa73b, 0x3c6ef372fe94f82b, 0xa54ff53a5f1d36f1,
  0x510e527fade682d1, 0x9b05688c2b3e6c1f, 0x1f83d9abfb41bd6b, 0x5be0cd19137e2179,
  0xcbbb9d5dc1059ed8, 0x629a292a367cd507, 0x9159015a3070dd17, 0x152fecd8f70e5939,
  0x67332667ffc00b31, 0x8eb44a8768581511, 0xdb0c2e0d64f98fa7, 0x47b5481dbefa4fa4]

/-- What distinguishes the two word widths. -/
structure Shape (w : Nat) where
  /-- The round constants, one a round. -/
  constants : List (BitVec w)
  /-- Rotations of the first word in a round. -/
  sumA : Nat × Nat × Nat
  /-- Rotations of the fifth word in a round. -/
  sumE : Nat × Nat × Nat
  /-- Two rotations and a shift of the word fifteen back in the schedule. -/
  mix15 : Nat × Nat × Nat
  /-- Two rotations and a shift of the word two back in the schedule. -/
  mix2 : Nat × Nat × Nat

/-- Words of 32 bits and 64 rounds. -/
def short : Shape 32 where
  constants := (cubeRoots.take 64).map fun k => BitVec.ofNat 32 (k >>> 32)
  sumA := (2, 13, 22)
  sumE := (6, 11, 25)
  mix15 := (7, 18, 3)
  mix2 := (17, 19, 10)

/-- Words of 64 bits and 80 rounds. -/
def long : Shape 64 where
  constants := cubeRoots.map fun k => BitVec.ofNat 64 k
  sumA := (28, 34, 39)
  sumE := (14, 18, 41)
  mix15 := (1, 8, 7)
  mix2 := (19, 61, 6)

-- ================================================================ rounds

variable {w : Nat}

/-- Three rotations, added without carry. -/
def rotations (r : Nat × Nat × Nat) (x : BitVec w) : BitVec w :=
  x.rotateRight r.1 ^^^ x.rotateRight r.2.1 ^^^ x.rotateRight r.2.2

/-- Two rotations and a shift, added without carry. -/
def mixing (r : Nat × Nat × Nat) (x : BitVec w) : BitVec w :=
  x.rotateRight r.1 ^^^ x.rotateRight r.2.1 ^^^ (x >>> r.2.2)

/-- The eight words that a block transforms. -/
structure State (w : Nat) where
  a : BitVec w
  b : BitVec w
  c : BitVec w
  d : BitVec w
  e : BitVec w
  f : BitVec w
  g : BitVec w
  h : BitVec w

/-- One round with the constant `k` and the schedule word `x`. -/
def State.round (shape : Shape w) (s : State w) (k x : BitVec w) : State w :=
  let t1 := s.h + rotations shape.sumE s.e + ((s.e &&& s.f) ^^^ (~~~s.e &&& s.g)) + k + x
  let t2 := rotations shape.sumA s.a + ((s.a &&& s.b) ^^^ (s.a &&& s.c) ^^^ (s.b &&& s.c))
  ⟨t1 + t2, s.a, s.b, s.c, s.d + t1, s.e, s.f, s.g⟩

/-- Word-wise sum of two states. -/
def State.add (s t : State w) : State w :=
  ⟨s.a + t.a, s.b + t.b, s.c + t.c, s.d + t.d, s.e + t.e, s.f + t.f, s.g + t.g, s.h + t.h⟩

/-- The words of a state in order. -/
def State.toList (s : State w) : List (BitVec w) :=
  [s.a, s.b, s.c, s.d, s.e, s.f, s.g, s.h]

/-- The word that follows sixteen words of the schedule. -/
def nextWord (shape : Shape w) : List (BitVec w) → BitVec w
  | [x0, x1, _, _, _, _, _, _, _, x9, _, _, _, _, x14, _] =>
    mixing shape.mix2 x14 + x9 + mixing shape.mix15 x1 + x0
  | _ => 0

/-- The rounds that remain, with the sixteen schedule words still to be used at
the front. -/
def rounds (shape : Shape w) : List (BitVec w) → List (BitVec w) → State w → State w
  | [], _, s => s
  | _ :: _, [], s => s
  | k :: constants, x :: window, s =>
    let upcoming := nextWord shape (x :: window)
    rounds shape constants (window ++ [upcoming]) (s.round shape k x)

/-- The state after a block of sixteen words. -/
def State.absorb (shape : Shape w) (s : State w) (block : List (BitVec w)) : State w :=
  s.add (rounds shape shape.constants block s)

-- =============================================================== padding

/-- Bytes of a block. -/
def blockSize (w : Nat) : Nat :=
  2 * w

/-- What follows a message of `size` bytes: a one bit, zeros, and the number of
its bits, to a whole number of blocks. -/
def padding (w size : Nat) : Bytes :=
  let tail := w / 4
  let block := blockSize w
  let zeros := (block - (size + 1 + tail) % block) % block
  0x80 :: List.replicate zeros 0 ++ Bytes.ofNat tail (8 * size)

/-- The words of a string of bytes, `k` bytes a word; a rest that fills no word
is left out. -/
def words (w k : Nat) : (count : Nat) → Bytes → List (BitVec w)
  | 0, _ => []
  | count + 1, bs => BitVec.ofNat w (Bytes.toNat (bs.take k)) :: words w k count (bs.drop k)

/-- The state after as many blocks as `count` says. -/
def absorbBlocks (shape : Shape w) : (count : Nat) → Bytes → State w → State w
  | 0, _, s => s
  | count + 1, bs, s =>
    let block := bs.take (blockSize w)
    absorbBlocks shape count (bs.drop (blockSize w)) (s.absorb shape (words w (w / 8) 16 block))

/-- The state after a whole message. -/
def run (shape : Shape w) (initial : State w) (message : Bytes) : State w :=
  let padded := message ++ padding w message.length
  absorbBlocks shape (padded.length / blockSize w) padded initial

/-- The bytes of a state. -/
def State.bytes (s : State w) : Bytes :=
  s.toList.flatMap fun x => Bytes.ofNat (w / 8) x.toNat

/-- The state whose words are the first eight of a list. -/
def State.ofList : List Nat → State w
  | [a, b, c, d, e, f, g, h] =>
    ⟨.ofNat w a, .ofNat w b, .ofNat w c, .ofNat w d, .ofNat w e, .ofNat w f, .ofNat w g,
      .ofNat w h⟩
  | _ => ⟨0, 0, 0, 0, 0, 0, 0, 0⟩

end Enrollment.Sha2

namespace Enrollment

/-- SHA-256. -/
def sha256 (message : Bytes) : Bytes :=
  (Sha2.run Sha2.short (.ofList ((Sha2.squareRoots.take 8).map (· >>> 32))) message).bytes

/-- SHA-512. -/
def sha512 (message : Bytes) : Bytes :=
  (Sha2.run Sha2.long (.ofList (Sha2.squareRoots.take 8)) message).bytes

/-- SHA-384: the first 48 bytes of the same rounds from another start. -/
def sha384 (message : Bytes) : Bytes :=
  (Sha2.run Sha2.long (.ofList (Sha2.squareRoots.drop 8)) message).bytes.take 48

end Enrollment
