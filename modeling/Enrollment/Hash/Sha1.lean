/-
SHA-1, which some certificates are still signed over.
-/
import Enrollment.Hash.Sha2

namespace Enrollment.Sha1

/-- The five words that a block transforms. -/
structure State where
  a : BitVec 32
  b : BitVec 32
  c : BitVec 32
  d : BitVec 32
  e : BitVec 32

/-- The state before the first block. -/
def State.initial : State :=
  ⟨0x67452301, 0xefcdab89, 0x98badcfe, 0x10325476, 0xc3d2e1f0⟩

/-- The bitwise function and the constant of round `i`. -/
def roundRule (i : Nat) (s : State) : BitVec 32 × BitVec 32 :=
  if i < 20 then ((s.b &&& s.c) ||| (~~~s.b &&& s.d), 0x5a827999)
  else if i < 40 then (s.b ^^^ s.c ^^^ s.d, 0x6ed9eba1)
  else if i < 60 then ((s.b &&& s.c) ||| (s.b &&& s.d) ||| (s.c &&& s.d), 0x8f1bbcdc)
  else (s.b ^^^ s.c ^^^ s.d, 0xca62c1d6)

/-- Round `i` with the schedule word `x`. -/
def State.round (s : State) (i : Nat) (x : BitVec 32) : State :=
  let (f, k) := roundRule i s
  ⟨s.a.rotateLeft 5 + f + s.e + k + x, s.a, s.b.rotateLeft 30, s.c, s.d⟩

/-- The word that follows sixteen words of the schedule. -/
def nextWord : List (BitVec 32) → BitVec 32
  | [x0, _, x2, _, _, _, _, _, x8, _, _, _, _, x13, _, _] =>
    (x13 ^^^ x8 ^^^ x2 ^^^ x0).rotateLeft 1
  | _ => 0

/-- The last `left` of the eighty rounds, with the sixteen schedule words still
to be used at the front. -/
def rounds : (left : Nat) → List (BitVec 32) → State → State
  | 0, _, s => s
  | _ + 1, [], s => s
  | left + 1, x :: window, s =>
    rounds left (window ++ [nextWord (x :: window)]) (s.round (79 - left) x)

/-- The state after a block of sixteen words. -/
def State.absorb (s : State) (block : List (BitVec 32)) : State :=
  let t := rounds 80 block s
  ⟨s.a + t.a, s.b + t.b, s.c + t.c, s.d + t.d, s.e + t.e⟩

/-- The state after as many blocks as `count` says. -/
def absorbBlocks : (count : Nat) → Bytes → State → State
  | 0, _, s => s
  | count + 1, bs, s =>
    absorbBlocks count (bs.drop 64) (s.absorb (Sha2.words 32 4 16 (bs.take 64)))

end Enrollment.Sha1

namespace Enrollment

/-- SHA-1. -/
def sha1 (message : Bytes) : Bytes :=
  let padded := message ++ Sha2.padding 32 message.length
  let s := Sha1.absorbBlocks (padded.length / 64) padded .initial
  [s.a, s.b, s.c, s.d, s.e].flatMap fun x => Bytes.ofNat 4 x.toNat

end Enrollment
