/-
UTF-8: characters to bytes, and bytes back to characters one byte at a time.

The reader is a machine that holds, between the bytes of a character, how
many continuation bytes are owed, the range the next one must lie in, and the
bits seen so far.  The narrowed ranges after `E0`, `ED`, `F0` and `F4` are
what keeps overlong forms, surrogates and values above `10FFFF` out.

`decode?` refuses a text with a byte the machine refuses; `decodeLossy`
replaces each maximal run that starts a character and does not finish it by
U+FFFD.
-/
import Enrollment.Bytes

namespace Enrollment.Utf8

/-- The encoding of one character. -/
def encodeChar (c : Char) : Bytes :=
  let n := c.toNat
  if n < 0x80 then [UInt8.ofNat n]
  else if n < 0x800 then
    [UInt8.ofNat (0xC0 + n / 64), UInt8.ofNat (0x80 + n % 64)]
  else if n < 0x10000 then
    [UInt8.ofNat (0xE0 + n / 4096), UInt8.ofNat (0x80 + n / 64 % 64),
      UInt8.ofNat (0x80 + n % 64)]
  else
    [UInt8.ofNat (0xF0 + n / 262144), UInt8.ofNat (0x80 + n / 4096 % 64),
      UInt8.ofNat (0x80 + n / 64 % 64), UInt8.ofNat (0x80 + n % 64)]

/-- The encoding of a sequence of characters. -/
def encodeChars (cs : List Char) : Bytes :=
  cs.flatMap encodeChar

/-- The encoding of a text. -/
def encode (s : String) : Bytes :=
  encodeChars s.toList

/-- The number of bytes of a text. -/
def size (s : String) : Nat :=
  (encode s).length

-- ================================================================ reader

/-- A character of which some bytes are still owed. -/
structure Pending where
  /-- Continuation bytes still to come, less one. -/
  more : Nat
  /-- The least value the next byte may have. -/
  low : Nat
  /-- The greatest value the next byte may have. -/
  high : Nat
  /-- The bits of the character read so far. -/
  value : Nat
  deriving Repr, DecidableEq

/-- What one byte does to the machine. -/
inductive Step where
  /-- A character is complete. -/
  | char (c : Char)
  /-- More bytes are owed. -/
  | pending (p : Pending)
  /-- No character has this byte here. -/
  | refused
  deriving Repr, DecidableEq

/-- The step at the first byte of a character. -/
def first (b : UInt8) : Step :=
  let n := b.toNat
  if n < 0x80 then .char (Char.ofNat n)
  else if n < 0xC2 then .refused
  else if n < 0xE0 then .pending ⟨0, 0x80, 0xBF, n - 0xC0⟩
  else if n = 0xE0 then .pending ⟨1, 0xA0, 0xBF, 0⟩
  else if n = 0xED then .pending ⟨1, 0x80, 0x9F, 0xD⟩
  else if n < 0xF0 then .pending ⟨1, 0x80, 0xBF, n - 0xE0⟩
  else if n = 0xF0 then .pending ⟨2, 0x90, 0xBF, 0⟩
  else if n < 0xF4 then .pending ⟨2, 0x80, 0xBF, n - 0xF0⟩
  else if n = 0xF4 then .pending ⟨2, 0x80, 0x8F, 4⟩
  else .refused

/-- The step at a continuation byte. -/
def next (p : Pending) (b : UInt8) : Step :=
  let n := b.toNat
  if p.low ≤ n ∧ n ≤ p.high then
    let value := p.value * 64 + n % 64
    match p.more with
    | 0 => .char (Char.ofNat value)
    | more + 1 => .pending ⟨more, 0x80, 0xBF, value⟩
  else .refused

/-- The characters of a byte string, or none when it is not UTF-8; `acc` holds
the characters already read, last first. -/
def decodeOnto (acc : List Char) : Option Pending → Bytes → Option (List Char)
  | none, [] => some acc.reverse
  | some _, [] => none
  | state, b :: rest =>
    match (match state with | none => first b | some p => next p b) with
    | .char c => decodeOnto (c :: acc) none rest
    | .pending p => decodeOnto acc (some p) rest
    | .refused => none

/-- The characters of a byte string, or none when it is not UTF-8. -/
def decodeChars? (bs : Bytes) : Option (List Char) :=
  decodeOnto [] none bs

/-- The text of a byte string, or none when it is not UTF-8. -/
def decode? (bs : Bytes) : Option String :=
  (decodeChars? bs).map String.ofList

/-- The replacement character. -/
def replacement : Char := Char.ofNat 0xFFFD

/-- The characters of a byte string, with U+FFFD for what is not UTF-8; `acc`
holds the characters already read, last first. -/
def decodeLossyOnto (acc : List Char) : Option Pending → Bytes → List Char
  | none, [] => acc.reverse
  | some _, [] => (replacement :: acc).reverse
  | none, b :: rest =>
    match first b with
    | .char c => decodeLossyOnto (c :: acc) none rest
    | .pending p => decodeLossyOnto acc (some p) rest
    | .refused => decodeLossyOnto (replacement :: acc) none rest
  | some p, b :: rest =>
    match next p b with
    | .char c => decodeLossyOnto (c :: acc) none rest
    | .pending p => decodeLossyOnto acc (some p) rest
    | .refused =>
      match first b with
      | .char c => decodeLossyOnto (c :: replacement :: acc) none rest
      | .pending p => decodeLossyOnto (replacement :: acc) (some p) rest
      | .refused => decodeLossyOnto (replacement :: replacement :: acc) none rest

/-- The text of a byte string, with U+FFFD for what is not UTF-8. -/
def decodeLossy (bs : Bytes) : String :=
  String.ofList (decodeLossyOnto [] none bs)

end Enrollment.Utf8
