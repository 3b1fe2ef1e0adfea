/-
Base64 with the standard alphabet, padded and canonical: every byte string has
one spelling, and the reader accepts no other.

The reader works from the left in groups of four symbols.  All groups but the
last must be full; in the last one padding may stand for the third and fourth
symbol, and the bits that no byte uses must be zero.
-/
import Enrollment.Bytes
import Enrollment.Text.Blank

namespace Enrollment.Base64

/-- Why a text is not canonical base64. -/
inductive Fault where
  /-- A byte that is no symbol, or padding where a symbol is due. -/
  | symbol (byte : UInt8) (offset : Nat)
  /-- The last symbol has bits that no byte uses. -/
  | lastSymbol (byte : UInt8) (offset : Nat)
  /-- A single symbol is left over. -/
  | length (count : Nat)
  /-- The last group is not filled up by padding. -/
  | padding
  deriving Repr, DecidableEq

/-- The wording of a fault. -/
def Fault.message : Fault → String
  | .symbol byte offset =>
    "Invalid symbol " ++ Text.decimal byte.toNat ++ ", offset " ++ Text.decimal offset ++ "."
  | .lastSymbol byte offset =>
    "Invalid last symbol " ++ Text.decimal byte.toNat ++ ", offset " ++ Text.decimal offset ++ "."
  | .length count => "Invalid input length: " ++ Text.decimal count
  | .padding => "Invalid padding"

-- =============================================================== symbols

/-- The symbol of a value below sixty-four. -/
def symbol (n : Nat) : Char :=
  if n < 26 then Char.ofNat (65 + n)
  else if n < 52 then Char.ofNat (71 + n)
  else if n < 62 then Char.ofNat (n - 4)
  else if n = 62 then '+'
  else '/'

/-- The value of a symbol. -/
def value? (b : UInt8) : Option Nat :=
  let n := b.toNat
  if 65 ≤ n ∧ n ≤ 90 then some (n - 65)
  else if 97 ≤ n ∧ n ≤ 122 then some (n - 71)
  else if 48 ≤ n ∧ n ≤ 57 then some (n + 4)
  else if n = 43 then some 62
  else if n = 47 then some 63
  else none

/-- The padding character as a byte. -/
def pad : UInt8 := 61

-- =============================================================== writing

/-- The symbols of three bytes. -/
def group (a b c : UInt8) : List Char :=
  let n := a.toNat * 65536 + b.toNat * 256 + c.toNat
  [symbol (n / 262144), symbol (n / 4096 % 64), symbol (n / 64 % 64), symbol (n % 64)]

/-- Writes groups of three bytes, holding the symbols written in reverse. -/
def encodeOnto (acc : List Char) : Bytes → List Char
  | a :: b :: c :: rest => encodeOnto ((group a b c).reverse ++ acc) rest
  | [a, b] => acc.reverse ++ (group a b 0).take 3 ++ ['=']
  | [a] => acc.reverse ++ (group a 0 0).take 2 ++ ['=', '=']
  | [] => acc.reverse

/-- The one spelling of a byte string. -/
def encode (bs : Bytes) : List Char :=
  encodeOnto [] bs

-- =============================================================== reading

/-- The value of a symbol at an offset. -/
def valueAt (offset : Nat) (b : UInt8) : Except Fault Nat :=
  match value? b with
  | some n => .ok n
  | none => .error (.symbol b offset)

/-- The three bytes of a full group. -/
def fullGroup (offset : Nat) (a b c d : UInt8) : Except Fault Bytes := do
  let p ← valueAt offset a
  let q ← valueAt (offset + 1) b
  let r ← valueAt (offset + 2) c
  let s ← valueAt (offset + 3) d
  return Bytes.ofNat 3 (p * 262144 + q * 4096 + r * 64 + s)

/-- The last group as its symbols and the number of padding characters after
them; `at?` is the offset of the first padding character. -/
def splitLast (start : Nat) :
    (index : Nat) → (symbols : List (UInt8 × Nat)) → (pads : Nat) → (at? : Nat) → Bytes →
      Except Fault (List (UInt8 × Nat) × Nat)
  | _, symbols, pads, _, [] => .ok (symbols.reverse, pads)
  | index, symbols, pads, at?, b :: rest =>
    if b = pad then
      if index < 2 then .error (.symbol b (start + index))
      else splitLast start (index + 1) symbols (pads + 1) (if pads = 0 then index else at?) rest
    else if 0 < pads then .error (.symbol pad (start + at?))
    else do
      let n ← valueAt (start + index) b
      splitLast start (index + 1) ((b, n) :: symbols) pads at? rest

/-- The bytes of the last group, which starts at an offset. -/
def lastGroup (start : Nat) (group : Bytes) : Except Fault Bytes := do
  let (symbols, pads) ← splitLast start 0 [] 0 0 group
  let count := symbols.length
  let bits : Nat := symbols.foldl (fun n s => n * 64 + s.2) 0
  let unused : Nat := count * 6 % 8
  if count < 2 then throw (.length (start + count))
  if (pads + count) % 4 ≠ 0 then throw .padding
  if bits % 2 ^ unused ≠ 0 then
    throw (.lastSymbol ((symbols.getLast?.map (·.1)).getD pad) (start + count - 1))
  return Bytes.ofNat (count * 6 / 8) (bits / 2 ^ unused)

/-- Reads groups of four symbols from an offset on, holding the bytes read in
reverse. -/
def decodeOnto (acc : Bytes) (offset : Nat) : Bytes → Except Fault Bytes
  | a :: b :: c :: d :: e :: rest => do
    let bytes ← fullGroup offset a b c d
    decodeOnto (bytes.reverse ++ acc) (offset + 4) (e :: rest)
  | group => do
    let bytes ← lastGroup offset group
    return acc.reverse ++ bytes

/-- A text that is one byte too long is refused at once when that byte is
neither a symbol nor padding, such as a line feed at its end. -/
def trailing? (text : Bytes) : Option Fault :=
  if text.length % 4 = 1 then
    match text.getLast? with
    | some b => if b ≠ pad ∧ (value? b).isNone then some (.symbol b (text.length - 1)) else none
    | none => none
  else none

/-- The byte string that a text spells. -/
def decode (text : Bytes) : Except Fault Bytes :=
  if text.isEmpty then .ok []
  else match trailing? text with
    | some fault => .error fault
    | none => decodeOnto [] 0 text

end Enrollment.Base64
