/-
JSON strings.

The reader is a machine over the bytes after the opening quote.  Escapes give
UTF-16 units, so a high surrogate must be followed by the escape of a low one,
and what has been read is checked to be UTF-8 when the closing quote is met.
The writer escapes the quote, the backslash and the control characters, and
nothing else.
-/
import Enrollment.Json.Fault
import Enrollment.Text.Utf8

namespace Enrollment.Json

-- =============================================================== reading

/-- Where the reader stands inside a string. -/
inductive TextState where
  /-- Between characters. -/
  | plain
  /-- After a backslash. -/
  | escape
  /-- Inside a `\u` escape: digits still due, the value of those read, whether
  all of them were digits, and the high surrogate in front of the escape. -/
  | hex (due value : Nat) (sound : Bool) (high : Option Nat)
  /-- After the escape of a high surrogate. -/
  | afterHigh (high : Nat)
  /-- After the backslash that follows the escape of a high surrogate. -/
  | escapeAfterHigh (high : Nat)
  deriving Repr, DecidableEq

/-- What a byte inside a string does. -/
inductive TextStep where
  | closed
  | next (state : TextState)
  /-- A byte of the text, then the next state. -/
  | bytes (content : Bytes) (state : TextState)
  | refused (fault : Fault)
  deriving Repr, DecidableEq

/-- Is the unit the first of a pair? -/
def isHigh (n : Nat) : Bool := 0xD800 ≤ n && n ≤ 0xDBFF

/-- Is the unit the second of a pair? -/
def isLow (n : Nat) : Bool := 0xDC00 ≤ n && n ≤ 0xDFFF

/-- The step when the last digit of an escape is read. -/
def unitStep (n : Nat) : Option Nat → TextStep
  | none =>
    if isLow n then .refused .loneSurrogate
    else if isHigh n then .next (.afterHigh n)
    else .bytes (Utf8.encodeChar (Char.ofNat n)) .plain
  | some high =>
    if isLow n then
      .bytes (Utf8.encodeChar (Char.ofNat ((high - 0xD800) * 1024 + (n - 0xDC00) + 0x10000)))
        .plain
    else .refused .loneSurrogate

/-- The character that an escape of one letter stands for. -/
def shortEscape? (b : UInt8) : Option UInt8 :=
  match b.toNat with
  | 0x22 => some 0x22
  | 0x5C => some 0x5C
  | 0x2F => some 0x2F
  | 0x62 => some 0x08
  | 0x66 => some 0x0C
  | 0x6E => some 0x0A
  | 0x72 => some 0x0D
  | 0x74 => some 0x09
  | _ => none

/-- The value of a hexadecimal digit given as a byte. -/
def hexValue? (b : UInt8) : Option Nat :=
  Bytes.hexValue? (Char.ofNat b.toNat)

/-- The step at a byte. -/
def textStep (state : TextState) (b : UInt8) : TextStep :=
  match state with
  | .plain =>
    if b = 0x22 then .closed
    else if b = 0x5C then .next .escape
    else if b < 0x20 then .refused .controlCharacter
    else .bytes [b] .plain
  | .escape =>
    if b = 0x75 then .next (.hex 4 0 true none)
    else match shortEscape? b with
      | some c => .bytes [c] .plain
      | none => .refused .escape
  | .hex due value sound high =>
    let (value, sound) := match hexValue? b with
      | some d => (value * 16 + d, sound)
      | none => (value, false)
    if 1 < due then .next (.hex (due - 1) value sound high)
    else if sound then unitStep value high
    else .refused .escape
  | .afterHigh high =>
    if b = 0x5C then .next (.escapeAfterHigh high) else .refused .hexEscapeEnd
  | .escapeAfterHigh high =>
    if b = 0x75 then .next (.hex 4 0 true (some high)) else .refused .hexEscapeEnd

/-- The bytes of a string and what follows its closing quote; `acc` holds the
bytes read, last first. -/
def readBytes (state : TextState) (acc : Bytes) : Bytes → Except Fault (Bytes × Bytes)
  | [] => .error .endInString
  | b :: rest =>
    match textStep state b with
    | .closed => .ok (acc.reverse, rest)
    | .next state => readBytes state acc rest
    | .bytes content state => readBytes state (content.reverse ++ acc) rest
    | .refused fault => .error fault

/-- The text of a string and what follows its closing quote. -/
def readText (bs : Bytes) : Except Fault (String × Bytes) := do
  let (content, rest) ← readBytes .plain [] bs
  match Utf8.decode? content with
  | some text => return (text, rest)
  | none => throw .codePoint

/-- A string takes bytes off its input. -/
theorem readBytes_length {state : TextState} {acc bs content rest : Bytes}
    (h : readBytes state acc bs = .ok (content, rest)) : rest.length < bs.length := by
  induction bs generalizing state acc with
  | nil => simp [readBytes] at h
  | cons b bs ih =>
    simp only [readBytes] at h
    split at h
    · simp only [Except.ok.injEq, Prod.mk.injEq] at h
      simp [← h.2]
    · exact Nat.lt_succ_of_lt (ih h)
    · exact Nat.lt_succ_of_lt (ih h)
    · cases h

/-- A text takes bytes off its input. -/
theorem readText_length {bs rest : Bytes} {text : String} (h : readText bs = .ok (text, rest)) :
    rest.length < bs.length := by
  unfold readText at h
  cases hr : readBytes .plain [] bs with
  | error e => simp [hr, bind, Except.bind] at h
  | ok p =>
    obtain ⟨content, r⟩ := p
    simp only [hr, bind, Except.bind] at h
    split at h
    · simp only [pure, Except.pure, Except.ok.injEq, Prod.mk.injEq] at h
      exact h.2 ▸ readBytes_length hr
    · cases h

-- =============================================================== writing

/-- What stands for a character inside a string. -/
def escapeChar (c : Char) : List Char :=
  match c.toNat with
  | 0x22 => ['\\', '"']
  | 0x5C => ['\\', '\\']
  | 0x08 => ['\\', 'b']
  | 0x09 => ['\\', 't']
  | 0x0A => ['\\', 'n']
  | 0x0C => ['\\', 'f']
  | 0x0D => ['\\', 'r']
  | n =>
    if n < 0x20 then
      ['\\', 'u', '0', '0', Bytes.hexDigit (n / 16), Bytes.hexDigit (n % 16)]
    else [c]

/-- The string of a text, with its quotes. -/
def writeText (s : String) : List Char :=
  '"' :: s.toList.flatMap escapeChar ++ ['"']

end Enrollment.Json
