/-
Passing over a JSON value of any kind.

A member that the reader does not know still has to be a JSON value, but
nothing of it is kept, so a machine with a stack of open lists and objects is
enough and no nesting is too deep.  Strings are only looked at for their end:
they need not be UTF-8 and surrogates need no partner.
-/
import Enrollment.Json.Number
import Enrollment.Json.Text

namespace Enrollment.Json

/-- Is the byte white space of JSON? -/
def isGap (b : UInt8) : Bool :=
  b == 0x20 || b == 0x0A || b == 0x09 || b == 0x0D

/-- A list or an object that is still open. -/
inductive Frame where
  | list
  | object
  deriving Repr, DecidableEq

/-- The byte that closes a frame. -/
def Frame.close : Frame → UInt8
  | .list => 0x5D
  | .object => 0x7D

/-- The fault when the input ends inside a frame. -/
def Frame.atEnd : Frame → Fault
  | .list => .endInList
  | .object => .endInObject

/-- The fault when neither a comma nor the close follows a value. -/
def Frame.unclosed : Frame → Fault
  | .list => .expectedListEnd
  | .object => .expectedObjectEnd

/-- Where the machine stands. -/
inductive SkipState where
  /-- A value is due. -/
  | value
  /-- The innermost frame has just been opened. -/
  | opened
  /-- A value has ended. -/
  | after
  /-- A key is due. -/
  | key
  /-- A colon is due. -/
  | colon
  /-- Inside a string, which is a key or a value. -/
  | text (isKey : Bool)
  /-- After a backslash. -/
  | escape (isKey : Bool)
  /-- Inside a `\u` escape: digits still due, and were all of them digits? -/
  | hex (isKey : Bool) (due : Nat) (sound : Bool)
  /-- Inside one of the three words. -/
  | word (rest : Bytes)
  /-- After a minus sign. -/
  | minus
  /-- After a zero that begins a number. -/
  | zero
  /-- Inside the whole part of a number. -/
  | whole
  /-- After a decimal point. -/
  | point
  /-- Inside a fraction. -/
  | fraction
  /-- After the mark of an exponent. -/
  | mark
  /-- After the sign of an exponent. -/
  | sign
  /-- Inside an exponent. -/
  | exponent
  deriving Repr, DecidableEq

/-- What a byte does. -/
inductive SkipStep where
  /-- The value ended before this byte. -/
  | ended
  | next (state : SkipState) (stack : List Frame)
  | refused (fault : Fault)
  deriving Repr, DecidableEq

/-- The step where a value is due. -/
def valueStep (stack : List Frame) (b : UInt8) : SkipStep :=
  if isGap b then .next .value stack
  else if b = 0x22 then .next (.text false) stack
  else if b = 0x5B then .next .opened (.list :: stack)
  else if b = 0x7B then .next .opened (.object :: stack)
  else if b = 0x6E then .next (.word (Bytes.ofAscii "ull")) stack
  else if b = 0x74 then .next (.word (Bytes.ofAscii "rue")) stack
  else if b = 0x66 then .next (.word (Bytes.ofAscii "alse")) stack
  else if b = 0x2D then .next .minus stack
  else if b = 0x30 then .next .zero stack
  else if isDigit b then .next .whole stack
  else .refused .expectedValue

/-- The step where a value has ended. -/
def afterStep (stack : List Frame) (b : UInt8) : SkipStep :=
  match stack with
  | [] => .ended
  | frame :: outer =>
    if isGap b then .next .after stack
    else if b = 0x2C then
      .next (match frame with | .list => .value | .object => .key) stack
    else if b = frame.close then .next .after outer
    else .refused frame.unclosed

/-- The step where a key is due. -/
def keyStep (state : SkipState) (stack : List Frame) (b : UInt8) : SkipStep :=
  if isGap b then .next state stack
  else if b = 0x22 then .next (.text true) stack
  else .refused .keyNotString

/-- The step right after a frame was opened. -/
def openedStep (stack : List Frame) (b : UInt8) : SkipStep :=
  match stack with
  | [] => .ended
  | frame :: outer =>
    if isGap b then .next .opened stack
    else if b = frame.close then .next .after outer
    else match frame with
      | .list => valueStep stack b
      | .object => keyStep .opened stack b

/-- The step after the whole part of a number. -/
def wholeEndStep (stack : List Frame) (b : UInt8) : SkipStep :=
  if b = 0x2E then .next .point stack
  else if b = 0x65 ∨ b = 0x45 then .next .mark stack
  else afterStep stack b

/-- The step at a byte. -/
def skipStep (state : SkipState) (stack : List Frame) (b : UInt8) : SkipStep :=
  match state with
  | .value => valueStep stack b
  | .opened => openedStep stack b
  | .after => afterStep stack b
  | .key => keyStep .key stack b
  | .colon =>
    if isGap b then .next .colon stack
    else if b = 0x3A then .next .value stack
    else .refused .expectedColon
  | .text isKey =>
    if b = 0x22 then .next (if isKey then .colon else .after) stack
    else if b = 0x5C then .next (.escape isKey) stack
    else if b < 0x20 then .refused .controlCharacter
    else .next (.text isKey) stack
  | .escape isKey =>
    if b = 0x75 then .next (.hex isKey 4 true) stack
    else if (shortEscape? b).isSome then .next (.text isKey) stack
    else .refused .escape
  | .hex isKey due sound =>
    let sound := sound && (hexValue? b).isSome
    if 1 < due then .next (.hex isKey (due - 1) sound) stack
    else if sound then .next (.text isKey) stack
    else .refused .escape
  | .word rest =>
    match rest with
    | [] => afterStep stack b
    | [c] => if b = c then .next .after stack else .refused .expectedWord
    | c :: rest => if b = c then .next (.word rest) stack else .refused .expectedWord
  | .minus =>
    if b = 0x30 then .next .zero stack
    else if isDigit b then .next .whole stack
    else .refused .number
  | .zero => if isDigit b then .refused .number else wholeEndStep stack b
  | .whole => if isDigit b then .next .whole stack else wholeEndStep stack b
  | .point => if isDigit b then .next .fraction stack else .refused .number
  | .fraction =>
    if isDigit b then .next .fraction stack
    else if b = 0x65 ∨ b = 0x45 then .next .mark stack
    else afterStep stack b
  | .mark =>
    if b = 0x2B ∨ b = 0x2D then .next .sign stack
    else if isDigit b then .next .exponent stack
    else .refused .number
  | .sign => if isDigit b then .next .exponent stack else .refused .number
  | .exponent => if isDigit b then .next .exponent stack else afterStep stack b

/-- The fault when the input ends where a value may have ended. -/
def afterEnd : List Frame → Except Fault Bytes
  | [] => .ok []
  | frame :: _ => .error frame.atEnd

/-- What the end of the input means. -/
def skipEnd (state : SkipState) (stack : List Frame) : Except Fault Bytes :=
  match state with
  | .value => .error .endInValue
  | .opened | .after => afterEnd stack
  | .key | .colon => .error .endInObject
  | .text _ | .escape _ | .hex _ _ _ => .error .endInString
  | .word [] => afterEnd stack
  | .word _ => .error .endInValue
  | .minus | .point | .mark | .sign => .error .number
  | .zero | .whole | .fraction | .exponent => afterEnd stack

/-- What follows a value, from any point inside it. -/
def skipFrom (state : SkipState) (stack : List Frame) : Bytes → Except Fault Bytes
  | [] => skipEnd state stack
  | b :: rest =>
    match skipStep state stack b with
    | .ended => .ok (b :: rest)
    | .next state stack => skipFrom state stack rest
    | .refused fault => .error fault

/-- What follows the value that the input starts with. -/
def skipValue (bs : Bytes) : Except Fault Bytes :=
  skipFrom .value [] bs

theorem skipFrom_length {state : SkipState} {stack : List Frame} {bs rest : Bytes}
    (h : skipFrom state stack bs = .ok rest) : rest.length ≤ bs.length := by
  induction bs generalizing state stack with
  | nil =>
    have : rest = [] := by
      unfold skipFrom skipEnd at h
      split at h <;> first | cases h | (unfold afterEnd at h; split at h <;> cases h; rfl)
    simp [this]
  | cons b bs ih =>
    simp only [skipFrom] at h
    split at h
    · cases h; exact Nat.le_refl _
    · exact Nat.le_succ_of_le (ih h)
    · cases h

end Enrollment.Json
