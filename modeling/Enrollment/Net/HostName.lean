/-
Which texts can name a server: host names made of labels, and addresses.

A label has at most 63 letters, digits, hyphens and underscores and neither
begins nor ends with a hyphen, and the last label is not all digits, so that
no address is taken for a name.  A name may end with a point.
-/
import Enrollment.Net.Address
import Enrollment.Text.Utf8

namespace Enrollment.Net.HostName

/-- Where a reader stands inside a name. -/
inductive State where
  | start
  /-- After a point; did the label before it hold digits only? -/
  | point (numeric : Bool)
  /-- Inside a label that holds digits only so far. -/
  | digits (length : Nat)
  /-- Inside a label, not after a hyphen. -/
  | label (length : Nat)
  /-- Inside a label, after a hyphen. -/
  | hyphen (length : Nat)
  deriving Repr, DecidableEq

/-- The greatest length of a label. -/
def maxLabel : Nat := 63

/-- The greatest length of a name. -/
def maxName : Nat := 253

/-- Is the character a letter or an underscore? -/
def isLetter (c : Char) : Bool :=
  Text.isAsciiLetter c || c == '_'

/-- A character that is not the first of its label. -/
def within (length : Nat) (numeric : Bool) (c : Char) : Option State :=
  if maxLabel ≤ length then none
  else if c = '-' then some (.hyphen (length + 1))
  else if Text.isAsciiDigit c && numeric then some (.digits (length + 1))
  else if isLetter c || Text.isAsciiDigit c then some (.label (length + 1))
  else none

/-- The first character of a label. -/
def begin (c : Char) : Option State :=
  if Text.isAsciiDigit c then some (.digits 1)
  else if isLetter c then some (.label 1)
  else none

/-- The step at a character. -/
def step (state : State) (c : Char) : Option State :=
  match state with
  | .start => begin c
  | .point _ => begin c
  | .digits length => if c = '.' then some (.point true) else within length true c
  | .label length => if c = '.' then some (.point false) else within length false c
  | .hyphen length => within length false c

/-- Can a name end here? -/
def State.isEnd : State → Bool
  | .point numeric => !numeric
  | .label _ => true
  | _ => false

/-- Is the text a host name? -/
def isName (text : String) : Bool :=
  if maxName < Utf8.size text then false
  else match text.toList.foldlM step .start with
    | some state => state.isEnd
    | none => false

/-- Can the text name a server? -/
def isServer (text : String) : Bool :=
  isName text || (Address.parse text).isSome

end Enrollment.Net.HostName
