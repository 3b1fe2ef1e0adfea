/-
PEM: a tagged block of base64 between two marker lines.

Reading finds the first place where the opening marker is matched.  A
character that breaks off a match is skipped together with what was matched,
so a sixth dash in front of a marker hides it.  Text before the first blank
line inside a block is a list of header lines, which are checked and dropped.
-/
import Enrollment.Base64
import Enrollment.Text.Utf8

namespace Enrollment

/-- A block: its tag and what its base64 text spells. -/
structure Pem where
  tag : String
  contents : Bytes
  deriving Repr, DecidableEq

namespace Pem

/-- Why a text does not give a block. -/
inductive Fault where
  /-- No opening and closing marker follow each other. -/
  | framing
  /-- The opening marker has an empty tag. -/
  | beginTag
  /-- The closing marker has an empty tag. -/
  | endTag
  /-- The two tags differ. -/
  | mismatch (opening closing : String)
  /-- What stands between the markers is not base64. -/
  | data (fault : Base64.Fault)
  /-- A header line has no colon. -/
  | header (line : String)
  deriving Repr, DecidableEq

/-- The wording of a fault. -/
def Fault.message : Fault → String
  | .framing => "malformedframing"
  | .beginTag => "missing BEGIN tag"
  | .endTag => "missing END tag"
  | .mismatch opening closing =>
    "mismatching BEGIN (\"" ++ opening ++ "\") and END (\"" ++ closing ++ "\") tags"
  | .data fault => "invalid data: " ++ fault.message
  | .header line => "invalid header: " ++ line

-- =============================================================== framing

/-- Reads on until the marker is matched; `owed` is what is left of it, and
`acc` holds the characters read, last first. -/
def splitOnto (marker : List Char) :
    (owed acc : List Char) → List Char → Option (List Char × List Char)
  | [], acc, rest => some ((acc.drop marker.length).reverse, rest)
  | _ :: _, _, [] => none
  | m :: owed, acc, c :: rest =>
    if c = m then splitOnto marker owed (c :: acc) rest
    else splitOnto marker marker (c :: acc) rest

/-- What stands before the first match of a marker and what stands after it. -/
def splitAt? (marker text : List Char) : Option (List Char × List Char) :=
  splitOnto marker marker [] text

/-- The opening marker up to its tag. -/
def beginMarker : List Char := "-----BEGIN ".toList

/-- The closing marker up to its tag. -/
def endMarker : List Char := "-----END ".toList

/-- What closes a tag. -/
def dashes : List Char := "-----".toList

/-- Is the character skipped after a marker? -/
def isGap (c : Char) : Bool :=
  c == ' ' || c == '\t' || c == '\n' || c == '\r'

/-- The parts of a block as they stand in a text. -/
structure Frame where
  opening : List Char
  body : List Char
  closing : List Char
  deriving Repr, DecidableEq

/-- The first block of a text, and the text after it. -/
def frame? (text : List Char) : Option (Frame × List Char) := do
  let (_, text) ← splitAt? beginMarker text
  let (opening, text) ← splitAt? dashes text
  let (body, text) ← splitAt? endMarker (text.dropWhile isGap)
  let (closing, text) ← splitAt? dashes text
  return (⟨opening, body, closing⟩, text.dropWhile isGap)

-- =============================================================== contents

/-- The lines of a text, each without the line feed or the carriage return and
line feed that end it. -/
def lines (text : List Char) : List (List Char) :=
  go [] text
where
  /-- Reads lines, holding the characters of the current one in reverse. -/
  go (acc : List Char) : List Char → List (List Char)
    | [] => if acc.isEmpty then [] else [acc.reverse]
    | c :: rest =>
      if c = '\n' then
        (match acc with
          | '\r' :: acc => acc.reverse
          | _ => acc.reverse) :: go [] rest
      else go (c :: acc) rest

/-- The header part and the data part of a body: they are divided by the first
blank line, with bare line feeds tried before the other line end. -/
def divide (body : List Char) : List Char × List Char :=
  match splitAt? ['\n', '\n'] body with
  | some (headers, data) => (headers, data)
  | none =>
    match splitAt? ['\r', '\n', '\r', '\n'] body with
    | some (headers, data) => (headers, data)
    | none => ([], body)

/-- The block that a frame holds. -/
def ofFrame (f : Frame) : Except Fault Pem := do
  if f.opening.isEmpty then throw .beginTag
  if f.closing.isEmpty then throw .endTag
  if f.opening ≠ f.closing then
    throw (.mismatch (String.ofList f.opening) (String.ofList f.closing))
  let (headers, data) := divide f.body
  let symbols := data.filter fun c => !Text.isBlank c
  let contents ← (Base64.decode (Utf8.encodeChars symbols)).mapError .data
  match (lines headers).find? fun line => !line.contains ':' with
  | some line => throw (.header (String.ofList line))
  | none => return ⟨String.ofList f.opening, contents⟩

/-- The first block of a text. -/
def parse (text : String) : Except Fault Pem :=
  match frame? text.toList with
  | some (f, _) => ofFrame f
  | none => .error .framing

-- ------------------------------------------------------- many blocks

theorem splitOnto_length {marker owed acc text before rest : List Char}
    (h : splitOnto marker owed acc text = some (before, rest)) : rest.length ≤ text.length := by
  induction text generalizing owed acc with
  | nil => cases owed <;> simp_all [splitOnto]
  | cons c text ih =>
    cases owed with
    | nil => simp_all [splitOnto]
    | cons m owed =>
      simp only [splitOnto] at h
      split at h <;> exact Nat.le_succ_of_le (ih h)

/-- A matched marker that is not empty leaves a shorter text. -/
theorem splitAt?_length {marker text before rest : List Char} (hm : marker ≠ [])
    (h : splitAt? marker text = some (before, rest)) : rest.length < text.length := by
  cases marker with
  | nil => exact absurd rfl hm
  | cons m marker =>
    cases text with
    | nil => simp [splitAt?, splitOnto] at h
    | cons c text =>
      simp only [splitAt?, splitOnto] at h
      split at h <;> exact Nat.lt_succ_of_le (splitOnto_length h)

theorem dropWhile_length_le (p : Char → Bool) (cs : List Char) :
    (cs.dropWhile p).length ≤ cs.length :=
  (List.dropWhile_sublist p).length_le

/-- A block takes characters off a text. -/
theorem frame?_length {text rest : List Char} {f : Frame} (h : frame? text = some (f, rest)) :
    rest.length < text.length := by
  simp only [frame?, Option.bind_eq_bind, Option.bind_eq_some_iff] at h
  obtain ⟨⟨a, t1⟩, h1, ⟨b, t2⟩, h2, ⟨c, t3⟩, h3, ⟨d, t4⟩, h4, h5⟩ := h
  simp only [Option.pure_def, Option.some.injEq, Prod.mk.injEq] at h5
  have e1 : t1.length < text.length := splitAt?_length (by decide) h1
  have e2 : t2.length < t1.length := splitAt?_length (by decide) h2
  have e3 : t3.length < (t2.dropWhile isGap).length := splitAt?_length (by decide) h3
  have e4 : t4.length < t3.length := splitAt?_length (by decide) h4
  have g2 := dropWhile_length_le isGap t2
  have g4 := dropWhile_length_le isGap t4
  rw [← h5.2]
  omega

/-- The frames of a text in order, to the first place where none is found. -/
def frames (text : List Char) : List Frame :=
  match _h : frame? text with
  | some (f, rest) => f :: frames rest
  | none => []
termination_by text.length
decreasing_by exact frame?_length (by assumption)

/-- The blocks of a text in order; one bad block spoils them all. -/
def parseMany (text : String) : Except Fault (List Pem) :=
  (frames text.toList).mapM ofFrame

-- =============================================================== writing

/-- How lines end. -/
inductive LineEnd where
  | lf
  | crlf
  deriving Repr, DecidableEq

/-- The characters of a line end. -/
def LineEnd.chars : LineEnd → List Char
  | .lf => ['\n']
  | .crlf => ['\r', '\n']

/-- The columns of a full line. -/
def columns : Nat := 64

/-- The text in lines of at most `columns` characters, each with its end; `left`
is what the current line may still take. -/
def wrap (ending : LineEnd) : (left : Nat) → List Char → List Char
  | left, [] => if left = columns then [] else ending.chars
  | 0, c :: cs => ending.chars ++ c :: wrap ending (columns - 1) cs
  | left + 1, c :: cs => c :: wrap ending left cs

/-- The text of a block. -/
def encode (ending : LineEnd) (p : Pem) : String :=
  String.ofList
    (beginMarker ++ p.tag.toList ++ dashes ++ ending.chars
      ++ wrap ending columns (Base64.encode p.contents)
      ++ endMarker ++ p.tag.toList ++ dashes ++ ending.chars)

end Pem

end Enrollment
