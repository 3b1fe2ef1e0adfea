/-
A JSON document read as a record of text fields, each of which may be left out
or null.

The record is written as an object, or as a list of its fields in order.  An
object may hold other members, which are passed over; a known member that
occurs twice is refused.  Faults come in the order of the document, so what is
wrong with a field's text is found before what is wrong further on.
-/
import Enrollment.Json.Skip

namespace Enrollment.Json

/-- A field of a record over `σ`: its name, and how a text is stored in it. -/
structure Field (σ : Type) where
  name : String
  store : String → σ → Except Fault σ

/-- A record type: how it is called, its fields in order, and the record in
which all of them are absent. -/
structure Shape (σ : Type) where
  name : String
  fields : List (Field σ)
  empty : σ

/-- The input without the white space in front. -/
def dropGaps (bs : Bytes) : Bytes :=
  bs.dropWhile isGap

theorem dropGaps_length (bs : Bytes) : (dropGaps bs).length ≤ bs.length :=
  (List.dropWhile_sublist isGap).length_le

/-- Takes a word that has begun off the input. -/
def readWord : (word bs : Bytes) → Except Fault Bytes
  | [], bs => .ok bs
  | _ :: _, [] => .error .endInValue
  | w :: word, b :: bs => if b = w then readWord word bs else .error .expectedWord

theorem readWord_length {word bs rest : Bytes} (h : readWord word bs = .ok rest) :
    rest.length ≤ bs.length := by
  induction word generalizing bs with
  | nil => cases h; exact Nat.le_refl _
  | cons w word ih =>
    cases bs with
    | nil => simp [readWord] at h
    | cons b bs =>
      simp only [readWord] at h
      split at h
      · exact Nat.le_succ_of_le (ih h)
      · cases h

/-- The complaint about the value that the input starts with, where another
kind is expected; it may itself be spoiled. -/
def complaint (expected : String) (bs : Bytes) : Fault :=
  let found : Except Fault Found :=
    match bs with
    | 0x6E :: rest => (readWord (Bytes.ofAscii "ull") rest).map fun _ => .null
    | 0x74 :: rest => (readWord (Bytes.ofAscii "rue") rest).map fun _ => .boolean true
    | 0x66 :: rest => (readWord (Bytes.ofAscii "alse") rest).map fun _ => .boolean false
    | 0x2D :: rest => readNumber true rest
    | 0x22 :: rest => (readText rest).map fun r => .text r.1
    | 0x5B :: _ => .ok .list
    | 0x7B :: _ => .ok .object
    | b :: _ => if isDigit b then readNumber false bs else .error .expectedValue
    | [] => .error .expectedValue
  match found with
  | .ok found => .wrongKind found expected
  | .error fault => fault

/-- A text or null. -/
def readOptional (bs : Bytes) : Except Fault (Option String × Bytes) :=
  match dropGaps bs with
  | [] => .error .endInValue
  | 0x6E :: rest => do
    let rest ← readWord (Bytes.ofAscii "ull") rest
    return (none, rest)
  | 0x22 :: rest => do
    let (text, rest) ← readText rest
    return (some text, rest)
  | bs => .error (complaint "a string" bs)

/-- A field's value, stored in the record. -/
def readField {σ : Type} (field : Field σ) (s : σ) (bs : Bytes) : Except Fault (σ × Bytes) := do
  match ← readOptional bs with
  | (some text, rest) => return (← field.store text s, rest)
  | (none, rest) => return (s, rest)

theorem readOptional_length {bs rest : Bytes} {text : Option String}
    (h : readOptional bs = .ok (text, rest)) : rest.length ≤ bs.length := by
  have hg := dropGaps_length bs
  unfold readOptional at h
  split at h
  · cases h
  · rename_i tail heq
    cases hw : readWord (Bytes.ofAscii "ull") tail with
    | error e => simp [hw, bind, Except.bind] at h
    | ok r =>
      simp only [hw, bind, Except.bind, pure, Except.pure, Except.ok.injEq, Prod.mk.injEq] at h
      have := readWord_length hw
      rw [heq, List.length_cons] at hg
      rw [← h.2]; omega
  · rename_i tail heq
    cases hw : readText tail with
    | error e => simp [hw, bind, Except.bind] at h
    | ok r =>
      obtain ⟨t, r⟩ := r
      simp only [hw, bind, Except.bind, pure, Except.pure, Except.ok.injEq, Prod.mk.injEq] at h
      have := readText_length hw
      rw [heq, List.length_cons] at hg
      rw [← h.2]; omega
  · cases h

theorem readField_length {σ : Type} {field : Field σ} {s t : σ} {bs rest : Bytes}
    (h : readField field s bs = .ok (t, rest)) : rest.length ≤ bs.length := by
  unfold readField at h
  cases hr : readOptional bs with
  | error e => simp [hr, bind, Except.bind] at h
  | ok p =>
    obtain ⟨text, r⟩ := p
    have hl := readOptional_length hr
    cases text with
    | none =>
      simp only [hr, bind, Except.bind, pure, Except.pure, Except.ok.injEq, Prod.mk.injEq] at h
      exact h.2 ▸ hl
    | some text =>
      cases hs : field.store text s with
      | error e => simp [hr, hs, bind, Except.bind] at h
      | ok u =>
        simp only [hr, hs, bind, Except.bind, pure, Except.pure, Except.ok.injEq,
          Prod.mk.injEq] at h
        exact h.2 ▸ hl

-- =============================================================== objects

/-- The input after the colon that follows a key. -/
def readColon (bs : Bytes) : Except Fault Bytes :=
  match dropGaps bs with
  | [] => .error .endInObject
  | 0x3A :: rest => .ok rest
  | _ :: _ => .error .expectedColon

/-- The value of a member, stored when its key names a field that has not been
seen, and passed over when it names none. -/
def readMember {σ : Type} (shape : Shape σ) (key : String) (seen : List String) (s : σ)
    (bs : Bytes) : Except Fault (σ × List String × Bytes) :=
  match shape.fields.find? (·.name == key) with
  | some field =>
    if seen.contains key then .error (.duplicateField key)
    else do
      let (s, rest) ← readField field s (← readColon bs)
      return (s, key :: seen, rest)
  | none => do
    let rest ← skipValue (← readColon bs)
    return (s, seen, rest)

theorem readColon_length {bs rest : Bytes} (h : readColon bs = .ok rest) :
    rest.length ≤ bs.length := by
  have hg := dropGaps_length bs
  unfold readColon at h
  split at h
  · cases h
  · rename_i heq
    cases h
    rw [heq, List.length_cons] at hg
    omega
  · cases h

theorem readMember_length {σ : Type} {shape : Shape σ} {key : String} {seen seen' : List String}
    {s s' : σ} {bs rest : Bytes}
    (h : readMember shape key seen s bs = .ok (s', seen', rest)) : rest.length ≤ bs.length := by
  unfold readMember at h
  cases hc : readColon bs with
  | error e =>
    split at h
    · split at h <;> simp [hc, bind, Except.bind] at h
    · simp [hc, bind, Except.bind] at h
  | ok r =>
    have hl := readColon_length hc
    split at h
    · rename_i field _
      split at h
      · cases h
      · cases hf : readField field s r with
        | error e => simp [hc, hf, bind, Except.bind] at h
        | ok p =>
          obtain ⟨t, u⟩ := p
          simp only [hc, hf, bind, Except.bind, pure, Except.pure, Except.ok.injEq,
            Prod.mk.injEq] at h
          have := readField_length hf
          rw [← h.2.2]; omega
    · cases hk : skipValue r with
      | error e => simp [hc, hk, bind, Except.bind] at h
      | ok u =>
        simp only [hc, hk, bind, Except.bind, pure, Except.pure, Except.ok.injEq,
          Prod.mk.injEq] at h
        have := skipFrom_length hk
        rw [← h.2.2]; omega

/-- What a position between members of an object is. -/
inductive ObjectPoint where
  /-- The object ends; the input after it. -/
  | closed (rest : Bytes)
  /-- A key begins; the input after its quote. -/
  | key (rest : Bytes)

/-- The next key or the end of an object; `first` before the first member. -/
def objectPoint (first : Bool) (bs : Bytes) : Except Fault ObjectPoint :=
  match dropGaps bs with
  | [] => .error .endInObject
  | b :: rest =>
    if b = 0x7D then .ok (.closed rest)
    else if first then
      if b = 0x22 then .ok (.key rest) else .error .keyNotString
    else if b = 0x2C then
      match dropGaps rest with
      | [] => .error .endInValue
      | 0x22 :: rest => .ok (.key rest)
      | 0x7D :: _ => .error .trailingComma
      | _ :: _ => .error .keyNotString
    else .error .expectedObjectEnd

theorem objectPoint_length {first : Bool} {bs rest : Bytes}
    (h : objectPoint first bs = .ok (.key rest)) : rest.length < bs.length := by
  have hg := dropGaps_length bs
  unfold objectPoint at h
  split at h
  · cases h
  · rename_i b tail heq
    rw [heq, List.length_cons] at hg
    have ht := dropGaps_length tail
    split at h
    · cases h
    · split at h
      · split at h
        · cases h; omega
        · cases h
      · split at h
        · split at h
          · cases h
          · rename_i heq'
            cases h
            rw [heq', List.length_cons] at ht
            omega
          · cases h
          · cases h
        · cases h

/-- The members of an object, from a position between two of them to its end. -/
def readMembers {σ : Type} (shape : Shape σ) (first : Bool) (seen : List String) (s : σ)
    (bs : Bytes) : Except Fault (σ × Bytes) :=
  match _h : objectPoint first bs with
  | .error fault => .error fault
  | .ok (.closed rest) => .ok (s, rest)
  | .ok (.key rest) =>
    match _hk : readText rest with
    | .error fault => .error fault
    | .ok (key, value) =>
      match _hm : readMember shape key seen s value with
      | .error fault => .error fault
      | .ok (s, seen, rest) => readMembers shape false seen s rest
termination_by bs.length
decreasing_by
  have h₁ := objectPoint_length _h
  have h₂ := readText_length _hk
  have h₃ := readMember_length _hm
  omega

-- ================================================================ lists

/-- What a position between elements of a list is. -/
inductive ListPoint where
  /-- The list ends here. -/
  | closed
  /-- An element follows. -/
  | element (rest : Bytes)

/-- The next element or the end of a list; `first` before the first element. -/
def listPoint (first : Bool) (bs : Bytes) : Except Fault ListPoint :=
  match dropGaps bs with
  | [] => .error .endInList
  | b :: rest =>
    if b = 0x5D then .ok .closed
    else if first then .ok (.element (b :: rest))
    else if b = 0x2C then
      match dropGaps rest with
      | [] => .error .endInValue
      | 0x5D :: _ => .error .trailingComma
      | rest => .ok (.element rest)
    else .error .expectedListEnd

/-- The fields of a record from a list; those that the list is too short for
stay absent. -/
def readElements {σ : Type} (first : Bool) :
    List (Field σ) → σ → Bytes → Except Fault (σ × Bytes)
  | [], s, bs => .ok (s, bs)
  | field :: fields, s, bs => do
    match ← listPoint first bs with
    | .closed => return (s, bs)
    | .element rest =>
      let (s, rest) ← readField field s rest
      readElements false fields s rest

/-- The input after the end of a list whose elements have been read. -/
def listEnd (bs : Bytes) : Except Fault Bytes :=
  match dropGaps bs with
  | [] => .error .endInList
  | 0x5D :: rest => .ok rest
  | 0x2C :: rest =>
    match dropGaps rest with
    | 0x5D :: _ => .error .trailingComma
    | _ => .error .trailingCharacters
  | _ :: _ => .error .trailingCharacters

-- ============================================================= documents

/-- The record that the value at the front of the input spells, and the input
after it. -/
def readRecord {σ : Type} (shape : Shape σ) (bs : Bytes) : Except Fault (σ × Bytes) :=
  match dropGaps bs with
  | [] => .error .endInValue
  | 0x7B :: rest => readMembers shape true [] shape.empty rest
  | 0x5B :: rest => do
    let (s, rest) ← readElements true shape.fields shape.empty rest
    return (s, ← listEnd rest)
  | bs => .error (complaint ("struct " ++ shape.name) bs)

/-- The record that a whole document spells. -/
def ofDocument {σ : Type} (shape : Shape σ) (body : Bytes) : Except Fault σ := do
  let (s, rest) ← readRecord shape body
  if (dropGaps rest).isEmpty then return s else throw .trailingCharacters

-- =============================================================== writing

/-- The members that are present, in order, as an object. -/
def writeObject (members : List (String × String)) : List Char :=
  let texts := members.map fun m => writeText m.1 ++ ':' :: writeText m.2
  '{' :: (texts.intersperse [',']).flatten ++ ['}']

end Enrollment.Json
