/-
JSON objects as they are written, and the steps in which their members are read.

`writeObject` puts its commas between the members; `tailText` is the same text from a
position between two of them on.  Reading goes from one such position to the next
(`readMembers_key`), up to the closing brace (`readMembers_closed`).
-/
import Enrollment.Json.Record
import Enrollment.Proofs.Json.Text

namespace Enrollment.Json

variable {σ : Type}

-- ================================================================ members

/-- Texts for fields, stored one after the other. -/
def storeAll : List (Field σ × String) → σ → Except Fault σ
  | [], s => .ok s
  | (field, text) :: entries, s => do storeAll entries (← field.store text s)

/-- What is written of an object after its members up to a position. -/
def tailText : (first : Bool) → List (String × String) → List Char
  | _, [] => ['\x7d']
  | first, m :: members =>
    (if first then [] else [',']) ++ (writeText m.1 ++ ':' :: (writeText m.2
      ++ tailText false members))

/-- An object is its opening brace and all that follows it. -/
theorem writeObject_eq (members : List (String × String)) :
    writeObject members = '\x7b' :: tailText true members := by
  have htail (members : List (String × String)) :
      tailText false members
        = (members.map fun m => ',' :: (writeText m.1 ++ ':' :: writeText m.2)).flatten
          ++ ['\x7d'] := by
    induction members with
    | nil => rfl
    | cons m members ih =>
      rw [tailText, ih, List.map_cons, List.flatten_cons]
      simp only [Bool.false_eq_true, if_false, List.cons_append, List.nil_append,
        List.append_assoc]
  have hcommas (t : List Char) (ts : List (List Char)) :
      ((t :: ts).intersperse [',']).flatten = t ++ (ts.map (',' :: ·)).flatten := by
    induction ts generalizing t with
    | nil => rw [List.intersperse_singleton, List.flatten_singleton, List.map_nil, List.flatten_nil,
        List.append_nil]
    | cons u ts ih =>
      rw [List.intersperse_cons_cons, List.flatten_cons, List.flatten_cons, ih, List.map_cons,
        List.flatten_cons]
      rfl
  cases members with
  | nil => rfl
  | cons m members =>
    simp only [writeObject, List.map_cons, hcommas, tailText, if_true, List.nil_append, htail,
      List.map_map, Function.comp_def, List.cons_append, List.append_assoc]

/-- An object ends at its brace. -/
theorem readMembers_closed {shape : Shape σ} {first : Bool} {seen : List String} {s : σ}
    {bs rest : Bytes} (h : objectPoint first bs = .ok (.closed rest)) :
    readMembers shape first seen s bs = .ok (s, rest) := by
  rw [readMembers]
  split
  · rename_i heq
    rw [h] at heq
    cases heq
  · rename_i heq
    rw [h] at heq
    cases heq
    rfl
  · rename_i heq
    rw [h] at heq
    cases heq

/-- A member is read, and then the others are. -/
theorem readMembers_key {shape : Shape σ} {first : Bool} {seen seen' : List String} {s s' : σ}
    {bs inside value rest : Bytes} {key : String}
    (hpoint : objectPoint first bs = .ok (.key inside))
    (hkey : readText inside = .ok (key, value))
    (hmember : readMember shape key seen s value = .ok (s', seen', rest)) :
    readMembers shape first seen s bs = readMembers shape false seen' s' rest := by
  rw [readMembers]
  split <;> rename_i heq <;> rw [hpoint] at heq <;> cases heq
  split <;> rename_i heq <;> rw [hkey] at heq <;> cases heq
  split <;> rename_i heq <;> rw [hmember] at heq <;> cases heq
  rfl

/-- The bytes of a member and of what follows it. -/
theorem encodeChars_tailText (first : Bool) (m : String × String)
    (members : List (String × String)) (rest : Bytes) :
    Utf8.encodeChars (tailText first (m :: members)) ++ rest
      = (if first then [] else [0x2C]) ++ 0x22 ::
          (Utf8.encodeChars (m.1.toList.flatMap escapeChar) ++ 0x22 :: 0x3A :: 0x22 ::
            (Utf8.encodeChars (m.2.toList.flatMap escapeChar) ++ 0x22 ::
              (Utf8.encodeChars (tailText false members) ++ rest))) := by
  have hcomma : Utf8.encodeChars (if first then [] else [',']) = if first then [] else [0x2C] := by
    cases first <;> rfl
  have hcolon (cs : List Char) : Utf8.encodeChars (':' :: cs) = 0x3A :: Utf8.encodeChars cs := rfl
  rw [tailText, Utf8.encodeChars_append, hcomma, Utf8.encodeChars_append, hcolon,
    Utf8.encodeChars_append, List.append_assoc, List.append_assoc, encodeChars_writeText,
    List.cons_append, List.append_assoc, encodeChars_writeText]

-- ================================================================== sizes

/-- The place that the members of an object take at most, each with its comma. -/
def membersBound : List (String × String) → Nat
  | [] => 0
  | m :: members => 6 * Utf8.size m.1 + 6 * Utf8.size m.2 + 6 + membersBound members

/-- An object takes at most the place of its members and of its braces. -/
theorem length_writeObject_le (members : List (String × String)) :
    (Utf8.encodeChars (writeObject members)).length ≤ membersBound members + 2 := by
  have htail (first : Bool) : (Utf8.encodeChars (tailText first members)).length
      ≤ membersBound members + 1 := by
    induction members generalizing first with
    | nil => exact Nat.le_refl 1
    | cons m members ih =>
      have hcomma : (Utf8.encodeChars (if first then [] else [','])).length ≤ 1 := by
        cases first <;> decide
      have hcolon (cs : List Char) : Utf8.encodeChars (':' :: cs) = 0x3A :: Utf8.encodeChars cs :=
        rfl
      have hname := length_writeText_le m.1
      have htext := length_writeText_le m.2
      have := ih false
      rw [tailText, membersBound]
      simp only [Utf8.encodeChars_append, hcolon, List.length_append, List.length_cons]
      omega
  have hbrace (cs : List Char) :
      Utf8.encodeChars ('\x7b' :: cs) = 0x7B :: Utf8.encodeChars cs := rfl
  have := htail true
  rw [writeObject_eq, hbrace, List.length_cons]
  omega

end Enrollment.Json
