/-
Written lengths of time.

A number is written with an optional plus sign and at least one digit
(`Text.Numeral`), and a length of time as a number and perhaps the letter of a unit behind
it, with white space in front of the letter and around it all (`Duration.Written`).  The
number part and the unit that are found in a text are those with which it is written
(`parts_of_spells`, `exists_spells`), so a text is read exactly if it is so written with a
number that is neither zero nor too large (`parse_eq_ok_iff`), and what it comes to is
never zero (`seconds_of_parse`).
-/
import Mathlib.Data.List.Induction
import Mathlib.Data.Nat.Digits.Defs
import Enrollment.Duration
import Enrollment.Proofs.Text.Blank

namespace Enrollment.Text

-- ================================================================ numbers

/-- The number that decimal digits stand for. -/
def valueOf (digits : List Char) : Nat :=
  Nat.ofDigits 10 (digits.reverse.map fun c => c.toNat - 48)

/-- A number as it is written: at least one digit, and perhaps a plus sign in front. -/
structure Numeral where
  plus : Bool
  digits : List Char
  digits_ne : digits ≠ []
  isDigit : ∀ c ∈ digits, isAsciiDigit c = true

namespace Numeral

/-- The text of a number. -/
def chars (n : Numeral) : List Char :=
  if n.plus then '+' :: n.digits else n.digits

/-- The number itself. -/
def value (n : Numeral) : Nat := valueOf n.digits

end Numeral

/-- One more digit counts for itself, and the others for ten times as much as before. -/
theorem valueOf_concat (digits : List Char) (c : Char) :
    valueOf (digits ++ [c]) = valueOf digits * 10 + (c.toNat - 48) := by
  rw [valueOf, List.reverse_append, List.reverse_singleton, List.singleton_append, List.map_cons,
    Nat.ofDigits_cons, Nat.add_comm, Nat.mul_comm]
  rfl

variable {max : Nat} {cs : List Char}

/-- A digit is taken as long as the number does not get too great. -/
theorem appendDigit_eq_some_iff {n m : Nat} {c : Char} :
    appendDigit max n c = some m
      ↔ isAsciiDigit c = true ∧ n * 10 + (c.toNat - 48) = m ∧ m ≤ max := by
  unfold appendDigit
  rw [Option.ite_none_right_eq_some, Bool.and_eq_true, decide_eq_true_iff]
  constructor
  · rintro ⟨⟨hdigit, hle⟩, h⟩
    cases h
    exact ⟨hdigit, rfl, hle⟩
  · rintro ⟨hdigit, rfl, hle⟩
    exact ⟨⟨hdigit, hle⟩, rfl⟩

/-- Digits are read if they are digits and stand for a number in range; a number that is
out of range after some of them stays so. -/
theorem foldlM_appendDigit_eq_some_iff {n : Nat} :
    cs.foldlM (appendDigit max) 0 = some n
      ↔ (∀ c ∈ cs, isAsciiDigit c = true) ∧ valueOf cs = n ∧ n ≤ max := by
  induction cs using List.reverseRecOn generalizing n with
  | nil =>
    constructor
    · intro h
      cases h
      exact ⟨List.forall_mem_nil _, rfl, Nat.zero_le max⟩
    · rintro ⟨-, rfl, -⟩
      rfl
  | append_singleton front c ih =>
    rw [List.foldlM_append, List.forall_mem_append, List.forall_mem_singleton, valueOf_concat]
    constructor
    · intro h
      obtain ⟨m, hfront, hlast⟩ := Option.bind_eq_some_iff.1 h
      obtain ⟨hdigits, rfl, -⟩ := ih.1 hfront
      obtain ⟨m', hlast, hm'⟩ := Option.bind_eq_some_iff.1 hlast
      cases hm'
      obtain ⟨hdigit, rfl, hle⟩ := appendDigit_eq_some_iff.1 hlast
      exact ⟨⟨hdigits, hdigit⟩, rfl, hle⟩
    · rintro ⟨⟨hdigits, hdigit⟩, rfl, hle⟩
      have hfront : valueOf front ≤ max := by omega
      rw [ih.2 ⟨hdigits, rfl, hfront⟩]
      show (appendDigit max (valueOf front) c).bind some = _
      rw [appendDigit_eq_some_iff.2 ⟨hdigit, rfl, hle⟩]
      rfl

theorem ne_plus_of_isAsciiDigit {c : Char} (h : isAsciiDigit c = true) : c ≠ '+' := by
  rintro rfl
  exact absurd h (by decide)

/-- What is read as a number is a number as it is written, in range. -/
theorem natUpTo?_eq_some_iff {n : Nat} :
    natUpTo? max cs = some n ↔ ∃ w : Numeral, w.chars = cs ∧ w.value = n ∧ n ≤ max := by
  have hread (digits : List Char) :
      (if digits.isEmpty then none else digits.foldlM (appendDigit max) 0) = some n
        ↔ digits ≠ [] ∧ (∀ c ∈ digits, isAsciiDigit c = true) ∧ valueOf digits = n ∧ n ≤ max := by
    rw [Option.ite_none_left_eq_some, List.isEmpty_iff, foldlM_appendDigit_eq_some_iff]
  constructor
  · intro h
    unfold natUpTo? at h
    split at h
    · obtain ⟨hne, hdigits, hvalue, hle⟩ := (hread _).1 h
      exact ⟨⟨true, _, hne, hdigits⟩, rfl, hvalue, hle⟩
    · obtain ⟨hne, hdigits, hvalue, hle⟩ := (hread _).1 h
      exact ⟨⟨false, _, hne, hdigits⟩, rfl, hvalue, hle⟩
  · rintro ⟨⟨plus, digits, hne, hdigits⟩, rfl, rfl, hle⟩
    have hdigits' := (hread digits).2 ⟨hne, hdigits, rfl, hle⟩
    cases plus with
    | true => exact hdigits'
    | false =>
      -- without a sign the first digit must not be taken for one
      show natUpTo? max digits = _
      unfold natUpTo?
      split
      · exact absurd rfl (ne_plus_of_isAsciiDigit (hdigits _ List.mem_cons_self))
      · exact hdigits'

theorem not_isBlank_of_isAsciiDigit {c : Char} (h : isAsciiDigit c = true) :
    isBlank c = false := by
  obtain ⟨hlow, hhigh⟩ := Bool.and_eq_true_iff.1 h
  have hlow : 48 ≤ c.toNat := of_decide_eq_true hlow
  have hhigh : c.toNat ≤ 57 := of_decide_eq_true hhigh
  simp only [isBlank, Bool.or_eq_false_iff, Bool.and_eq_false_iff, beq_eq_false_iff_ne,
    decide_eq_false_iff_not]
  omega

namespace Numeral

variable (n : Numeral)

theorem exists_head : ∃ first, n.chars.head? = some first ∧ isBlank first = false := by
  unfold chars
  by_cases h : n.plus
  · rw [if_pos h]
    exact ⟨'+', rfl, by decide⟩
  · rw [if_neg h]
    have hdigit := n.isDigit _ (List.head_mem n.digits_ne)
    exact ⟨_, List.head?_eq_some_head n.digits_ne, not_isBlank_of_isAsciiDigit hdigit⟩

theorem exists_last : ∃ front last, n.chars = front ++ [last] ∧ isAsciiDigit last = true := by
  have hdigit := n.isDigit _ (List.getLast_mem n.digits_ne)
  have hdigits : n.digits.dropLast ++ [n.digits.getLast n.digits_ne] = n.digits :=
    List.dropLast_concat_getLast n.digits_ne
  unfold chars
  by_cases h : n.plus
  · rw [if_pos h]
    refine ⟨'+' :: n.digits.dropLast, _, ?_, hdigit⟩
    rw [List.cons_append, hdigits]
  · rw [if_neg h]
    exact ⟨_, _, hdigits.symm, hdigit⟩

theorem chars_ne : n.chars ≠ [] := by
  obtain ⟨front, last, h, -⟩ := n.exists_last
  rw [h]
  exact List.append_ne_nil_of_right_ne_nil front (List.cons_ne_nil last [])

/-- A number has no white space at its ends, with or without something behind it that has
none. -/
theorem isTrimmed_append {back : List Char} {last : Char} (h : isBlank last = false) :
    IsTrimmed (n.chars ++ (back ++ [last])) := by
  obtain ⟨first, hhead, hfirst⟩ := n.exists_head
  refine .of_ends ?_ ?_ hfirst h
  · rw [List.head?_append, hhead]
    rfl
  · rw [← List.append_assoc, List.getLast?_concat]

theorem isTrimmed : IsTrimmed n.chars := by
  obtain ⟨first, hhead, hfirst⟩ := n.exists_head
  obtain ⟨front, last, h, hdigit⟩ := n.exists_last
  refine .of_ends hhead ?_ hfirst (not_isBlank_of_isAsciiDigit hdigit)
  rw [h, List.getLast?_concat]

end Numeral

end Enrollment.Text

namespace Enrollment.Duration

open Text (IsBlank trim)

-- ================================================================== units

/-- The units that a length of time can be written in. -/
inductive TimeUnit where
  | second
  | minute
  | hour
  deriving Repr, DecidableEq

namespace TimeUnit

/-- The letter of a unit. -/
def letter : TimeUnit → Char
  | second => 's'
  | minute => 'm'
  | hour => 'h'

/-- The seconds in a unit. -/
def seconds : TimeUnit → Nat
  | second => 1
  | minute => 60
  | hour => 3600

variable (u : TimeUnit)

theorem not_isBlank_letter : Text.isBlank u.letter = false := by
  cases u <;> decide

theorem not_isAsciiDigit_letter : Text.isAsciiDigit u.letter = false := by
  cases u <;> decide

end TimeUnit

variable {cs front : List Char} {u : TimeUnit}

/-- The letter of a unit at the end is taken off, and says how many seconds a unit has. -/
theorem splitUnit_letter : splitUnit (front ++ [u.letter]) = (front, u.seconds) := by
  unfold splitUnit
  rw [List.getLast?_concat, List.dropLast_concat]
  cases u <;> rfl

/-- Without such a letter everything is the number, and it is one of seconds. -/
theorem splitUnit_of_ne (h : ∀ u : TimeUnit, ∀ front, cs ≠ front ++ [u.letter]) :
    splitUnit cs = (cs, 1) := by
  have hlast (u : TimeUnit) : cs.getLast? ≠ some u.letter := by
    intro hlast
    obtain ⟨front, hfront⟩ := List.getLast?_eq_some_iff.1 hlast
    exact h u front hfront
  unfold splitUnit
  split
  · rename_i hs
    exact absurd hs (hlast .second)
  · rename_i hm
    exact absurd hm (hlast .minute)
  · rename_i hh
    exact absurd hh (hlast .hour)
  · rfl

-- ================================================================ writing

/-- A length of time as it is written, without the white space around it: a number, and
perhaps white space and the letter of a unit. -/
structure Written where
  numeral : Text.Numeral
  gap : List Char
  unit : Option TimeUnit
  isBlank_gap : IsBlank gap

namespace Written

/-- The letter of the unit, if there is one. -/
def ending (w : Written) : List Char := (w.unit.map (·.letter)).toList

/-- The seconds in the unit; without one the number is one of seconds. -/
def factor (w : Written) : Nat := w.unit.elim 1 (·.seconds)

/-- The number in front of the unit. -/
def value (w : Written) : Nat := w.numeral.value

/-- A text is written so, with any white space around it. -/
def Spells (w : Written) (text : String) : Prop :=
  ∃ before after, IsBlank before ∧ IsBlank after
    ∧ text.toList = before ++ (w.numeral.chars ++ (w.gap ++ (w.ending ++ after)))

end Written

-- ================================================================ reading

/-- The number part of a text and the seconds in the unit, as they are looked for. -/
def parts (text : String) : List Char × Nat :=
  let (number, unit) := splitUnit (trim text.toList)
  (trim number, unit)

/-- A text is trimmed for the fault that is told of it. -/
def trimmed (text : String) : String := String.ofList (trim text.toList)

/-- A length of time is the number in front times the unit, within the greatest length. -/
theorem parse_eq (text : String) :
    parse text = match Text.natUpTo? maxSeconds (parts text).1 with
      | none => .error (.malformed (trimmed text))
      | some 0 => .error (.zero (trimmed text))
      | some n => .ok ⟨min (n * (parts text).2) maxSeconds, 0⟩ :=
  rfl

variable {text : String} {w : Written}

/-- What is written is found. -/
theorem parts_of_spells (h : w.Spells text) : parts text = (w.numeral.chars, w.factor) := by
  obtain ⟨before, after, hbefore, hafter, htext⟩ := h
  obtain ⟨numeral, gap, unit, hgap⟩ := w
  have hnil : IsBlank [] := List.forall_mem_nil _
  unfold parts
  cases unit with
  | none =>
    -- white space behind a number alone is all behind the text
    have hback : IsBlank (gap ++ after) := List.forall_mem_append.2 ⟨hgap, hafter⟩
    have htrim : trim text.toList = numeral.chars := by
      rw [htext]
      exact Text.trim_padded hbefore hback numeral.isTrimmed numeral.chars_ne
    obtain ⟨front, last, hlast, hdigit⟩ := numeral.exists_last
    have hsplit : splitUnit numeral.chars = (numeral.chars, 1) := by
      refine splitUnit_of_ne fun u front' h => ?_
      obtain ⟨-, hletter⟩ := List.append_inj' (hlast.symm.trans h) rfl
      cases hletter
      exact absurd hdigit (Bool.eq_false_iff.1 u.not_isAsciiDigit_letter)
    have hnumber : trim numeral.chars = numeral.chars := by
      have hpadded := Text.trim_padded hnil hnil numeral.isTrimmed numeral.chars_ne
      rwa [List.append_nil] at hpadded
    rw [htrim, hsplit]
    exact congrArg (·, 1) hnumber
  | some u =>
    have htrim : trim text.toList = numeral.chars ++ (gap ++ [u.letter]) := by
      rw [htext]
      show trim (before ++ (numeral.chars ++ (gap ++ ([u.letter] ++ after)))) = _
      rw [← List.append_assoc gap, ← List.append_assoc numeral.chars]
      exact Text.trim_padded hbefore hafter (numeral.isTrimmed_append u.not_isBlank_letter)
        (List.append_ne_nil_of_left_ne_nil numeral.chars_ne _)
    have hnumber : trim (numeral.chars ++ gap) = numeral.chars :=
      Text.trim_padded hnil hgap numeral.isTrimmed numeral.chars_ne
    rw [htrim, ← List.append_assoc, splitUnit_letter]
    exact congrArg (·, u.seconds) hnumber

/-- A text of which the number part is a number is written with it. -/
theorem exists_spells {numeral : Text.Numeral} (h : (parts text).1 = numeral.chars) :
    ∃ w : Written, w.Spells text ∧ w.numeral = numeral := by
  obtain ⟨before, after, hbefore, hafter, -, htext⟩ := Text.exists_padding text.toList
  have hblank {cs ds : List Char} (hcs : IsBlank cs) (hds : IsBlank ds) : IsBlank (cs ++ ds) :=
    List.forall_mem_append.2 ⟨hcs, hds⟩
  by_cases hunit : ∃ u : TimeUnit, ∃ front, trim text.toList = front ++ [u.letter]
  · obtain ⟨u, front, hfront⟩ := hunit
    obtain ⟨front', gap, hfront', hgap, -, hsplit⟩ := Text.exists_padding front
    have hnumber : trim front = numeral.chars := by
      rw [← h, parts, hfront, splitUnit_letter]
    refine ⟨⟨numeral, gap, some u, hgap⟩, ⟨before ++ front', after, hblank hbefore hfront',
      hafter, ?_⟩, rfl⟩
    rw [htext, hfront, hsplit, hnumber]
    show before ++ (front' ++ (numeral.chars ++ gap) ++ [u.letter] ++ after)
      = before ++ front' ++ (numeral.chars ++ (gap ++ ([u.letter] ++ after)))
    simp only [List.append_assoc]
  · have hne : ∀ u : TimeUnit, ∀ front, trim text.toList ≠ front ++ [u.letter] :=
      fun u front h => hunit ⟨u, front, h⟩
    obtain ⟨front', back', hfront', hback', -, hsplit⟩ := Text.exists_padding (trim text.toList)
    have hnumber : trim (trim text.toList) = numeral.chars := by
      rw [← h, parts, splitUnit_of_ne hne]
    refine ⟨⟨numeral, [], none, List.forall_mem_nil _⟩, ⟨before ++ front', back' ++ after,
      hblank hbefore hfront', hblank hback' hafter, ?_⟩, rfl⟩
    rw [htext, hsplit, hnumber]
    show before ++ (front' ++ (numeral.chars ++ back') ++ after)
      = before ++ front' ++ (numeral.chars ++ ([] ++ ([] ++ (back' ++ after))))
    simp only [List.append_assoc, List.nil_append]

/-- The number in front of the unit is the one that is read, if it is in range. -/
theorem natUpTo?_of_spells (h : w.Spells text) (hle : w.value ≤ maxSeconds) :
    Text.natUpTo? maxSeconds (parts text).1 = some w.value := by
  rw [parts_of_spells h]
  exact Text.natUpTo?_eq_some_iff.2 ⟨w.numeral, rfl, rfl, hle⟩

/-- A length of time that is written with the number zero is refused as such. -/
theorem parse_of_value_eq_zero (h : w.Spells text) (hzero : w.value = 0) :
    parse text = .error (.zero (trimmed text)) := by
  rw [parse_eq, natUpTo?_of_spells h (hzero ▸ Nat.zero_le _), hzero]
  rfl

/-- Any other one that is written is accepted, and is the greatest length if it is longer. -/
theorem parse_of_value_pos (h : w.Spells text) (hpos : 1 ≤ w.value)
    (hle : w.value ≤ maxSeconds) :
    parse text = .ok ⟨min (w.value * w.factor) maxSeconds, 0⟩ := by
  obtain ⟨n, hn⟩ := Nat.exists_eq_add_of_le' hpos
  rw [parse_eq, natUpTo?_of_spells h hle, hn, parts_of_spells h]
  rfl

/-- A text that is not written as a length of time, or is with a number that is too large,
is malformed. -/
theorem parse_of_not_spelled (h : ∀ w : Written, w.Spells text → maxSeconds < w.value) :
    parse text = .error (.malformed (trimmed text)) := by
  have hnone : Text.natUpTo? maxSeconds (parts text).1 = none := by
    refine Option.eq_none_iff_forall_ne_some.2 fun n hn => ?_
    obtain ⟨numeral, hchars, rfl, hle⟩ := Text.natUpTo?_eq_some_iff.1 hn
    obtain ⟨w, hspells, rfl⟩ := exists_spells hchars.symm
    exact absurd (h w hspells) (Nat.not_lt.2 hle)
  rw [parse_eq, hnone]

/-- What a text comes to: a text is written with the number zero, or with one that is in
range, or it is not written as a length of time with a number in range. -/
theorem parse_cases (text : String) :
    (∃ w : Written, w.Spells text ∧ w.value = 0)
      ∨ (∃ w : Written, w.Spells text ∧ 1 ≤ w.value ∧ w.value ≤ maxSeconds)
      ∨ ∀ w : Written, w.Spells text → maxSeconds < w.value := by
  by_cases h : ∃ w : Written, w.Spells text ∧ w.value ≤ maxSeconds
  · obtain ⟨w, hspells, hle⟩ := h
    rcases Nat.eq_zero_or_pos w.value with hzero | hpos
    · exact .inl ⟨w, hspells, hzero⟩
    · exact .inr (.inl ⟨w, hspells, hpos, hle⟩)
  · exact .inr (.inr fun w hspells => Nat.not_le.1 fun hle => h ⟨w, hspells, hle⟩)

variable {d : Duration}

/-- Accepted are just the texts that are written so, with a number that is not zero. -/
theorem parse_eq_ok_iff :
    parse text = .ok d ↔ ∃ w : Written, w.Spells text ∧ 1 ≤ w.value ∧ w.value ≤ maxSeconds
      ∧ d = ⟨min (w.value * w.factor) maxSeconds, 0⟩ := by
  constructor
  · intro h
    rcases parse_cases text with ⟨w, hspells, hzero⟩ | ⟨w, hspells, hpos, hle⟩ | hnone
    · rw [parse_of_value_eq_zero hspells hzero] at h
      cases h
    · rw [parse_of_value_pos hspells hpos hle] at h
      cases h
      exact ⟨w, hspells, hpos, hle, rfl⟩
    · rw [parse_of_not_spelled hnone] at h
      cases h
  · rintro ⟨w, hspells, hpos, hle, rfl⟩
    exact parse_of_value_pos hspells hpos hle

/-- A text is refused for its zero, or because nothing that is small enough is written so. -/
theorem parse_eq_error_iff {fault : Fault} :
    parse text = .error fault
      ↔ fault = .zero (trimmed text) ∧ (∃ w : Written, w.Spells text ∧ w.value = 0)
        ∨ fault = .malformed (trimmed text)
          ∧ ∀ w : Written, w.Spells text → maxSeconds < w.value := by
  constructor
  · intro h
    rcases parse_cases text with ⟨w, hspells, hzero⟩ | ⟨w, hspells, hpos, hle⟩ | hnone
    · rw [parse_of_value_eq_zero hspells hzero] at h
      cases h
      exact .inl ⟨rfl, w, hspells, hzero⟩
    · rw [parse_of_value_pos hspells hpos hle] at h
      cases h
    · rw [parse_of_not_spelled hnone] at h
      cases h
      exact .inr ⟨rfl, hnone⟩
  · rintro (⟨rfl, w, hspells, hzero⟩ | ⟨rfl, hnone⟩)
    · exact parse_of_value_eq_zero hspells hzero
    · exact parse_of_not_spelled hnone

theorem Written.one_le_factor (w : Written) : 1 ≤ w.factor := by
  unfold factor
  cases w.unit with
  | none => exact Nat.le_refl 1
  | some u => cases u <;> decide

/-- What is read is never zero, and never more than the greatest number of seconds. -/
theorem seconds_of_parse (h : parse text = .ok d) : 1 ≤ d.seconds ∧ d.seconds ≤ maxSeconds := by
  obtain ⟨w, -, hpos, -, rfl⟩ := parse_eq_ok_iff.1 h
  refine ⟨Nat.le_min.2 ⟨Nat.mul_pos hpos w.one_le_factor, by decide⟩, Nat.min_le_right _ _⟩

end Enrollment.Duration
