/-
Values that are passed over: every JSON value, and nothing behind it.

`Spelled` is the grammar of values, of the elements of a list and of the members of
an object, without what they stand for.  By induction on it the machine goes from where
a value is due to where one has ended, with the stack that it had
(`passed_of_spelled`); so a value is passed over to its end, however deep it is nested
and whatever it holds (`skipValue_spelled`).

Where a text or null is read, the same is passed over (`skipValue_of_readOptional`): the
reader of strings and the machine go through the bytes in step.
-/
import Enrollment.Json.Record
import Enrollment.Proofs.Except

namespace Enrollment.Json

-- ================================================================ grammar

/-- White space. -/
def Blank (gap : Bytes) : Prop :=
  ∀ b ∈ gap, b = 0x20 ∨ b = 0x09 ∨ b = 0x0A ∨ b = 0x0D

/-- Decimal digits, at least one. -/
def Digital (ds : Bytes) : Prop :=
  ds ≠ [] ∧ ∀ d ∈ ds, 0x30 ≤ d ∧ d ≤ 0x39

/-- The whole part of a number: it has no zero in front. -/
inductive Whole : Bytes → Prop where
  | zero : Whole [0x30]
  | digits {d : UInt8} {ds : Bytes} (hfirst : d ≠ 0x30) (h : Digital (d :: ds)) :
      Whole (d :: ds)

/-- The part behind the decimal point, if there is one. -/
inductive Fraction : Bytes → Prop where
  | none : Fraction []
  | digits {ds : Bytes} (h : Digital ds) : Fraction (0x2E :: ds)

/-- The exponent, if there is one. -/
inductive Exponent : Bytes → Prop where
  | none : Exponent []
  | digits {mark : UInt8} {sign ds : Bytes} (hmark : mark = 0x65 ∨ mark = 0x45)
      (hsign : sign = [] ∨ sign = [0x2B] ∨ sign = [0x2D]) (h : Digital ds) :
      Exponent (mark :: (sign ++ ds))

inductive Number : Bytes → Prop where
  | parts {sign whole fraction exponent : Bytes} (hsign : sign = [] ∨ sign = [0x2D])
      (hwhole : Whole whole) (hfraction : Fraction fraction) (hexponent : Exponent exponent) :
      Number (sign ++ (whole ++ (fraction ++ exponent)))

/-- Is the byte a hexadecimal digit, in either case? -/
def Hexadecimal (b : UInt8) : Prop :=
  0x30 ≤ b ∧ b ≤ 0x39 ∨ 0x41 ≤ b ∧ b ≤ 0x46 ∨ 0x61 ≤ b ∧ b ≤ 0x66

/-- What stands between the quotes of a string.  It need not be UTF-8, and surrogates
need no partner. -/
inductive Inside : Bytes → Prop where
  | nil : Inside []
  | plain {b : UInt8} {bs : Bytes} (hb : 0x20 ≤ b ∧ b ≠ 0x22 ∧ b ≠ 0x5C) (h : Inside bs) :
      Inside (b :: bs)
  | letter {b : UInt8} {bs : Bytes}
      (hb : b ∈ [0x22, 0x5C, 0x2F, 0x62, 0x66, 0x6E, 0x72, (0x74 : UInt8)]) (h : Inside bs) :
      Inside (0x5C :: b :: bs)
  | unit {b₁ b₂ b₃ b₄ : UInt8} {bs : Bytes} (hb : ∀ b ∈ [b₁, b₂, b₃, b₄], Hexadecimal b)
      (h : Inside bs) : Inside (0x5C :: 0x75 :: b₁ :: b₂ :: b₃ :: b₄ :: bs)

/-- What is spelled: a value, or what stands between the brackets of a list that has
elements, or of an object that has members. -/
inductive Form where
  | value
  | elements
  | members

/-- The bytes are a value of JSON, or elements or members with the commas between
them. -/
inductive Spelled : Form → Bytes → Prop where
  | null : Spelled .value (Bytes.ofAscii "null")
  | true : Spelled .value (Bytes.ofAscii "true")
  | false : Spelled .value (Bytes.ofAscii "false")
  | number {bs : Bytes} (h : Number bs) : Spelled .value bs
  | text {inside : Bytes} (h : Inside inside) : Spelled .value (0x22 :: (inside ++ [0x22]))
  | emptyList {gap : Bytes} (h : Blank gap) : Spelled .value (0x5B :: (gap ++ [0x5D]))
  | list {bs : Bytes} (h : Spelled .elements bs) : Spelled .value (0x5B :: (bs ++ [0x5D]))
  | emptyObject {gap : Bytes} (h : Blank gap) : Spelled .value (0x7B :: (gap ++ [0x7D]))
  | object {bs : Bytes} (h : Spelled .members bs) : Spelled .value (0x7B :: (bs ++ [0x7D]))
  | element {before value after : Bytes} (hbefore : Blank before) (h : Spelled .value value)
      (hafter : Blank after) : Spelled .elements (before ++ (value ++ after))
  | elements {first rest : Bytes} (h : Spelled .elements first) (hrest : Spelled .elements rest) :
      Spelled .elements (first ++ 0x2C :: rest)
  | member {before name middle other value after : Bytes} (hbefore : Blank before)
      (hname : Inside name) (hmiddle : Blank middle) (hother : Blank other)
      (h : Spelled .value value) (hafter : Blank after) :
      Spelled .members
        (before ++ 0x22 :: (name ++ 0x22 :: (middle ++ 0x3A :: (other ++ (value ++ after)))))
  | members {first rest : Bytes} (h : Spelled .members first) (hrest : Spelled .members rest) :
      Spelled .members (first ++ 0x2C :: rest)

-- ================================================================== runs

variable {state : SkipState} {stack outer : List Frame} {b : UInt8} {bs gap ds rest : Bytes}

theorem isGap_of_blank (h : Blank gap) : ∀ b ∈ gap, isGap b = true := by
  intro b hb
  rcases h b hb with rfl | rfl | rfl | rfl <;> rfl

/-- Bytes that leave the machine where it is are passed over. -/
theorem skipFrom_stay (h : ∀ b ∈ bs, skipStep state stack b = .next state stack) (rest : Bytes) :
    skipFrom state stack (bs ++ rest) = skipFrom state stack rest := by
  induction bs with
  | nil => rfl
  | cons b bs ih =>
    rw [List.cons_append, skipFrom, h b List.mem_cons_self]
    exact ih fun d hd => h d (List.mem_cons_of_mem b hd)

/-- The machine is where white space may stand. -/
inductive AtGap : SkipState → List Frame → Prop where
  | value {stack : List Frame} : AtGap .value stack
  | key {stack : List Frame} : AtGap .key stack
  | colon {stack : List Frame} : AtGap .colon stack
  | after {frame : Frame} {outer : List Frame} : AtGap .after (frame :: outer)
  | opened {frame : Frame} {outer : List Frame} : AtGap .opened (frame :: outer)

theorem skipStep_gap (h : AtGap state stack) (hb : isGap b = true) :
    skipStep state stack b = .next state stack := by
  cases h with
  | value => simp only [skipStep, valueStep, hb, if_true]
  | key => simp only [skipStep, keyStep, hb, if_true]
  | colon => simp only [skipStep, hb, if_true]
  | after => simp only [skipStep, afterStep, hb, if_true]
  | opened => simp only [skipStep, openedStep, hb, if_true]

theorem skipFrom_blank (h : AtGap state stack) (hgap : Blank gap) (rest : Bytes) :
    skipFrom state stack (gap ++ rest) = skipFrom state stack rest :=
  skipFrom_stay (fun b hb => skipStep_gap h (isGap_of_blank hgap b hb)) rest

-- ================================================================ strings

theorem skipStep_letter {k : Bool}
    (hb : b ∈ [0x22, 0x5C, 0x2F, 0x62, 0x66, 0x6E, 0x72, (0x74 : UInt8)]) :
    skipStep (.escape k) stack b = .next (.text k) stack := by
  simp only [List.mem_cons, List.not_mem_nil, or_false] at hb
  rcases hb with rfl | rfl | rfl | rfl | rfl | rfl | rfl | rfl <;> rfl

theorem isSome_hexValue? (hb : Hexadecimal b) : (hexValue? b).isSome = true := by
  have hall : ∀ n < 256, (0x30 ≤ n ∧ n ≤ 0x39 ∨ 0x41 ≤ n ∧ n ≤ 0x46 ∨ 0x61 ≤ n ∧ n ≤ 0x66) →
      (hexValue? (UInt8.ofNat n)).isSome = true := by
    decide +kernel
  have h := hall b.toNat b.toNat_lt hb
  rwa [UInt8.ofNat_toNat] at h

/-- A string is passed over up to the quote that ends it. -/
theorem skipFrom_inside (h : Inside bs) (k : Bool) (rest : Bytes) :
    skipFrom (.text k) stack (bs ++ 0x22 :: rest)
      = skipFrom (if k then .colon else .after) stack rest := by
  induction h with
  | nil => rfl
  | @plain b bs hb _ ih =>
    obtain ⟨hcontrol, hquote, hslash⟩ := hb
    have hstep : skipStep (.text k) stack b = .next (.text k) stack := by
      simp only [skipStep, if_neg hquote, if_neg hslash, if_neg (UInt8.not_lt.2 hcontrol)]
    rw [List.cons_append, skipFrom, hstep]
    exact ih
  | letter hb _ ih =>
    show skipFrom (.escape k) stack (_ :: (_ ++ 0x22 :: rest)) = _
    rw [skipFrom, skipStep_letter hb]
    exact ih
  | @unit b₁ b₂ b₃ b₄ bs hb _ ih =>
    simp only [List.forall_mem_cons] at hb
    obtain ⟨h₁, h₂, h₃, h₄, -⟩ := hb
    show skipFrom (.hex k 4 true) stack (b₁ :: b₂ :: b₃ :: b₄ :: (bs ++ 0x22 :: rest)) = _
    simp only [skipFrom, skipStep, isSome_hexValue? h₁, isSome_hexValue? h₂, isSome_hexValue? h₃,
      isSome_hexValue? h₄, Bool.and_self]
    exact ih

-- ================================================================ numbers

theorem isDigit_of_digital (h : Digital ds) : ∀ d ∈ ds, isDigit d = true := by
  intro d hd
  rw [isDigit, Bool.and_eq_true, decide_eq_true_iff, decide_eq_true_iff]
  exact h.2 d hd

/-- A digit is none of the bytes that are no digits. -/
theorem ne_of_isDigit {c : UInt8} (hb : isDigit b = true) (hc : isDigit c = false) : b ≠ c := by
  rintro rfl
  cases hb.symm.trans hc

theorem isGap_of_isDigit (hb : isDigit b = true) : isGap b = false := by
  have hnot {c : UInt8} (hc : isDigit c = false) : b ≠ c := ne_of_isDigit hb hc
  simp only [isGap, Bool.or_eq_false_iff, beq_eq_false_iff_ne]
  exact ⟨⟨⟨hnot rfl, hnot rfl⟩, hnot rfl⟩, hnot rfl⟩

/-- What is left does not go on with a number. -/
def Stops (rest : Bytes) : Prop :=
  ∀ b ∈ rest.head?, isGap b = true ∨ b = 0x2C ∨ b = 0x5D ∨ b = 0x7D

/-- The machine is where a number may have ended. -/
inductive AtEnd : SkipState → Prop where
  | zero : AtEnd .zero
  | whole : AtEnd .whole
  | fraction : AtEnd .fraction
  | exponent : AtEnd .exponent

/-- Behind a number the machine goes on as behind any value. -/
theorem skipFrom_stops (h : AtEnd state) (hrest : Stops rest) :
    skipFrom state stack rest = skipFrom .after stack rest := by
  cases rest with
  | nil => cases h <;> rfl
  | cons b rest =>
    have hstep : skipStep state stack b = skipStep .after stack b := by
      have hb := hrest b rfl
      simp only [isGap, Bool.or_eq_true, beq_iff_eq] at hb
      rcases hb with (((rfl | rfl) | rfl) | rfl) | rfl | rfl | rfl <;> cases h <;> rfl
    rw [skipFrom, hstep]
    rfl

/-- After the first digit of a run the machine stays where that one led. -/
theorem skipFrom_digital {next : SkipState} (h : Digital ds)
    (hfirst : ∀ d, isDigit d = true → skipStep state stack d = .next next stack)
    (hstay : ∀ d, isDigit d = true → skipStep next stack d = .next next stack) (rest : Bytes) :
    skipFrom state stack (ds ++ rest) = skipFrom next stack rest := by
  have hdigits := isDigit_of_digital h
  cases ds with
  | nil => exact absurd rfl h.1
  | cons d ds =>
    rw [List.cons_append, skipFrom, hfirst d (hdigits d List.mem_cons_self)]
    exact skipFrom_stay (fun e he => hstay e (hdigits e (List.mem_cons_of_mem d he))) rest

/-- The exponent of a number is passed over. -/
theorem skipFrom_exponent (h : Exponent bs) (hstate : AtEnd state) (hne : state ≠ .exponent)
    (hrest : Stops rest) :
    skipFrom state stack (bs ++ rest) = skipFrom .after stack rest := by
  cases h with
  | none => exact skipFrom_stops hstate hrest
  | @digits mark sign ds hmark hsign h =>
    have hdigits (state : SkipState)
        (hfirst : ∀ d, isDigit d = true → skipStep state stack d = .next .exponent stack) :
        skipFrom state stack (ds ++ rest) = skipFrom .after stack rest := by
      rw [skipFrom_digital h hfirst fun d hd => by simp only [skipStep, hd, if_true]]
      exact skipFrom_stops .exponent hrest
    have hstep : skipStep state stack mark = .next .mark stack := by
      rcases hmark with rfl | rfl <;> cases hstate <;> first | rfl | exact absurd rfl hne
    rw [List.cons_append, skipFrom, hstep, List.append_assoc]
    show skipFrom .mark stack (sign ++ (ds ++ rest)) = _
    rcases hsign with rfl | rfl | rfl
    · refine hdigits .mark fun d hd => ?_
      have hplus : d ≠ 0x2B := ne_of_isDigit hd rfl
      have hminus : d ≠ 0x2D := ne_of_isDigit hd rfl
      simp only [skipStep, hplus, hminus, or_self, if_false, hd, if_true]
    · exact hdigits .sign fun d hd => by simp only [skipStep, hd, if_true]
    · exact hdigits .sign fun d hd => by simp only [skipStep, hd, if_true]

/-- So is what comes behind the decimal point, with an exponent or without. -/
theorem skipFrom_fraction {exponent : Bytes} (h : Fraction bs) (hexponent : Exponent exponent)
    (hstate : state = .zero ∨ state = .whole) (hrest : Stops rest) :
    skipFrom state stack (bs ++ (exponent ++ rest)) = skipFrom .after stack rest := by
  cases h with
  | none =>
    rcases hstate with rfl | rfl
    · exact skipFrom_exponent hexponent .zero (by decide) hrest
    · exact skipFrom_exponent hexponent .whole (by decide) hrest
  | @digits ds h =>
    have hpoint : skipStep state stack 0x2E = .next .point stack := by
      rcases hstate with rfl | rfl <;> rfl
    rw [List.cons_append, skipFrom, hpoint]
    show skipFrom .point stack (ds ++ (exponent ++ rest)) = _
    have hdigit (state : SkipState) (hstate : state = .point ∨ state = .fraction) (d : UInt8)
        (hd : isDigit d = true) : skipStep state stack d = .next .fraction stack := by
      rcases hstate with rfl | rfl <;> simp only [skipStep, hd, if_true]
    rw [skipFrom_digital h (hdigit .point (.inl rfl)) (hdigit .fraction (.inr rfl))]
    exact skipFrom_exponent hexponent .fraction (by decide) hrest

/-- Where a number is due, a digit begins its whole part. -/
theorem skipStep_firstDigit (hstate : state = .value ∨ state = .minus) (hb : isDigit b = true)
    (hne : b ≠ 0x30) : skipStep state stack b = .next .whole stack := by
  have hnot {c : UInt8} (hc : isDigit c = false) : b ≠ c := ne_of_isDigit hb hc
  have hgap : isGap b = false := isGap_of_isDigit hb
  rcases hstate with rfl | rfl
  · have hquote : b ≠ 0x22 := hnot rfl
    have hlist : b ≠ 0x5B := hnot rfl
    have hobject : b ≠ 0x7B := hnot rfl
    have hnull : b ≠ 0x6E := hnot rfl
    have htrue : b ≠ 0x74 := hnot rfl
    have hfalse : b ≠ 0x66 := hnot rfl
    have hminus : b ≠ 0x2D := hnot rfl
    simp only [skipStep, valueStep, hgap, hquote, hlist, hobject, hnull, htrue, hfalse, hminus, hne,
      hb, Bool.false_eq_true, if_false, if_true]
  · simp only [skipStep, hne, hb, if_false, if_true]

/-- A number is passed over as far as it goes. -/
theorem skipFrom_number (h : Number bs) (hrest : Stops rest) :
    skipFrom .value stack (bs ++ rest) = skipFrom .after stack rest := by
  obtain ⟨hsign, hwhole, hfraction, hexponent⟩ := h
  rename_i sign whole fraction exponent
  -- behind a minus sign the machine waits for digits as it does without one
  have hdigits (state : SkipState) (hstate : state = .value ∨ state = .minus) :
      skipFrom state stack (whole ++ (fraction ++ (exponent ++ rest)))
        = skipFrom .after stack rest := by
    cases hwhole with
    | zero =>
      have hzero : skipStep state stack 0x30 = .next .zero stack := by
        rcases hstate with rfl | rfl <;> rfl
      rw [List.cons_append, skipFrom, hzero]
      exact skipFrom_fraction hfraction hexponent (.inl rfl) hrest
    | @digits d ds hfirst h =>
      have hall := isDigit_of_digital h
      rw [List.cons_append, skipFrom,
        skipStep_firstDigit hstate (hall d List.mem_cons_self) hfirst]
      show skipFrom .whole stack (ds ++ (fraction ++ (exponent ++ rest))) = _
      rw [skipFrom_stay fun e he => by
        simp only [skipStep, hall e (List.mem_cons_of_mem d he), if_true]]
      exact skipFrom_fraction hfraction hexponent (.inr rfl) hrest
  rw [List.append_assoc, List.append_assoc, List.append_assoc]
  rcases hsign with rfl | rfl
  · exact hdigits .value (.inl rfl)
  · exact hdigits .minus (.inr rfl)

-- ================================================================= values

/-- How the machine comes past what is spelled: from where it is due to where a value has
ended, at the same depth. -/
def Passed : Form → Bytes → Prop
  | .value, bs => ∀ stack rest, Stops rest →
      skipFrom .value stack (bs ++ rest) = skipFrom .after stack rest
  | .elements, bs => ∀ state outer rest, state = .value ∨ state = .opened → Stops rest →
      skipFrom state (.list :: outer) (bs ++ rest) = skipFrom .after (.list :: outer) rest
  | .members, bs => ∀ state outer rest, state = .key ∨ state = .opened → Stops rest →
      skipFrom state (.object :: outer) (bs ++ rest) = skipFrom .after (.object :: outer) rest

theorem stops_blank (hgap : Blank gap) (hrest : Stops rest) : Stops (gap ++ rest) := by
  cases gap with
  | nil => exact hrest
  | cons b gap =>
    intro c hc
    cases hc
    exact .inl (isGap_of_blank hgap b List.mem_cons_self)

theorem stops_cons {b : UInt8} (h : b = 0x2C ∨ b = 0x5D ∨ b = 0x7D) (rest : Bytes) :
    Stops (b :: rest) := by
  intro c hc
  cases hc
  exact .inr h

/-- A value begins neither with white space nor with the end of a list. -/
theorem exists_first (h : Spelled .value bs) :
    ∃ b rest, bs = b :: rest ∧ isGap b = false ∧ b ≠ 0x5D := by
  cases h with
  | number h =>
    obtain ⟨hsign, hwhole, -, -⟩ := h
    rcases hsign with rfl | rfl
    · cases hwhole with
      | zero => exact ⟨_, _, rfl, rfl, by decide⟩
      | digits hfirst h =>
        have hd := isDigit_of_digital h _ List.mem_cons_self
        exact ⟨_, _, rfl, isGap_of_isDigit hd, ne_of_isDigit hd rfl⟩
    · exact ⟨_, _, rfl, rfl, by decide⟩
  | _ => exact ⟨_, _, rfl, rfl, by decide⟩

/-- So behind the bracket of a list it is read as where a value is due. -/
theorem skipFrom_opened (h : Spelled .value bs) (rest : Bytes) :
    skipFrom .opened (.list :: outer) (bs ++ rest)
      = skipFrom .value (.list :: outer) (bs ++ rest) := by
  obtain ⟨b, bs, rfl, hgap, hclose⟩ := exists_first h
  have hstep : skipStep .opened (.list :: outer) b = skipStep .value (.list :: outer) b := by
    have hclose : b ≠ Frame.list.close := hclose
    simp only [skipStep, openedStep, hgap, hclose, Bool.false_eq_true, if_false]
  rw [List.cons_append, skipFrom, skipFrom, hstep]

/-- An element is passed when its value is, with the white space around it. -/
theorem passed_element {before value after : Bytes} (hbefore : Blank before)
    (hspelled : Spelled .value value) (hafter : Blank after) (h : Passed .value value) :
    Passed .elements (before ++ (value ++ after)) := by
  intro state outer rest hstate hrest
  have hvalue := h (.list :: outer) _ (stops_blank hafter hrest)
  rw [List.append_assoc, List.append_assoc]
  rcases hstate with rfl | rfl
  · rw [skipFrom_blank .value hbefore, hvalue, skipFrom_blank .after hafter]
  · rw [skipFrom_blank .opened hbefore, skipFrom_opened hspelled, hvalue,
      skipFrom_blank .after hafter]

/-- A member is passed when its value is, with its name and the white space around them. -/
theorem passed_member {before name middle other value after : Bytes} (hbefore : Blank before)
    (hname : Inside name) (hmiddle : Blank middle) (hother : Blank other) (hafter : Blank after)
    (h : Passed .value value) :
    Passed .members
      (before ++ 0x22 :: (name ++ 0x22 :: (middle ++ 0x3A :: (other ++ (value ++ after))))) := by
  intro state outer rest hstate hrest
  have hvalue := h (.object :: outer) _ (stops_blank hafter hrest)
  have hgap : AtGap state (.object :: outer) := by
    rcases hstate with rfl | rfl
    · exact .key
    · exact .opened
  have hquote : skipStep state (.object :: outer) 0x22
      = .next (.text true) (.object :: outer) := by
    rcases hstate with rfl | rfl <;> rfl
  simp only [List.append_assoc, List.cons_append]
  rw [skipFrom_blank hgap hbefore, skipFrom, hquote]
  show skipFrom (.text true) _ (_ ++ 0x22 :: _) = _
  rw [skipFrom_inside hname]
  show skipFrom .colon _ _ = _
  rw [skipFrom_blank .colon hmiddle]
  show skipFrom .value _ _ = _
  rw [skipFrom_blank .value hother, hvalue, skipFrom_blank .after hafter]

/-- What is spelled is passed, whatever it is nested in. -/
theorem passed_of_spelled {form : Form} (h : Spelled form bs) : Passed form bs := by
  -- only lists and objects go a level down, and both come back up at their last bracket
  induction h with
  | null => exact fun _ _ _ => rfl
  | true => exact fun _ _ _ => rfl
  | false => exact fun _ _ _ => rfl
  | number h => exact fun stack rest hrest => skipFrom_number h hrest
  | text h =>
    intro stack rest _
    show skipFrom (.text false) stack ((_ ++ [0x22]) ++ rest) = _
    rw [List.append_assoc]
    exact skipFrom_inside h false rest
  | emptyList h =>
    intro stack rest _
    show skipFrom .opened (.list :: stack) ((_ ++ [0x5D]) ++ rest) = _
    rw [List.append_assoc, skipFrom_blank .opened h]
    rfl
  | list _ ih =>
    intro stack rest _
    show skipFrom .opened (.list :: stack) ((_ ++ [0x5D]) ++ rest) = _
    rw [List.append_assoc]
    show skipFrom .opened (.list :: stack) (_ ++ 0x5D :: rest) = _
    rw [ih .opened stack _ (.inr rfl) (stops_cons (.inr (.inl rfl)) rest)]
    rfl
  | emptyObject h =>
    intro stack rest _
    show skipFrom .opened (.object :: stack) ((_ ++ [0x7D]) ++ rest) = _
    rw [List.append_assoc, skipFrom_blank .opened h]
    rfl
  | object _ ih =>
    intro stack rest _
    show skipFrom .opened (.object :: stack) ((_ ++ [0x7D]) ++ rest) = _
    rw [List.append_assoc]
    show skipFrom .opened (.object :: stack) (_ ++ 0x7D :: rest) = _
    rw [ih .opened stack _ (.inr rfl) (stops_cons (.inr (.inr rfl)) rest)]
    rfl
  | element hbefore h hafter ih => exact passed_element hbefore h hafter ih
  | elements _ _ ih ihrest =>
    intro state outer rest hstate hrest
    rw [List.append_assoc, List.cons_append, ih state outer _ hstate (stops_cons (.inl rfl) _)]
    exact ihrest .value outer rest (.inl rfl) hrest
  | member hbefore hname hmiddle hother _ hafter ih =>
    exact passed_member hbefore hname hmiddle hother hafter ih
  | members _ _ ih ihrest =>
    intro state outer rest hstate hrest
    rw [List.append_assoc, List.cons_append, ih state outer _ hstate (stops_cons (.inl rfl) _)]
    exact ihrest .key outer rest (.inl rfl) hrest

/-- A value is passed over to its end. -/
theorem skipValue_spelled (hgap : Blank gap) (h : Spelled .value bs) (hrest : Stops rest) :
    skipValue (gap ++ (bs ++ rest)) = .ok rest := by
  rw [skipValue, skipFrom_blank .value hgap, passed_of_spelled h [] rest hrest]
  cases rest <;> rfl

-- ========================================================= texts and null

/-- Where the machine is while a string is read. -/
def stateOf : TextState → SkipState
  | .plain | .afterHigh _ => .text false
  | .escape | .escapeAfterHigh _ => .escape false
  | .hex due _ sound _ => .hex false due sound

/-- The step of the machine that goes with one of the reader, unless this refuses. -/
def stepOf (stack : List Frame) : TextStep → Option SkipStep
  | .closed => some (.next .after stack)
  | .next state => some (.next (stateOf state) stack)
  | .bytes _ state => some (.next (stateOf state) stack)
  | .refused _ => none

theorem stepOf_unitStep {n : Nat} {high : Option Nat} {step : SkipStep}
    (h : stepOf stack (unitStep n high) = some step) : step = .next (.text false) stack := by
  unfold unitStep at h
  split at h
  · split at h
    · cases h
    · split at h <;> exact (Option.some.inj h).symm
  · split at h
    · exact (Option.some.inj h).symm
    · cases h

/-- The digits of an escape are counted alike, whatever their value. -/
theorem skipStep_hex {due value : Nat} {sound : Bool} {high : Option Nat} {step : SkipStep}
    (h : stepOf stack (textStep (.hex due value sound high) b) = some step) :
    skipStep (.hex false due sound) stack b = step := by
  have hboth (value : Nat) (sound : Bool)
      (h : stepOf stack (if 1 < due then .next (.hex (due - 1) value sound high)
        else if sound then unitStep value high else .refused .escape) = some step) :
      (if 1 < due then SkipStep.next (.hex false (due - 1) sound) stack
        else if sound then .next (.text false) stack else .refused .escape) = step := by
    by_cases hdue : 1 < due
    · rw [if_pos hdue] at h ⊢
      exact Option.some.inj h
    · rw [if_neg hdue] at h ⊢
      cases sound with
      | true => exact (stepOf_unitStep h).symm
      | false => cases h
  cases hdigit : hexValue? b with
  | none =>
    simp only [textStep, hdigit] at h
    simp only [skipStep, hdigit, Option.isSome_none, Bool.and_false]
    exact hboth _ _ h
  | some d =>
    simp only [textStep, hdigit] at h
    simp only [skipStep, hdigit, Option.isSome_some, Bool.and_true]
    exact hboth _ _ h

/-- Inside a string the machine steps as the reader does. -/
theorem skipStep_stateOf {state : TextState} {step : SkipStep}
    (h : stepOf stack (textStep state b) = some step) :
    skipStep (stateOf state) stack b = step := by
  cases state with
  | plain =>
    by_cases hquote : b = 0x22
    · subst hquote
      exact Option.some.inj h
    by_cases hslash : b = 0x5C
    · subst hslash
      exact Option.some.inj h
    by_cases hcontrol : b < 0x20
    · simp only [textStep, hquote, hslash, hcontrol, if_false, if_true] at h
      cases h
    · simp only [textStep, hquote, hslash, hcontrol, if_false] at h
      simp only [stateOf, skipStep, hquote, hslash, hcontrol, if_false]
      exact Option.some.inj h
  | escape =>
    by_cases hunit : b = 0x75
    · subst hunit
      exact Option.some.inj h
    cases hletter : shortEscape? b with
    | none =>
      simp only [textStep, hunit, hletter, if_false] at h
      cases h
    | some c =>
      simp only [textStep, hunit, hletter, if_false] at h
      simp only [stateOf, skipStep, hunit, hletter, Option.isSome_some, if_false, if_true]
      exact Option.some.inj h
  | hex due value sound high => exact skipStep_hex h
  | afterHigh high =>
    by_cases hslash : b = 0x5C
    · subst hslash
      exact Option.some.inj h
    · simp only [textStep, hslash, if_false] at h
      cases h
  | escapeAfterHigh high =>
    by_cases hunit : b = 0x75
    · subst hunit
      exact Option.some.inj h
    · simp only [textStep, hunit, if_false] at h
      cases h

/-- A string that is read is passed over as far as it is read. -/
theorem skipFrom_of_readBytes {state : TextState} {acc content : Bytes}
    (h : readBytes state acc bs = .ok (content, rest)) :
    skipFrom (stateOf state) stack bs = skipFrom .after stack rest := by
  induction bs generalizing state acc with
  | nil => cases h
  | cons b bs ih =>
    rw [readBytes] at h
    split at h
    case h_1 hstep =>
      cases h
      rw [skipFrom, skipStep_stateOf (by rw [hstep]; rfl)]
    case h_2 hstep =>
      rw [skipFrom, skipStep_stateOf (by rw [hstep]; rfl)]
      exact ih h
    case h_3 hstep =>
      rw [skipFrom, skipStep_stateOf (by rw [hstep]; rfl)]
      exact ih h
    case h_4 => cases h

theorem readWord_eq_ok {word : Bytes} (h : readWord word bs = .ok rest) : bs = word ++ rest := by
  induction word generalizing bs with
  | nil =>
    cases h
    rfl
  | cons w word ih =>
    cases bs with
    | nil => cases h
    | cons b bs =>
      rw [readWord] at h
      split at h
      case isTrue hb => rw [hb, ih h, List.cons_append]
      case isFalse => cases h

/-- White space in front of a value may be skipped first. -/
theorem skipValue_dropGaps (bs : Bytes) : skipValue bs = skipValue (dropGaps bs) := by
  have hgap : ∀ b ∈ bs.takeWhile isGap, isGap b = true :=
    List.all_eq_true.1 List.all_takeWhile
  have hstay : ∀ b ∈ bs.takeWhile isGap, skipStep .value [] b = .next .value [] :=
    fun b hb => skipStep_gap .value (hgap b hb)
  have h := skipFrom_stay hstay (dropGaps bs)
  rwa [dropGaps, List.takeWhile_append_dropWhile] at h

/-- Where a text or null is read, a value is passed over. -/
theorem skipValue_of_readOptional {text : Option String} (h : readOptional bs = .ok (text, rest)) :
    skipValue bs = .ok rest := by
  have hafter : skipFrom .after [] rest = .ok rest := by cases rest <;> rfl
  rw [skipValue_dropGaps]
  unfold readOptional at h
  split at h
  case h_1 => cases h
  case h_2 after hbs =>
    obtain ⟨rest', hword, h⟩ := bind_eq_ok h
    cases h
    rw [hbs, readWord_eq_ok hword]
    exact hafter
  case h_3 after hbs =>
    obtain ⟨⟨read, rest'⟩, htext, h⟩ := bind_eq_ok h
    cases h
    obtain ⟨⟨content, rest'⟩, hbytes, htext⟩ := bind_eq_ok htext
    have hrest : rest' = rest := by
      simp only at htext
      split at htext
      · cases htext
        rfl
      · cases htext
    rw [hbs, ← hafter, ← hrest]
    exact skipFrom_of_readBytes hbytes
  case h_4 => cases h

end Enrollment.Json
