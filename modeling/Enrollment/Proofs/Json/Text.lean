/-
JSON strings: a text can be written in many ways, and is read back from each.

Most characters stand for themselves.  Eight have an escape of one letter, and all have
one of hexadecimal digits, with two surrogates for those beyond 16 bits.  Whichever
is taken for a character, reading goes from the state between characters back to it, with
the bytes of the character added (`readBytes_spelling`).  So a string is read as its
text (`readText_spells`).  What the writer makes of a text is one of its spellings
(`spells_escaped`), so no text has a character that is written in a way the reader
refuses.
-/
import Enrollment.Json.Text
import Enrollment.Proofs.Text.Utf8

namespace Enrollment.Json

-- ================================================================= digits

/-- The byte is a hexadecimal digit of this value, in either case. -/
inductive HexDigit : Nat → UInt8 → Prop where
  | decimal {d : Nat} (h : d < 10) : HexDigit d (UInt8.ofNat (0x30 + d))
  | upper {d : Nat} (h : d < 6) : HexDigit (10 + d) (UInt8.ofNat (0x41 + d))
  | lower {d : Nat} (h : d < 6) : HexDigit (10 + d) (UInt8.ofNat (0x61 + d))

/-- The bytes are the four hexadecimal digits of a number. -/
inductive HexDigits : Nat → Bytes → Prop where
  | four {n : Nat} {b₁ b₂ b₃ b₄ : UInt8} (h₁ : HexDigit (n / 4096) b₁)
      (h₂ : HexDigit (n / 256 % 16) b₂) (h₃ : HexDigit (n / 16 % 16) b₃)
      (h₄ : HexDigit (n % 16) b₄) : HexDigits n [b₁, b₂, b₃, b₄]

variable {d n : Nat} {b : UInt8} {c : Char} {bs ds : Bytes} {high : Option Nat}

theorem HexDigit.lt (h : HexDigit d b) : d < 16 := by
  cases h <;> omega

theorem hexValue?_hexDigit (h : HexDigit d b) : hexValue? b = some d := by
  cases h with
  | decimal h =>
    revert d
    decide +kernel
  | @upper d h =>
    revert d
    decide +kernel
  | @lower d h =>
    revert d
    decide +kernel

/-- A digit is added to those before it, and the last one completes the unit. -/
theorem textStep_hexDigit (h : HexDigit d b) (due value : Nat) (high : Option Nat) :
    textStep (.hex due value true high) b
      = if 1 < due then .next (.hex (due - 1) (value * 16 + d) true high)
        else unitStep (value * 16 + d) high := by
  rw [textStep, hexValue?_hexDigit h]
  rfl

/-- Three of four digits are read one by one. -/
theorem readBytes_threeDigits {b₁ b₂ b₃ : UInt8} (h₁ : HexDigit (n / 4096) b₁)
    (h₂ : HexDigit (n / 256 % 16) b₂) (h₃ : HexDigit (n / 16 % 16) b₃) (high : Option Nat)
    (acc rest : Bytes) :
    readBytes (.hex 4 0 true high) acc (b₁ :: b₂ :: b₃ :: rest)
      = readBytes (.hex 1 (n / 16) true high) acc rest := by
  have htwo : (0 * 16 + n / 4096) * 16 + n / 256 % 16 = n / 256 := by omega
  have hthree : n / 256 * 16 + n / 16 % 16 = n / 16 := by omega
  have hstep₁ := textStep_hexDigit h₁ 4 0 high
  have hstep₂ := textStep_hexDigit h₂ 3 (0 * 16 + n / 4096) high
  have hstep₃ := textStep_hexDigit h₃ 2 (n / 256) high
  rw [if_pos (by decide)] at hstep₁ hstep₂ hstep₃
  rw [htwo] at hstep₂
  rw [hthree] at hstep₃
  rw [readBytes, hstep₁]
  show readBytes (.hex 3 (0 * 16 + n / 4096) true high) acc (b₂ :: b₃ :: rest) = _
  rw [readBytes, hstep₂]
  show readBytes (.hex 2 (n / 256) true high) acc (b₃ :: rest) = _
  rw [readBytes, hstep₃]

/-- The last of them gives the unit. -/
theorem textStep_lastDigit (h : HexDigit (n % 16) b) (high : Option Nat) :
    textStep (.hex 1 (n / 16) true high) b = unitStep n high := by
  have hvalue : n / 16 * 16 + n % 16 = n := by omega
  rw [textStep_hexDigit h, if_neg (by decide), hvalue]

/-- Four digits give what their unit does. -/
theorem readBytes_unit {content : Bytes} (h : HexDigits n ds)
    (hunit : unitStep n high = .bytes content .plain) (acc rest : Bytes) :
    readBytes (.hex 4 0 true high) acc (ds ++ rest)
      = readBytes .plain (content.reverse ++ acc) rest := by
  obtain ⟨h₁, h₂, h₃, h₄⟩ := h
  show readBytes _ acc (_ :: _ :: _ :: _ :: rest) = _
  rw [readBytes_threeDigits h₁ h₂ h₃, readBytes, textStep_lastDigit h₄, hunit]

theorem readBytes_highUnit (h : HexDigits n ds) (hunit : unitStep n high = .next (.afterHigh n))
    (acc rest : Bytes) :
    readBytes (.hex 4 0 true high) acc (ds ++ rest) = readBytes (.afterHigh n) acc rest := by
  obtain ⟨h₁, h₂, h₃, h₄⟩ := h
  show readBytes _ acc (_ :: _ :: _ :: _ :: rest) = _
  rw [readBytes_threeDigits h₁ h₂ h₃, readBytes, textStep_lastDigit h₄, hunit]

theorem HexDigits.lt (h : HexDigits n ds) : n < 0x10000 := by
  obtain ⟨h₁, -, -, -⟩ := h
  have := h₁.lt
  omega

-- ============================================================= characters

/-- The characters that have an escape of one letter, with the letter. -/
def letters : List (Char × UInt8) :=
  [('"', 0x22), ('\\', 0x5C), ('/', 0x2F), ('\x08', 0x62), ('\x0c', 0x66), ('\n', 0x6E),
    ('\r', 0x72), ('\t', 0x74)]

/-- The bytes stand for a character inside a string. -/
inductive CharSpelling : Char → Bytes → Prop where
  /-- As it is, unless it is a quote, a backslash or a control character. -/
  | plain {c : Char} (hcontrol : 0x20 ≤ c.toNat) (hquote : c ≠ '"') (hslash : c ≠ '\\') :
      CharSpelling c (Utf8.encodeChar c)
  | letter {c : Char} {b : UInt8} (h : (c, b) ∈ letters) : CharSpelling c [0x5C, b]
  | unit {c : Char} {ds : Bytes} (h : HexDigits c.toNat ds) :
      CharSpelling c (0x5C :: 0x75 :: ds)
  /-- As two surrogates, if it has more than 16 bits. -/
  | pair {c : Char} {ds es : Bytes} (hc : 0x10000 ≤ c.toNat)
      (hhigh : HexDigits (0xD800 + (c.toNat - 0x10000) / 1024) ds)
      (hlow : HexDigits (0xDC00 + (c.toNat - 0x10000) % 1024) es) :
      CharSpelling c (0x5C :: 0x75 :: (ds ++ 0x5C :: 0x75 :: es))

theorem unitStep_char (h : c.toNat < 0x10000) :
    unitStep c.toNat none = .bytes (Utf8.encodeChar c) .plain := by
  have hvalid := Utf8.char_toNat_valid c
  have hlow : isLow c.toNat = false := by
    rw [isLow, Bool.and_eq_false_iff, decide_eq_false_iff_not, decide_eq_false_iff_not]
    omega
  have hhigh : isHigh c.toNat = false := by
    rw [isHigh, Bool.and_eq_false_iff, decide_eq_false_iff_not, decide_eq_false_iff_not]
    omega
  simp only [unitStep, hlow, hhigh, Bool.false_eq_true, if_false, Char.ofNat_toNat]

/-- The first unit of a pair tells the upper bits. -/
theorem unitStep_high (h : n < 1024) :
    unitStep (0xD800 + n) none = .next (.afterHigh (0xD800 + n)) := by
  have hlow : isLow (0xD800 + n) = false := by
    rw [isLow, Bool.and_eq_false_iff, decide_eq_false_iff_not, decide_eq_false_iff_not]
    omega
  have hhigh : isHigh (0xD800 + n) = true := by
    rw [isHigh, Bool.and_eq_true, decide_eq_true_iff, decide_eq_true_iff]
    omega
  simp only [unitStep, hlow, hhigh, Bool.false_eq_true, if_false, if_true]

/-- The two units of a pair stand for their character. -/
theorem unitStep_pair (hc : 0x10000 ≤ c.toNat) :
    unitStep (0xDC00 + (c.toNat - 0x10000) % 1024)
        (some (0xD800 + (c.toNat - 0x10000) / 1024))
      = .bytes (Utf8.encodeChar c) .plain := by
  have hlow : isLow (0xDC00 + (c.toNat - 0x10000) % 1024) = true := by
    rw [isLow, Bool.and_eq_true, decide_eq_true_iff, decide_eq_true_iff]
    omega
  have hvalue : (0xD800 + (c.toNat - 0x10000) / 1024 - 0xD800) * 1024
      + (0xDC00 + (c.toNat - 0x10000) % 1024 - 0xDC00) + 0x10000 = c.toNat := by omega
  simp only [unitStep, hlow, if_true, hvalue, Char.ofNat_toNat]

/-- Bytes that are neither quotes nor backslashes nor control characters are
taken as they are. -/
theorem readBytes_plain {bs : Bytes} (h : ∀ b ∈ bs, b ≠ 0x22 ∧ b ≠ 0x5C ∧ ¬b < 0x20)
    (acc rest : Bytes) :
    readBytes .plain acc (bs ++ rest) = readBytes .plain (bs.reverse ++ acc) rest := by
  induction bs generalizing acc with
  | nil => rfl
  | cons b bs ih =>
    obtain ⟨hquote, hslash, hcontrol⟩ := h b List.mem_cons_self
    have hstep : textStep .plain b = .bytes [b] .plain := by
      simp only [textStep, if_neg hquote, if_neg hslash, if_neg hcontrol]
    rw [List.cons_append, readBytes, hstep]
    show readBytes .plain (b :: acc) (bs ++ rest) = _
    rw [ih fun d hd => h d (List.mem_cons_of_mem b hd), List.reverse_cons, List.append_assoc]
    rfl

/-- The bytes of a character that is written as it is. -/
theorem plain_of_mem_encodeChar {c : Char} (hquote : c.toNat ≠ 0x22) (hslash : c.toNat ≠ 0x5C)
    (hcontrol : ¬c.toNat < 0x20) :
    ∀ b ∈ Utf8.encodeChar c, b ≠ 0x22 ∧ b ≠ 0x5C ∧ ¬b < 0x20 := by
  intro b hb
  have hvalue : b.toNat ≠ 0x22 ∧ b.toNat ≠ 0x5C ∧ ¬b.toNat < 0x20 := by
    by_cases h : c.toNat < 0x80
    · rw [Utf8.encodeChar_ascii h, List.mem_singleton] at hb
      rw [hb, Bytes.toNat_byte (by omega)]
      exact ⟨hquote, hslash, hcontrol⟩
    · have := Utf8.le_of_mem_encodeChar h b hb
      omega
  refine ⟨?_, ?_, hvalue.2.2⟩
  · rintro rfl
    exact hvalue.1 rfl
  · rintro rfl
    exact hvalue.2.1 rfl

/-- A character is read from each of its spellings. -/
theorem readBytes_spelling (h : CharSpelling c bs) (acc rest : Bytes) :
    readBytes .plain acc (bs ++ rest)
      = readBytes .plain ((Utf8.encodeChar c).reverse ++ acc) rest := by
  cases h with
  | plain hcontrol hquote hslash =>
    have hne {d : Char} (hne : c ≠ d) : c.toNat ≠ d.toNat := fun heq => hne (Char.toNat_inj.1 heq)
    exact readBytes_plain (plain_of_mem_encodeChar (hne hquote) (hne hslash) (by omega)) acc rest
  | letter h =>
    simp only [letters, List.mem_cons, List.not_mem_nil, or_false, Prod.mk.injEq] at h
    rcases h with ⟨rfl, rfl⟩ | ⟨rfl, rfl⟩ | ⟨rfl, rfl⟩ | ⟨rfl, rfl⟩ | ⟨rfl, rfl⟩ | ⟨rfl, rfl⟩
      | ⟨rfl, rfl⟩ | ⟨rfl, rfl⟩ <;> rfl
  | unit h => exact readBytes_unit h (unitStep_char h.lt) acc rest
  | @pair ds es hc hhigh hlow =>
    have hvalid := Utf8.char_toNat_valid c
    show readBytes (.hex 4 0 true none) acc ((ds ++ 0x5C :: 0x75 :: es) ++ rest) = _
    rw [List.append_assoc, readBytes_highUnit hhigh (unitStep_high (by omega))]
    exact readBytes_unit hlow (unitStep_pair hc) acc rest

-- ================================================================== texts

/-- The bytes are a spelling of the characters, each in some way. -/
inductive Spells : List Char → Bytes → Prop where
  | nil : Spells [] []
  | cons {c : Char} {cs : List Char} {bs rest : Bytes} (hc : CharSpelling c bs)
      (h : Spells cs rest) : Spells (c :: cs) (bs ++ rest)

/-- A spelling is read as its characters, up to what comes behind it. -/
theorem readBytes_spells {cs : List Char} (h : Spells cs bs) (acc rest : Bytes) :
    readBytes .plain acc (bs ++ rest)
      = readBytes .plain ((Utf8.encodeChars cs).reverse ++ acc) rest := by
  induction h generalizing acc with
  | nil => rfl
  | cons hc _ ih =>
    rw [List.append_assoc, readBytes_spelling hc, ih, Utf8.encodeChars_cons, List.reverse_append,
      List.append_assoc]

/-- A text is read from each of its spellings, up to the quote that ends its string. -/
theorem readText_spells {text : String} (h : Spells text.toList bs) (rest : Bytes) :
    readText (bs ++ 0x22 :: rest) = .ok (text, rest) := by
  have hread : readBytes .plain [] (bs ++ 0x22 :: rest)
      = .ok (Utf8.encodeChars text.toList, rest) := by
    rw [readBytes_spells h, readBytes, List.append_nil, List.reverse_reverse]
    rfl
  simp only [readText, hread, bind, Except.bind, Utf8.decode?_encodeChars, String.ofList_toList]
  rfl

-- ================================================================ writing

def hexByte (n : Nat) : UInt8 :=
  UInt8.ofNat (Bytes.hexDigit n).toNat

theorem encodeChar_hexDigit (h : n < 16) : Utf8.encodeChar (Bytes.hexDigit n) = [hexByte n] := by
  revert n
  decide +kernel

theorem hexDigit_hexByte (h : n < 16) : HexDigit n (hexByte n) := by
  have hdecimal : ∀ d < 10, hexByte d = UInt8.ofNat (0x30 + d) := by decide +kernel
  have hlower : ∀ d < 6, hexByte (10 + d) = UInt8.ofNat (0x61 + d) := by decide +kernel
  by_cases hten : n < 10
  · rw [hdecimal n hten]
    exact .decimal hten
  · obtain ⟨d, rfl⟩ := Nat.exists_eq_add_of_le (Nat.le_of_not_lt hten)
    have hd : d < 6 := by omega
    rw [hlower d hd]
    exact .lower hd

/-- A control character is written with the digits of its number. -/
theorem charSpelling_control (h : c.toNat < 0x20) :
    CharSpelling c (Utf8.encodeChars
      ['\\', 'u', '0', '0', Bytes.hexDigit (c.toNat / 16), Bytes.hexDigit (c.toNat % 16)]) := by
  have hbytes : Utf8.encodeChars
      ['\\', 'u', '0', '0', Bytes.hexDigit (c.toNat / 16), Bytes.hexDigit (c.toNat % 16)]
        = [0x5C, 0x75, 0x30, 0x30, hexByte (c.toNat / 16), hexByte (c.toNat % 16)] := by
    simp only [Utf8.encodeChars_cons, encodeChar_hexDigit (show c.toNat / 16 < 16 by omega),
      encodeChar_hexDigit (show c.toNat % 16 < 16 by omega)]
    rfl
  have hzero (n : Nat) (hn : n = 0) : HexDigit n 0x30 := hn ▸ .decimal (by decide)
  have hthird : c.toNat / 16 % 16 = c.toNat / 16 := by omega
  rw [hbytes]
  refine .unit (.four (hzero _ (by omega)) (hzero _ (by omega)) ?_ (hexDigit_hexByte (by omega)))
  rw [hthird]
  exact hexDigit_hexByte (by omega)

/-- What is written for a character is one of its spellings. -/
theorem charSpelling_escapeChar (c : Char) :
    CharSpelling c (Utf8.encodeChars (escapeChar c)) := by
  have hletter (b : UInt8) {n : Nat} (hb : (Char.ofNat n, b) ∈ letters) (h : c.toNat = n) :
      CharSpelling c [0x5C, b] := by
    rw [← h, Char.ofNat_toNat] at hb
    exact .letter hb
  unfold escapeChar
  -- seven characters have an escape of their own
  split
  case h_1 h => exact hletter 0x22 (by decide) h
  case h_2 h => exact hletter 0x5C (by decide) h
  case h_3 h => exact hletter 0x62 (by decide) h
  case h_4 h => exact hletter 0x74 (by decide) h
  case h_5 h => exact hletter 0x6E (by decide) h
  case h_6 h => exact hletter 0x66 (by decide) h
  case h_7 h => exact hletter 0x72 (by decide) h
  case h_8 hquote hslash _ _ _ _ _ =>
    split
    case isTrue h => exact charSpelling_control h
    case isFalse h =>
      have hone : Utf8.encodeChars [c] = Utf8.encodeChar c := List.append_nil _
      have hne {d : Char} (hd : c.toNat ≠ d.toNat) : c ≠ d := fun heq => hd (congrArg _ heq)
      rw [hone]
      exact .plain (by omega) (hne hquote) (hne hslash)

/-- What is written of a text is one of its spellings. -/
theorem spells_escaped (cs : List Char) : Spells cs (Utf8.encodeChars (cs.flatMap escapeChar)) := by
  induction cs with
  | nil => exact .nil
  | cons c cs ih =>
    rw [List.flatMap_cons, Utf8.encodeChars_append]
    exact .cons (charSpelling_escapeChar c) ih

/-- A string is its quotes around what is written for its characters. -/
theorem encodeChars_writeText (text : String) (rest : Bytes) :
    Utf8.encodeChars (writeText text) ++ rest
      = 0x22 :: (Utf8.encodeChars (text.toList.flatMap escapeChar) ++ 0x22 :: rest) := by
  rw [writeText, List.cons_append, Utf8.encodeChars_cons, Utf8.encodeChars_append,
    List.append_assoc, List.append_assoc]
  rfl

-- ================================================================== sizes

/-- An escape is of ASCII characters, of which there are at most six. -/
theorem length_escape_le {cs : List Char} (h : ∀ c ∈ cs, c.toNat < 0x80) (hlen : cs.length ≤ 6)
    (c : Char) : (Utf8.encodeChars cs).length ≤ 6 * (Utf8.encodeChar c).length := by
  obtain ⟨b, bs, hbytes, -⟩ := Utf8.encodeChar_spells c
  rw [Utf8.length_encodeChars_ascii h, hbytes, List.length_cons]
  omega

theorem hexDigit_ascii {n : Nat} (h : n < 16) : (Bytes.hexDigit n).toNat < 0x80 := by
  revert n
  decide +kernel

/-- No character takes more than six times its place in a string. -/
theorem length_escapeChar_le (c : Char) :
    (Utf8.encodeChars (escapeChar c)).length ≤ 6 * (Utf8.encodeChar c).length := by
  unfold escapeChar
  split
  case h_8 n _ _ _ _ _ _ _ =>
    split
    case isTrue h =>
      refine length_escape_le ?_ ?_ c
      · simp only [List.forall_mem_cons, hexDigit_ascii (show c.toNat / 16 < 16 by omega),
          hexDigit_ascii (show c.toNat % 16 < 16 by omega), List.not_mem_nil, false_imp_iff,
          implies_true, and_true]
        decide
      · exact Nat.le_refl 6
    case isFalse h =>
      have hone : Utf8.encodeChars [c] = Utf8.encodeChar c := List.append_nil _
      rw [hone]
      omega
  all_goals exact length_escape_le (Utf8.ascii_of_all (by decide)) (by decide) c

/-- A string takes at most six times the place of its text, and its quotes. -/
theorem length_writeText_le (text : String) :
    (Utf8.encodeChars (writeText text)).length ≤ 6 * Utf8.size text + 2 := by
  have hall (cs : List Char) : (Utf8.encodeChars (cs.flatMap escapeChar)).length
      ≤ 6 * (Utf8.encodeChars cs).length := by
    induction cs with
    | nil => exact Nat.le_refl 0
    | cons c cs ih =>
      have hc := length_escapeChar_le c
      rw [List.flatMap_cons, Utf8.encodeChars_append, Utf8.encodeChars_cons, List.length_append,
        List.length_append]
      omega
  have h := encodeChars_writeText text []
  rw [List.append_nil] at h
  rw [h, Utf8.size_eq_length, List.length_cons, List.length_append, List.length_singleton]
  have := hall text.toList
  omega

end Enrollment.Json
