/-
UTF-8: texts survive their encoding.

The two readers run one machine, so what a character does to the machine is
said once: `encodeChar_spells` follows the bytes of a character from the
first step to the one that completes it, through whichever narrowed range
its first byte calls for.  The round trips of the strict and of the lossy
reader are inductions over the characters with that one step.
-/
import Enrollment.Proofs.Bytes
import Enrollment.Text.Utf8

namespace Enrollment.Utf8

-- ========================================================= one character

/-- From a step on, do these bytes complete a character? -/
def Spells : Step → Bytes → Char → Prop
  | .char d, [], c => d = c
  | .pending p, b :: bs, c => Spells (next p b) bs c
  | _, _, _ => False

/-- The last byte of a character completes it. -/
theorem next_last {p : Pending} {n : Nat} (hn : n < 256) (hmore : p.more = 0)
    (hlow : p.low ≤ n) (hhigh : n ≤ p.high) :
    next p (UInt8.ofNat n) = .char (Char.ofNat (p.value * 64 + n % 64)) := by
  have hb := Bytes.toNat_byte hn
  simp only [next, hb]
  rw [if_pos ⟨hlow, hhigh⟩, hmore]

/-- Any other byte that continues a character leaves one less to come. -/
theorem next_more {p : Pending} {n more : Nat} (hn : n < 256) (hmore : p.more = more + 1)
    (hlow : p.low ≤ n) (hhigh : n ≤ p.high) :
    next p (UInt8.ofNat n) = .pending ⟨more, 0x80, 0xBF, p.value * 64 + n % 64⟩ := by
  have hb := Bytes.toNat_byte hn
  simp only [next, hb]
  rw [if_pos ⟨hlow, hhigh⟩, hmore]

theorem first_two {n : Nat} (hlow : 0xC2 ≤ n) (hhigh : n < 0xE0) :
    first (UInt8.ofNat n) = .pending ⟨0, 0x80, 0xBF, n - 0xC0⟩ := by
  have hb : (UInt8.ofNat n).toNat = n := Bytes.toNat_byte (by omega)
  simp only [first, hb]
  rw [if_neg (by omega), if_neg (by omega), if_pos hhigh]

/-- The first byte of a character of three bytes; the range of the second byte
leaves out overlong forms and surrogates. -/
theorem first_three {n : Nat} (hlow : 0xE0 ≤ n) (hhigh : n < 0xF0) :
    first (UInt8.ofNat n) = .pending ⟨1, if n = 0xE0 then 0xA0 else 0x80,
      if n = 0xED then 0x9F else 0xBF, n - 0xE0⟩ := by
  have hb : (UInt8.ofNat n).toNat = n := Bytes.toNat_byte (by omega)
  simp only [first, hb]
  rw [if_neg (by omega), if_neg (by omega), if_neg (by omega)]
  by_cases h0 : n = 0xE0
  · subst h0
    rfl
  · by_cases hd : n = 0xED
    · subst hd
      rfl
    · rw [if_neg h0, if_neg hd, if_pos hhigh, if_neg h0, if_neg hd]

/-- The first byte of a character of four bytes; the range of the second byte
leaves out overlong forms and what lies beyond the last character. -/
theorem first_four {n : Nat} (hlow : 0xF0 ≤ n) (hhigh : n ≤ 0xF4) :
    first (UInt8.ofNat n) = .pending ⟨2, if n = 0xF0 then 0x90 else 0x80,
      if n = 0xF4 then 0x8F else 0xBF, n - 0xF0⟩ := by
  have hcases : n = 0xF0 ∨ n = 0xF1 ∨ n = 0xF2 ∨ n = 0xF3 ∨ n = 0xF4 := by omega
  rcases hcases with rfl | rfl | rfl | rfl | rfl <;> rfl

/-- The number of a character is not one of a surrogate. -/
theorem char_toNat_valid (c : Char) :
    c.toNat < 0xD800 ∨ (0xDFFF < c.toNat ∧ c.toNat < 0x110000) := by
  have h := c.valid
  simp only [UInt32.isValidChar, Nat.isValidChar] at h
  exact h

/-- The bytes of a character lead the machine to it. -/
theorem encodeChar_spells (c : Char) :
    ∃ b bs, encodeChar c = b :: bs ∧ Spells (first b) bs c := by
  have hvalid := char_toNat_valid c
  have hc : Char.ofNat c.toNat = c := Char.ofNat_toNat c
  simp only [encodeChar]
  generalize c.toNat = n at hvalid hc
  -- one case for each length; what a range leaves out has a shorter form or is
  -- no character
  split
  case isTrue h1 =>
    refine ⟨_, _, rfl, ?_⟩
    have hb : (UInt8.ofNat n).toNat = n := Bytes.toNat_byte (by omega)
    simp only [first, hb]
    rw [if_pos h1]
    exact hc
  case isFalse h1 =>
    split
    case isTrue h2 =>
      refine ⟨_, _, rfl, ?_⟩
      rw [first_two (by omega) (by omega), Spells,
        next_last (by omega) rfl (by simp only; omega) (by simp only; omega), Spells, ← hc]
      congr 1
      simp only
      omega
    case isFalse h2 =>
      split
      case isTrue h3 =>
        refine ⟨_, _, rfl, ?_⟩
        rw [first_three (by omega) (by omega), Spells,
          next_more (by omega) rfl (by simp only; split <;> omega) (by simp only; split <;> omega),
          Spells, next_last (by omega) rfl (by simp only; omega) (by simp only; omega), Spells,
          ← hc]
        congr 1
        simp only
        omega
      case isFalse h3 =>
        refine ⟨_, _, rfl, ?_⟩
        rw [first_four (by omega) (by omega), Spells,
          next_more (by omega) rfl (by simp only; split <;> omega) (by simp only; split <;> omega),
          Spells, next_more (by omega) rfl (by simp only; omega) (by simp only; omega), Spells,
          next_last (by omega) rfl (by simp only; omega) (by simp only; omega), Spells, ← hc]
        congr 1
        simp only
        omega

-- ============================================================ round trips

theorem encodeChars_cons (c : Char) (cs : List Char) :
    encodeChars (c :: cs) = encodeChar c ++ encodeChars cs := rfl

theorem encodeChars_append (cs ds : List Char) :
    encodeChars (cs ++ ds) = encodeChars cs ++ encodeChars ds :=
  List.flatMap_append

/-- What both readers have in common: they go where the machine goes, and put the
characters it completes in front of those they hold. -/
structure Follows {γ : Type} (read : List Char → Option Pending → Bytes → γ) : Prop where
  first_char : ∀ {b c} acc rest, first b = .char c →
    read acc none (b :: rest) = read (c :: acc) none rest
  first_pending : ∀ {b p} acc rest, first b = .pending p →
    read acc none (b :: rest) = read acc (some p) rest
  next_char : ∀ {p b c} acc rest, next p b = .char c →
    read acc (some p) (b :: rest) = read (c :: acc) none rest
  next_pending : ∀ {p b q} acc rest, next p b = .pending q →
    read acc (some p) (b :: rest) = read acc (some q) rest

/-- The strict reader goes where the machine goes. -/
theorem decodeOnto_follows : Follows decodeOnto where
  first_char acc rest h := by rw [decodeOnto, h]
  first_pending acc rest h := by rw [decodeOnto, h]
  next_char acc rest h := by rw [decodeOnto, h]
  next_pending acc rest h := by rw [decodeOnto, h]

theorem decodeLossyOnto_follows : Follows decodeLossyOnto where
  first_char acc rest h := by rw [decodeLossyOnto, h]
  first_pending acc rest h := by rw [decodeLossyOnto, h]
  next_char acc rest h := by rw [decodeLossyOnto, h]
  next_pending acc rest h := by rw [decodeLossyOnto, h]

namespace Follows

variable {γ : Type} {read : List Char → Option Pending → Bytes → γ}

/-- The rest of a character that is spelled out. -/
theorem spells (hread : Follows read) {p : Pending} {bs : Bytes} {c : Char}
    (h : Spells (.pending p) bs c) (acc : List Char) (rest : Bytes) :
    read acc (some p) (bs ++ rest) = read (c :: acc) none rest := by
  induction bs generalizing p with
  | nil => exact h.elim
  | cons b bs ih =>
    rw [Spells] at h
    cases hstep : next p b with
    | char d =>
      -- complete, so these were its last bytes
      rw [hstep] at h
      cases bs with
      | nil =>
        cases h
        exact hread.next_char acc rest hstep
      | cons => exact h.elim
    | pending q =>
      rw [hstep] at h
      exact (hread.next_pending acc (bs ++ rest) hstep).trans (ih h)
    | refused =>
      rw [hstep] at h
      cases bs <;> exact h.elim

/-- A character in front of anything. -/
theorem encodeChar (hread : Follows read) (c : Char) (acc : List Char) (rest : Bytes) :
    read acc none (encodeChar c ++ rest) = read (c :: acc) none rest := by
  obtain ⟨b, bs, hbytes, hspells⟩ := encodeChar_spells c
  rw [hbytes, List.cons_append]
  cases hstep : first b with
  | char d =>
    rw [hstep] at hspells
    cases bs with
    | nil =>
      cases hspells
      exact hread.first_char acc rest hstep
    | cons => exact hspells.elim
  | pending p =>
    rw [hstep] at hspells
    exact (hread.first_pending acc (bs ++ rest) hstep).trans (hread.spells hspells acc rest)
  | refused =>
    rw [hstep] at hspells
    cases bs <;> exact hspells.elim

/-- Characters in front of anything. -/
theorem encodeChars (hread : Follows read) (cs acc : List Char) (rest : Bytes) :
    read acc none (encodeChars cs ++ rest) = read (cs.reverse ++ acc) none rest := by
  induction cs generalizing acc with
  | nil => rfl
  | cons c cs ih =>
    rw [encodeChars_cons, List.append_assoc, hread.encodeChar, ih, List.reverse_cons,
      List.append_assoc]
    rfl

end Follows

/-- What is encoded is decoded, character by character. -/
theorem decodeChars?_encodeChars (cs : List Char) : decodeChars? (encodeChars cs) = some cs := by
  have h := decodeOnto_follows.encodeChars cs [] []
  rw [List.append_nil, List.append_nil, decodeOnto, List.reverse_reverse] at h
  exact h

/-- A text is read back. -/
theorem decode?_encodeChars (cs : List Char) :
    decode? (encodeChars cs) = some (String.ofList cs) := by
  rw [decode?, decodeChars?_encodeChars]
  rfl

/-- Nothing is lost of a text by the lossy reader. -/
theorem decodeLossy_encodeChars (cs : List Char) :
    decodeLossy (encodeChars cs) = String.ofList cs := by
  have h := decodeLossyOnto_follows.encodeChars cs [] []
  rw [List.append_nil, List.append_nil, decodeLossyOnto, List.reverse_reverse] at h
  rw [decodeLossy, h]

-- ================================================================== sizes

theorem encodeChar_ascii {c : Char} (h : c.toNat < 0x80) :
    encodeChar c = [UInt8.ofNat c.toNat] := by
  simp only [encodeChar]
  rw [if_pos h]

/-- The bytes of any other character are not ASCII. -/
theorem le_of_mem_encodeChar {c : Char} (h : ¬c.toNat < 0x80) :
    ∀ b ∈ encodeChar c, 0x80 ≤ b.toNat := by
  have hvalid := char_toNat_valid c
  simp only [encodeChar]
  rw [if_neg h]
  repeat' split
  all_goals
    simp (disch := omega) only [List.mem_cons, List.not_mem_nil, or_false, forall_eq_or_imp,
      forall_eq, Bytes.toNat_byte]
    omega

theorem size_eq_length (s : String) : size s = (encodeChars s.toList).length :=
  rfl

theorem size_append (s t : String) : size (s ++ t) = size s + size t := by
  rw [size_eq_length, String.toList_append, encodeChars_append, List.length_append]
  rfl

theorem ascii_of_all {cs : List Char} (h : cs.all (·.toNat < 0x80) = true) :
    ∀ c ∈ cs, c.toNat < 0x80 :=
  fun c hc => of_decide_eq_true (List.all_eq_true.1 h c hc)

/-- ASCII characters take a byte each. -/
theorem length_encodeChars_ascii {cs : List Char} (h : ∀ c ∈ cs, c.toNat < 0x80) :
    (encodeChars cs).length = cs.length := by
  induction cs with
  | nil => rfl
  | cons c cs ih =>
    have hrest := ih fun d hd => h d (List.mem_cons_of_mem c hd)
    rw [encodeChars_cons, encodeChar_ascii (h c List.mem_cons_self), List.length_append, hrest,
      List.length_singleton, List.length_cons, Nat.add_comm]

end Enrollment.Utf8
