/-
Numbers and their base-256 digits: reading the digits that were written
gives the number back, as far as there is room for it.

`toNat_ofNat` holds at every width and says what is cut off;
`toNat_minimal` has no loss, since `digitCount` leaves room for every
digit, and none of them is wasted: the first is not zero
(`ne_zero_of_minimal_eq_cons`).  Digits in base 16 come in pairs, so they
tell the bytes apart (`toHex_injective`).
-/
import Enrollment.Bytes
import Mathlib.Data.List.Induction

namespace Enrollment.Bytes

-- ================================================================ digits

theorem toNat_byte {n : Nat} (h : n < 256) : (UInt8.ofNat n).toNat = n := by
  rw [UInt8.toNat_ofNat', Nat.mod_eq_of_lt h]

/-- One more digit at the right end is one more step of the number. -/
theorem toNat_append_singleton (bs : Bytes) (b : UInt8) :
    toNat (bs ++ [b]) = toNat bs * 256 + b.toNat := by
  unfold toNat
  rw [List.foldl_append]
  rfl

/-- One more digit at the left end has the place of all that follow it. -/
theorem toNat_cons (b : UInt8) (bs : Bytes) :
    toNat (b :: bs) = b.toNat * 256 ^ bs.length + toNat bs := by
  induction bs using List.reverseRecOn with
  | nil => rw [List.length_nil, Nat.pow_zero, Nat.mul_one, toNat, List.foldl_cons, Nat.zero_mul,
      Nat.zero_add]; rfl
  | append_singleton bs last ih =>
    rw [← List.cons_append, toNat_append_singleton, toNat_append_singleton, ih,
      List.length_append, List.length_singleton, Nat.pow_succ, Nat.add_mul, Nat.mul_assoc,
      Nat.add_assoc]

/-- The accumulator of `ofNatOnto` is only ever a tail. -/
theorem ofNatOnto_eq_append (width n : Nat) (acc : Bytes) :
    ofNatOnto width n acc = ofNat width n ++ acc := by
  induction width generalizing n acc with
  | zero => rfl
  | succ width ih =>
    unfold ofNat
    rw [ofNatOnto, ofNatOnto, ih, ih (n / 256) [_], List.append_assoc]
    rfl

theorem ofNat_succ (width n : Nat) :
    ofNat (width + 1) n = ofNat width (n / 256) ++ [UInt8.ofNat (n % 256)] := by
  rw [ofNat, ofNatOnto, ofNatOnto_eq_append]

@[simp] theorem length_ofNat (width n : Nat) : (ofNat width n).length = width := by
  induction width generalizing n with
  | zero => rfl
  | succ width ih => rw [ofNat_succ, List.length_append, ih, List.length_singleton]

/-- Digits that were written spell the number modulo the room there was. -/
theorem toNat_ofNat (width n : Nat) : toNat (ofNat width n) = n % 256 ^ width := by
  induction width generalizing n with
  | zero => rw [Nat.pow_zero, Nat.mod_one]; rfl
  | succ width ih =>
    -- what is cut off the higher digits is cut off the number
    have hlast : (UInt8.ofNat (n % 256)).toNat = n % 256 := toNat_byte (by omega)
    rw [ofNat_succ, toNat_append_singleton, ih, hlast, Nat.pow_succ, Nat.mul_comm (256 ^ width),
      Nat.mod_mul]
    omega

/-- The number that digits spell has these digits. -/
theorem ofNat_toNat (bs : Bytes) : ofNat bs.length (toNat bs) = bs := by
  induction bs using List.reverseRecOn with
  | nil => rfl
  | append_singleton bs b ih =>
    have hb : b.toNat < 256 := b.toNat_lt
    have hdiv : (toNat bs * 256 + b.toNat) / 256 = toNat bs := by omega
    have hmod : (toNat bs * 256 + b.toNat) % 256 = b.toNat := by omega
    rw [toNat_append_singleton, List.length_append, List.length_singleton, ofNat_succ, hdiv, hmod,
      ih, UInt8.ofNat_toNat]

/-- A string of bytes is a number below the power of 256 for its length. -/
theorem toNat_lt (bs : Bytes) : toNat bs < 256 ^ bs.length := by
  have h := toNat_ofNat bs.length (toNat bs)
  rw [ofNat_toNat] at h
  rw [h]
  exact Nat.mod_lt _ (Nat.pow_pos (by decide))

/-- The digits of a number are below its place, whatever the base. -/
theorem foldl_digits_lt {base : Nat} {digits : List Nat} (h : ∀ d ∈ digits, d < base) :
    digits.foldl (fun n d => n * base + d) 0 < base ^ digits.length := by
  induction digits using List.reverseRecOn with
  | nil => exact Nat.one_pos
  | append_singleton digits d ih =>
    have hfront := ih fun e he => h e (List.mem_append_left _ he)
    have hlast := h d List.mem_concat_self
    rw [List.foldl_append, List.length_append, List.length_singleton, Nat.pow_succ]
    simp only [List.foldl_cons, List.foldl_nil]
    calc digits.foldl (fun n d => n * base + d) 0 * base + d
        < (digits.foldl (fun n d => n * base + d) 0 + 1) * base := by
          rw [Nat.add_one_mul]
          omega
      _ ≤ base ^ digits.length * base := Nat.mul_le_mul_right base hfront

-- =============================================================== minimal

/-- The digits that are counted leave room for the number. -/
theorem lt_pow_digitCount (n : Nat) : n < 256 ^ digitCount n := by
  unfold digitCount
  split
  case isTrue h => omega
  case isFalse h =>
    have hlog : n < 2 ^ (n.log2 + 1) := Nat.lt_log2_self
    have hle : 2 ^ (n.log2 + 1) ≤ 2 ^ (8 * (n.log2 / 8 + 1)) :=
      Nat.pow_le_pow_right (by omega) (by omega)
    calc n < 2 ^ (8 * (n.log2 / 8 + 1)) := Nat.lt_of_lt_of_le hlog hle
      _ = 256 ^ (n.log2 / 8 + 1) := by rw [Nat.pow_mul]

/-- A number without leading zeros is read back whole. -/
@[simp] theorem toNat_minimal (n : Nat) : toNat (minimal n) = n := by
  unfold minimal
  rw [toNat_ofNat, Nat.mod_eq_of_lt (lt_pow_digitCount n)]

@[simp] theorem length_minimal (n : Nat) : (minimal n).length = digitCount n :=
  length_ofNat _ _

/-- A number of 64 bits has at most eight digits. -/
theorem digitCount_le_eight {n : Nat} (h : n < 2 ^ 64) : digitCount n ≤ 8 := by
  unfold digitCount
  split
  case isTrue => omega
  case isFalse hn =>
    have : n.log2 < 64 := (Nat.log2_lt hn).2 h
    omega

/-- A greater number has no fewer digits. -/
theorem digitCount_mono {m n : Nat} (h : m ≤ n) : digitCount m ≤ digitCount n := by
  unfold digitCount
  split
  case isTrue => exact Nat.zero_le _
  case isFalse hm =>
    have hn : n ≠ 0 := by omega
    have hlog : m.log2 ≤ n.log2 := (Nat.le_log2 hn).2 (Nat.le_trans (Nat.log2_self_le hm) h)
    rw [if_neg hn]
    omega

theorem digitCount_pos {n : Nat} (h : n ≠ 0) : 0 < digitCount n := by
  unfold digitCount
  rw [if_neg h]
  omega

/-- A number that has so many digits is not less than the place of the first. -/
theorem pow_le_of_digitCount {n count : Nat} (h : digitCount n = count + 1) :
    256 ^ count ≤ n := by
  unfold digitCount at h
  split at h
  case isTrue => cases h
  case isFalse hn =>
    calc 256 ^ count = 2 ^ (8 * count) := by rw [Nat.pow_mul]
      _ ≤ 2 ^ n.log2 := Nat.pow_le_pow_right (by omega) (by omega)
      _ ≤ n := Nat.log2_self_le hn

/-- The first digit of a number that is not zero is not zero. -/
theorem ne_zero_of_minimal_eq_cons {n : Nat} {b : UInt8} {bs : Bytes}
    (h : minimal n = b :: bs) : b ≠ 0 := by
  rintro rfl
  have hvalue : toNat bs = n := by
    rw [← toNat_minimal n, h, toNat_cons, UInt8.toNat_zero, Nat.zero_mul, Nat.zero_add]
  have hlength : digitCount n = bs.length + 1 := by
    rw [← length_minimal, h, List.length_cons]
  have hlt : n < 256 ^ bs.length := hvalue ▸ toNat_lt bs
  exact absurd (pow_le_of_digitCount hlength) (Nat.not_le.2 hlt)

-- =========================================================== hexadecimal

theorem hexDigit_injective : ∀ m < 16, ∀ n < 16, hexDigit m = hexDigit n → m = n := by
  decide

/-- Each byte is written as two hexadecimal digits. -/
theorem toHex_cons (b : UInt8) (bs : Bytes) :
    (toHex (b :: bs)).toList
      = hexDigit (b.toNat / 16) :: hexDigit (b.toNat % 16) :: (toHex bs).toList := by
  rw [toHex, toHex, String.toList_ofList, String.toList_ofList, List.flatMap_cons]
  rfl

/-- Bytes are told by their hexadecimal digits. -/
theorem toHex_injective : Function.Injective toHex := by
  intro as bs h
  have hchars : (toHex as).toList = (toHex bs).toList := congrArg String.toList h
  clear h
  induction as generalizing bs with
  | nil =>
    cases bs with
    | nil => rfl
    | cons b bs =>
      rw [toHex_cons] at hchars
      cases hchars
  | cons a as ih =>
    cases bs with
    | nil =>
      rw [toHex_cons] at hchars
      cases hchars
    | cons b bs =>
      have ha := a.toNat_lt
      have hb := b.toNat_lt
      rw [toHex_cons, toHex_cons] at hchars
      obtain ⟨hhigh, hrest⟩ := List.cons.inj hchars
      obtain ⟨hlow, hrest⟩ := List.cons.inj hrest
      have hhigh := hexDigit_injective _ (by omega) _ (by omega) hhigh
      have hlow := hexDigit_injective _ (by omega) _ (by omega) hlow
      rw [UInt8.toNat_inj.1 (show a.toNat = b.toNat by omega), ih hrest]

end Enrollment.Bytes
