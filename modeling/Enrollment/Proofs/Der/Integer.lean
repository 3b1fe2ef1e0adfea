/-
Integers: the contents that are written for a natural number.

There is one way to write a number: with the sign bit clear, and with no byte more than
that takes (`Encodes`).  `encodes_contentsOf` says that it is the one that is written, for
all numbers; a number below half the place of so many bytes needs no more than these
(`length_contentsOf_le`), since the byte of zeros is put in front only where the first
digit has its highest bit set.
-/
import Enrollment.Proofs.Der.Element

namespace Enrollment.Der

/-- Contents of an integer that are minimal: of more than one byte, the first nine bits are
not all alike. -/
def IsMinimal : Bytes → Prop
  | [] => False
  | [_] => True
  | a :: b :: _ => ¬(a = 0 ∧ b < 128) ∧ ¬(a = 255 ∧ 128 ≤ b)

/-- Contents that are those of a number: minimal, with the sign bit clear, and of its value. -/
structure Encodes (contents : Bytes) (n : Nat) : Prop where
  minimal : IsMinimal contents
  first_lt : ∀ b ∈ contents.head?, b < 128
  value : Bytes.toNat contents = n

theorem Encodes.length_pos {contents : Bytes} {n : Nat} (h : Encodes contents n) :
    1 ≤ contents.length := by
  have hminimal := h.minimal
  cases contents with
  | nil => exact hminimal.elim
  | cons b bs => exact Nat.le_add_left 1 bs.length

/-- The contents that are written for a number. -/
def contentsOf (n : Nat) : Bytes :=
  match Bytes.minimal n with
  | [] => [0]
  | b :: bs => if 128 ≤ b then 0 :: b :: bs else b :: bs

/-- A number is written with as few bytes as it needs. -/
theorem natural_eq (n : Nat) :
    natural n = write (.primitive TagNumber.integer) (contentsOf n) := by
  unfold natural contentsOf
  cases Bytes.minimal n <;> rfl

/-- What is written for a number spells it. -/
theorem encodes_contentsOf (n : Nat) : Encodes (contentsOf n) n := by
  unfold contentsOf
  have hvalue := Bytes.toNat_minimal n
  cases hdigits : Bytes.minimal n with
  | nil =>
    rw [hdigits] at hvalue
    exact ⟨trivial, fun b hb => by cases hb; decide, hvalue⟩
  | cons b bs =>
    have hne := Bytes.ne_zero_of_minimal_eq_cons hdigits
    rw [hdigits] at hvalue
    dsimp only
    by_cases hhigh : 128 ≤ b
    · -- a byte of zeros keeps the sign bit clear
      rw [if_pos hhigh]
      refine ⟨⟨fun h => UInt8.not_lt.2 hhigh h.2, fun h => absurd h.1 (by decide)⟩,
        fun first hfirst => ?_, ?_⟩
      · cases hfirst
        decide
      · rw [Bytes.toNat_cons, UInt8.toNat_zero, Nat.zero_mul, Nat.zero_add, hvalue]
    · rw [if_neg hhigh]
      have hlow := UInt8.not_le.1 hhigh
      refine ⟨?_, fun first hfirst => ?_, hvalue⟩
      · cases bs with
        | nil => trivial
        | cons c bs =>
          refine ⟨fun h => hne h.1, fun h => ?_⟩
          rw [h.1] at hlow
          exact absurd hlow (by decide)
      · cases hfirst
        exact hlow

/-- No two numbers are written alike. -/
theorem contentsOf_injective {m n : Nat} (h : contentsOf m = contentsOf n) : m = n := by
  rw [← (encodes_contentsOf m).value, h, (encodes_contentsOf n).value]

/-- A number below half the place of so many bytes is written in so many. -/
theorem length_contentsOf_le {n width : Nat} (h : n < 2 ^ (8 * width + 7)) :
    (contentsOf n).length ≤ width + 1 := by
  have hpow : 2 ^ (8 * width + 7) = 128 * 256 ^ width := by
    rw [Nat.pow_add, Nat.pow_mul, Nat.mul_comm]
  rw [hpow] at h
  unfold contentsOf
  cases hdigits : Bytes.minimal n with
  | nil => exact Nat.le_add_left 1 width
  | cons b bs =>
    have hcount : Bytes.digitCount n = bs.length + 1 := by
      rw [← Bytes.length_minimal, hdigits, List.length_cons]
    dsimp only
    split
    case isTrue hhigh =>
      have hvalue := Bytes.toNat_minimal n
      rw [hdigits, Bytes.toNat_cons] at hvalue
      have hfirst : 128 * 256 ^ bs.length ≤ b.toNat * 256 ^ bs.length :=
        Nat.mul_le_mul_right _ (UInt8.le_iff_toNat_le.1 hhigh)
      have hlt : bs.length < width :=
        (Nat.pow_lt_pow_iff_right (a := 256) (by decide)).1 (by omega)
      rw [List.length_cons, List.length_cons]
      omega
    case isFalse =>
      have hle := Bytes.pow_le_of_digitCount hcount
      have hlt : bs.length < width + 1 :=
        (Nat.pow_lt_pow_iff_right (a := 256) (by decide)).1 (by rw [Nat.pow_succ]; omega)
      rw [List.length_cons]
      omega

end Enrollment.Der
