/-
The strict reader: what is written is read back by it, too.

It takes lengths of at most two bytes, in their shortest form, which is the
form that is written.  So elements with contents of less than 64 KiB pass
(`read_write`), and from there on a reader inside an element sees all that was
written into it (`readNested_write`).
-/
import Enrollment.Der.Strict
import Enrollment.Proofs.Der.Element

namespace Enrollment.Der.Strict

-- ================================================================ lengths

/-- A length from 128 to 255 takes one byte. -/
theorem digitCount_one {n : Nat} (h : 128 ≤ n) (hlt : n < 256) : Bytes.digitCount n = 1 := by
  have hlog : n.log2 < 8 := (Nat.log2_lt (by omega)).2 hlt
  rw [Bytes.digitCount, if_neg (by omega)]
  omega

theorem digitCount_two {n : Nat} (h : 256 ≤ n) (hlt : n < 65536) : Bytes.digitCount n = 2 := by
  have hlog : n.log2 < 16 := (Nat.log2_lt (by omega)).2 hlt
  have hle : 8 ≤ n.log2 := (Nat.le_log2 (by omega)).2 h
  rw [Bytes.digitCount, if_neg (by omega)]
  omega

/-- What is written as a length is read, up to two bytes of it. -/
theorem readLength_writeLength {n : Nat} (h : n < 65536) (rest : Bytes) :
    readLength (writeLength n ++ rest) = some (n, rest) := by
  -- by the number of digits after the first byte
  by_cases hshort : n < 128
  · have hbyte : (UInt8.ofNat n).toNat = n := Bytes.toNat_byte (by omega)
    have hlt : UInt8.ofNat n < 128 := UInt8.lt_iff_toNat_lt.2 (by rw [hbyte]; exact hshort)
    rw [writeLength, if_pos hshort, List.singleton_append, readLength.eq_def]
    dsimp only
    rw [if_pos hlt, hbyte]
  · by_cases hone : n < 256
    · have hbyte : (UInt8.ofNat n).toNat = n := Bytes.toNat_byte hone
      have hdigits : Bytes.minimal n = [UInt8.ofNat n] := by
        rw [Bytes.minimal, digitCount_one (by omega) hone]
        show [UInt8.ofNat (n % 256)] = _
        rw [Nat.mod_eq_of_lt hone]
      have hge : ¬UInt8.ofNat n < 128 := fun hlt => hshort (by
        have hlt := UInt8.lt_iff_toNat_lt.1 hlt
        rwa [hbyte] at hlt)
      rw [writeLength, if_neg hshort, hdigits]
      show (if UInt8.ofNat n < 128 then none else some ((UInt8.ofNat n).toNat, rest)) = _
      rw [if_neg hge, hbyte]
    · have hhigh : (UInt8.ofNat (n / 256)).toNat = n / 256 := Bytes.toNat_byte (by omega)
      have hlow : (UInt8.ofNat (n % 256)).toNat = n % 256 := Bytes.toNat_byte (by omega)
      have hdigits : Bytes.minimal n = [UInt8.ofNat (n / 256), UInt8.ofNat (n % 256)] := by
        rw [Bytes.minimal, digitCount_two (by omega) h]
        show [UInt8.ofNat (n / 256 % 256), UInt8.ofNat (n % 256)] = _
        rw [Nat.mod_eq_of_lt (by omega)]
      have hnumber : n / 256 * 256 + n % 256 = n := by omega
      rw [writeLength, if_neg hshort, hdigits]
      show (if (UInt8.ofNat (n / 256)).toNat * 256 + (UInt8.ofNat (n % 256)).toNat < 256 then none
        else some ((UInt8.ofNat (n / 256)).toNat * 256 + (UInt8.ofNat (n % 256)).toNat, rest)) = _
      rw [hhigh, hlow, hnumber, if_neg hone]

/-- A header of at most four bytes goes in front of short contents. -/
theorem length_write_le (t : Tag) {c : Bytes} (hc : c.length < 65536) :
    (write t c).length ≤ c.length + 4 := by
  have hdigits : (writeLength c.length).length ≤ 3 := by
    rw [writeLength]
    split
    · exact Nat.le_of_ble_eq_true rfl
    · rename_i hlong
      rw [List.length_cons, Bytes.length_minimal]
      by_cases hone : c.length < 256
      · have hdigits := digitCount_one (by omega) hone
        omega
      · have hdigits := digitCount_two (by omega) hc
        omega
  rw [write, List.length_append, List.length_cons]
  omega

-- =============================================================== elements

variable {t : Tag} {c : Bytes}

/-- An element in front of other bytes is read as its contents. -/
theorem read_write (ht : t.number < 31) (hc : c.length < 65536) (rest : Bytes) :
    read t.byte (write t c ++ rest) = some (c, rest) := by
  have hbyte := Tag.toNat_byte ht
  have hnumber : t.byte.toNat % 32 ≠ 31 := by omega
  rw [read, write, List.append_assoc, List.cons_append, readAny, if_neg hnumber]
  simp only [readLength_writeLength hc, Option.bind_eq_bind, Option.bind_some, List.take_left,
    List.drop_left, Nat.lt_irrefl, if_false]
  exact if_pos rfl

/-- The next element is not one with another tag. -/
theorem readIf_write_ne {tag : UInt8} (h : t.byte ≠ tag) (rest : Bytes) :
    readIf tag (write t c ++ rest) = some (none, write t c ++ rest) := by
  have hhead : (write t c ++ rest).head? ≠ some tag := fun hhead => h (Option.some.inj hhead)
  rw [readIf, if_neg hhead]

/-- An element that holds others is read when they are read as a whole. -/
theorem readNested_write {α : Type} (ht : t.number < 31) (hc : c.length < 65536)
    {inside : Reader α} {a : α} (h : whole? inside c = some a) (rest : Bytes) :
    readNested t.byte inside (write t c ++ rest) = some (a, rest) := by
  simp only [readNested, read_write ht hc, h, Option.bind_eq_bind, Option.bind_some]
  rfl

-- ================================================================= values

/-- A number is read from its contents. -/
theorem readNatural_of_contents {n : Nat} (hc : c.length < 65536) (h : natural? c = some n)
    (rest : Bytes) : readNatural (write (.primitive TagNumber.integer) c ++ rest)
      = some (n, rest) := by
  have hread : read integerTag (write (.primitive TagNumber.integer) c ++ rest) = some (c, rest) :=
    read_write (t := .primitive TagNumber.integer) (by decide) hc rest
  simp only [readNatural, hread, h, Option.bind_eq_bind, Option.bind_some]
  rfl

theorem readNatural_zero (rest : Bytes) : readNatural (natural 0 ++ rest) = some (0, rest) :=
  readNatural_of_contents (c := [0]) (by decide) (by decide) rest

theorem readNatural_one (rest : Bytes) : readNatural (natural 1 ++ rest) = some (1, rest) :=
  readNatural_of_contents (c := [1]) (by decide) (by decide) rest

/-- Octets are read back. -/
theorem readOctets_octets (hc : c.length < 65536) (rest : Bytes) :
    read octetStringTag (octets c ++ rest) = some (c, rest) :=
  read_write (t := .primitive TagNumber.octetString) (by decide) hc rest

/-- The parts of a sequence are read back. -/
theorem readSequence_sequence {parts : List Bytes} (hc : parts.flatten.length < 65536)
    (rest : Bytes) : read sequenceTag (sequence parts ++ rest) = some (parts.flatten, rest) :=
  read_write (t := .compound TagNumber.sequence) (by decide) hc rest

theorem readBits_bits (hc : c.length + 1 < 65536) (rest : Bytes) :
    readBits (bits c ++ rest) = some (c, rest) := by
  have hread : read bitStringTag (bits c ++ rest) = some (0 :: c, rest) :=
    read_write (t := .primitive TagNumber.bitString) (c := 0 :: c) (by decide) hc rest
  simp only [readBits, hread, Option.bind_eq_bind, Option.bind_some]
  rfl

/-- What is read off the front of bytes with nothing behind is all of them. -/
theorem whole?_of_read {α : Type} {reader : Reader α} {bs : Bytes} {a : α}
    (h : reader (bs ++ []) = some (a, [])) : whole? reader bs = some a := by
  rw [List.append_nil] at h
  rw [whole?, h]

end Enrollment.Der.Strict
