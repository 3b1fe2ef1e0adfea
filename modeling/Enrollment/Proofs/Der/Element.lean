/-
Elements: what is written is read back.

`readElement_write` is the streaming round trip: an element in front of
any other bytes is read as itself and leaves just those bytes.  Every
reader of one element inherits it.

The reader is more lenient than the writer, so there is no converse:
a length may be read in a form that is never written.
-/
import Enrollment.Der.Value
import Enrollment.Proofs.Bytes

namespace Enrollment.Der

-- ================================================================== tags

theorem TagClass.ofBits_bits (cls : TagClass) : TagClass.ofBits cls.bits = cls := by
  cases cls <;> rfl

theorem TagClass.bits_le (cls : TagClass) : cls.bits ≤ 3 := by
  cases cls <;> decide

/-- The byte of a short tag as a number, in its three parts. -/
theorem Tag.toNat_byte {tag : Tag} (h : tag.number < 31) :
    tag.byte.toNat = tag.cls.bits * 64 + tag.constructed.toNat * 32 + tag.number := by
  have hcls := tag.cls.bits_le
  have hflag : (if tag.constructed then 32 else 0) = tag.constructed.toNat * 32 := by
    cases tag.constructed <;> rfl
  have hbit := Bool.toNat_le tag.constructed
  rw [Tag.byte, UInt8.toNat_ofNat', hflag]
  omega

/-- A tag is read back. -/
theorem readTag_byte {tag : Tag} (h : tag.number < 31) (rest : Bytes) :
    readTag (tag.byte :: rest) = some (tag, rest) := by
  have hbyte := Tag.toNat_byte h
  have hbit := Bool.toNat_le tag.constructed
  have hcls : tag.byte.toNat / 64 = tag.cls.bits := by omega
  have hflag : tag.byte.toNat / 32 % 2 = tag.constructed.toNat := by omega
  have hnumber : tag.byte.toNat % 32 = tag.number := by omega
  have hconstructed : decide (tag.constructed.toNat = 1) = tag.constructed := by
    cases tag.constructed <;> rfl
  simp only [readTag, hcls, hflag, hnumber, TagClass.ofBits_bits, hconstructed]
  rw [if_neg (by omega)]
  rfl

-- ================================================================ lengths

/-- A length in its shortest form is read back. -/
theorem readLength_writeLength {n : Nat} (h : n < 2 ^ 64) (rest : Bytes) :
    readLength (writeLength n ++ rest) = some (n, rest) := by
  unfold writeLength
  split
  case isTrue hn =>
    have hb : (UInt8.ofNat n).toNat = n := Bytes.toNat_byte (by omega)
    simp only [List.singleton_append, readLength, hb, if_pos hn]
  case isFalse hn =>
    have hle := Bytes.digitCount_le_eight h
    have hpos : 0 < Bytes.digitCount n := Bytes.digitCount_pos (by omega)
    have hb : (UInt8.ofNat (128 + Bytes.digitCount n)).toNat = 128 + Bytes.digitCount n :=
      Bytes.toNat_byte (by omega)
    have htake : (Bytes.minimal n ++ rest).take (Bytes.digitCount n) = Bytes.minimal n := by
      rw [← Bytes.length_minimal, List.take_left]
    have hdrop : (Bytes.minimal n ++ rest).drop (Bytes.digitCount n) = rest := by
      rw [← Bytes.length_minimal, List.drop_left]
    simp only [List.cons_append, readLength, Bytes.length_minimal, hb, Nat.add_sub_cancel_left,
      htake, hdrop, Bytes.toNat_minimal]
    rw [if_neg (by omega), if_neg (by omega)]

/-- A tag and a length are read back. -/
theorem readHeader_write {t : Tag} {n : Nat} (ht : t.number < 31) (hn : n < 2 ^ 64)
    (rest : Bytes) : readHeader (t.byte :: writeLength n ++ rest) = some ((t, n), rest) := by
  unfold readHeader
  rw [List.cons_append, readTag_byte ht]
  simp only [Option.bind_eq_bind, Option.bind_some, readLength_writeLength hn]
  rfl

-- =============================================================== elements

theorem taken_append (front rest : Bytes) : taken (front ++ rest) rest = front := by
  unfold taken
  rw [List.length_append, Nat.add_sub_cancel, List.take_left]

/-- An element is longer than its contents. -/
theorem length_lt_write (t : Tag) (c : Bytes) : c.length < (write t c).length := by
  rw [write, List.length_append, List.length_cons]
  omega

/-- Longer contents make no shorter element. -/
theorem length_write_mono {c d : Bytes} (h : c.length ≤ d.length) (t : Tag) :
    (write t c).length ≤ (write t d).length := by
  have hlength : (writeLength c.length).length ≤ (writeLength d.length).length := by
    have hdigits := Bytes.digitCount_mono h
    unfold writeLength
    by_cases hshort : c.length < 128
    · rw [if_pos hshort]
      split
      · exact Nat.le_refl _
      · exact Nat.le_add_left _ _
    · rw [if_neg hshort, if_neg (by omega)]
      simp only [List.length_cons, Bytes.length_minimal]
      omega
  simp only [write, List.length_append, List.length_cons]
  omega

/-- A part of a sequence is shorter than the sequence. -/
theorem length_lt_sequence {parts : List Bytes} {part : Bytes} (h : part ∈ parts) :
    part.length < (sequence parts).length :=
  Nat.lt_of_le_of_lt (List.sublist_flatten_of_mem h).length_le (length_lt_write _ _)

/-- An element in front of other bytes is read as itself. -/
theorem readElement_write {t : Tag} {c : Bytes} (ht : t.number < 31) (hc : c.length < 2 ^ 64)
    (rest : Bytes) : readElement (write t c ++ rest) = some (⟨t, c, write t c⟩, rest) := by
  have hhead : readHeader (write t c ++ rest) = some ((t, c.length), c ++ rest) := by
    rw [write, List.append_assoc]
    exact readHeader_write ht hc (c ++ rest)
  unfold readElement
  simp only [hhead, Option.bind_eq_bind, Option.bind_some, List.take_left, List.drop_left,
    Nat.lt_irrefl, if_false, taken_append]
  rfl

/-- The contents of an element are told by its bytes. -/
theorem contents_eq_of_write_eq {t : Tag} {c d : Bytes} (ht : t.number < 31)
    (hc : c.length < 2 ^ 64) (hd : d.length < 2 ^ 64) (h : write t c = write t d) : c = d := by
  have hread := readElement_write ht hc []
  rw [h, readElement_write ht hd] at hread
  cases hread
  rfl

/-- An element with a number below thirty-one is read back. -/
theorem readNumbered_write {t : Tag} {c : Bytes} (ht : t.number < 31) (hc : c.length < 2 ^ 64)
    (rest : Bytes) :
    readNumbered t.number (write t c ++ rest) = some (⟨t, c, write t c⟩, rest) := by
  simp only [readNumbered, readElement_write ht hc, Option.bind_eq_bind, Option.bind_some,
    if_true]

/-- So is one that holds no others. -/
theorem readPrimitive_write {number : Nat} {c : Bytes} (hn : number < 31) (hc : c.length < 2 ^ 64)
    (rest : Bytes) :
    readPrimitive number (write (.primitive number) c ++ rest)
      = some (⟨.primitive number, c, write (.primitive number) c⟩, rest) := by
  have hread : readNumbered number (write (.primitive number) c ++ rest) = some (_, rest) :=
    readNumbered_write (t := .primitive number) hn hc rest
  unfold readPrimitive
  rw [hread]
  rfl

theorem readOctets_octets {c : Bytes} (h : c.length < 2 ^ 64) (rest : Bytes) :
    readOctets (octets c ++ rest) = some (c, rest) := by
  unfold readOctets octets
  rw [readPrimitive_write (by decide) h]
  rfl

theorem readObjectId_objectId {id : ObjectId} (h : id.contents.length < 2 ^ 64) (rest : Bytes) :
    readObjectId (objectId id ++ rest) = some (id, rest) := by
  unfold readObjectId objectId
  rw [readElement_write (by decide) h]
  rfl

theorem readNumbered_sequence {parts : List Bytes} (hc : parts.flatten.length < 2 ^ 64)
    (rest : Bytes) :
    readNumbered TagNumber.sequence (sequence parts ++ rest)
      = some (⟨.compound TagNumber.sequence, parts.flatten, sequence parts⟩, rest) :=
  readNumbered_write (t := .compound TagNumber.sequence) (by decide) hc rest

/-- A reader inside a sequence sees what was written into it. -/
theorem readSequence_sequence {α : Type} (inside : Reader α) {parts : List Bytes}
    (hc : parts.flatten.length < 2 ^ 64) (rest : Bytes) :
    readSequence inside (sequence parts ++ rest)
      = (inside parts.flatten).map fun found => (found.1, rest) := by
  simp only [readSequence, readInside, readNumbered_sequence hc, Option.bind_eq_bind,
    Option.bind_some]
  cases inside parts.flatten <;> rfl

/-- What was read in a sequence was read from its parts. -/
theorem readSequence_eq_some {α : Type} {inside : Reader α} {parts : List Bytes}
    (hc : parts.flatten.length < 2 ^ 64) {rest left : Bytes} {a : α}
    (h : readSequence inside (sequence parts ++ rest) = some (a, left)) :
    left = rest ∧ ∃ more, inside parts.flatten = some (a, more) := by
  rw [readSequence_sequence inside hc] at h
  obtain ⟨⟨found, more⟩, hfound, hpair⟩ := Option.map_eq_some_iff.1 h
  cases hpair
  exact ⟨rfl, more, hfound⟩

/-- The whole bytes of a bit string are read back. -/
theorem readBits_bits {contents : Bytes} (h : contents.length + 1 < 2 ^ 64) (rest : Bytes) :
    readBits (bits contents ++ rest) = some (contents, rest) := by
  have hread := readNumbered_write (t := .primitive TagNumber.bitString)
    (c := 0 :: contents) (by decide) h rest
  have hbits : bitsOf? (0 :: contents) = some contents := by
    simp only [bitsOf?]
    cases hl : contents.getLast? with
    | none => rw [List.getLast?_eq_none_iff.1 hl]; rfl
    | some last =>
      simp only [UInt8.toNat_zero, Nat.pow_zero, Nat.mod_one]
      rfl
  simp only [readBits, readPrimitive, bits, Tag.primitive] at hread ⊢
  simp only [hread, Option.bind_eq_bind, Option.bind_some, Bool.false_eq_true, if_false, hbits]
  rfl

end Enrollment.Der
