/-
Authentication codes: which keys give the same code.

A key enters a code only by its block.  Two keys have one block exactly when
they are the same up to zero bytes at the end, once a key that is longer than
a block has been replaced by its hash (`blockKey_eq_iff`).  Keys with
different blocks give the same code of a message only where SHA-256 has a
collision, and then the two colliding inputs are known (`code_eq_iff`).

That no two keys should ever give the same code is more than any code of
fixed length can do: there are more keys than codes (`exists_code_eq`).
-/
import Enrollment.Hash.Hmac
import Enrollment.Proofs.Bytes
import Mathlib.Data.Finset.Card
import Mathlib.Data.List.DropRight

namespace Enrollment

-- ================================================================ lengths

theorem Sha2.State.length_bytes {w : Nat} (s : Sha2.State w) : s.bytes.length = 8 * (w / 8) := by
  simp only [Sha2.State.bytes, Sha2.State.toList, List.flatMap_cons, List.flatMap_nil,
    List.length_append, Bytes.length_ofNat, List.length_nil]
  omega

theorem length_sha256 (message : Bytes) : (sha256 message).length = 32 :=
  Sha2.State.length_bytes _

namespace Hmac

variable {key key' message : Bytes}

/-- The key as it is, or its hash if it is longer than a block. -/
def shortKey (key : Bytes) : Bytes :=
  if key.length ≤ blockSize then key else sha256 key

theorem length_shortKey_le (key : Bytes) : (shortKey key).length ≤ blockSize := by
  unfold shortKey
  split
  case isTrue h => exact h
  case isFalse =>
    rw [length_sha256]
    decide

-- ================================================================= blocks

/-- The key without the zero bytes at its end. -/
def strippedKey (key : Bytes) : Bytes :=
  (shortKey key).rdropWhile (· == 0)

/-- More zeros at the end do not count where zeros at the end are taken off. -/
theorem rdropWhile_append_zeros (bs : Bytes) (n : Nat) :
    (bs ++ List.replicate n 0).rdropWhile (· == 0) = bs.rdropWhile (· == 0) := by
  induction n with
  | zero => rw [List.replicate_zero, List.append_nil]
  | succ n ih =>
    rw [List.replicate_succ', ← List.append_assoc, List.rdropWhile_concat_pos _ _ _ rfl, ih]

/-- A string is what is left without its last zero bytes, and as many zeros. -/
theorem exists_zeros (bs : Bytes) :
    ∃ n, bs = bs.rdropWhile (· == 0) ++ List.replicate n 0 := by
  refine ⟨(bs.rtakeWhile (· == 0)).length, ?_⟩
  have hzeros : bs.rtakeWhile (· == 0) = List.replicate (bs.rtakeWhile (· == 0)).length 0 :=
    List.eq_replicate_iff.2 ⟨rfl, fun b hb =>
      beq_iff_eq.1 (List.mem_rtakeWhile_imp (p := (· == 0)) hb)⟩
  rw [← hzeros, List.rdropWhile_append_rtakeWhile]

/-- The key for a block is the short key, filled up with zeros. -/
theorem blockKey_eq (key : Bytes) :
    blockKey key = shortKey key ++ List.replicate (blockSize - (shortKey key).length) 0 :=
  rfl

theorem length_blockKey (key : Bytes) : (blockKey key).length = blockSize := by
  have h := length_shortKey_le key
  rw [blockKey_eq, List.length_append, List.length_replicate]
  omega

/-- A block is filled up with zeros, whether or not the last zeros of the key are
taken off first. -/
theorem blockKey_eq_stripped (key : Bytes) :
    blockKey key
      = strippedKey key ++ List.replicate (blockSize - (strippedKey key).length) 0 := by
  obtain ⟨n, hn⟩ := exists_zeros (shortKey key)
  have hshort := length_shortKey_le key
  have hlength := congrArg List.length hn
  rw [List.length_append, List.length_replicate] at hlength
  rw [blockKey_eq]
  unfold strippedKey
  -- the zeros that were taken off are put back with the others
  conv_lhs => rw [hn]
  rw [List.append_assoc, List.replicate_append_replicate, List.length_append, List.length_replicate]
  congr 2
  omega

/-- Keys have one block if they are the same up to zero bytes at the end. -/
theorem blockKey_eq_iff : blockKey key = blockKey key' ↔ strippedKey key = strippedKey key' := by
  constructor
  · intro h
    rw [blockKey_eq, blockKey_eq] at h
    have hstripped := congrArg (List.rdropWhile (· == 0)) h
    rwa [rdropWhile_append_zeros, rdropWhile_append_zeros] at hstripped
  · intro h
    rw [blockKey_eq_stripped, blockKey_eq_stripped key', h]

-- ================================================================== codes

/-- The bytes of which a code is the hash. -/
def outerInput (key message : Bytes) : Bytes :=
  (blockKey key).map (· ^^^ 0x5c) ++ sha256 ((blockKey key).map (· ^^^ 0x36) ++ message)

/-- A code is a hash of the outer input. -/
theorem code_eq (key message : Bytes) : code key message = sha256 (outerInput key message) :=
  rfl

/-- Bytes that are hashed for two codes of a message, are different and have the
same hash. -/
def Collides (key key' message : Bytes) : Prop :=
  outerInput key message ≠ outerInput key' message
    ∧ sha256 (outerInput key message) = sha256 (outerInput key' message)

/-- A pad takes no two bytes to the same one. -/
theorem xor_injective (pad : UInt8) : Function.Injective (· ^^^ pad) := by
  intro a b h
  have hcancel := congrArg (· ^^^ pad) h
  simpa only [UInt8.xor_assoc, UInt8.xor_self, UInt8.xor_zero] using hcancel

/-- The bytes that are hashed start with the block. -/
theorem outerInput_eq_iff (message : Bytes) :
    outerInput key message = outerInput key' message ↔ blockKey key = blockKey key' := by
  constructor
  · intro h
    have hlength : ((blockKey key).map (· ^^^ (0x5c : UInt8))).length
        = ((blockKey key').map (· ^^^ (0x5c : UInt8))).length := by
      rw [List.length_map, List.length_map, length_blockKey, length_blockKey]
    have hblock := (List.append_inj h hlength).1
    exact List.map_injective_iff.2 (xor_injective 0x5c) hblock
  · intro h
    rw [outerInput, outerInput, h]

/-- Two keys give the same code of a message exactly when they are the same up to
zero bytes at the end, or there is a collision. -/
theorem code_eq_iff :
    code key message = code key' message
      ↔ strippedKey key = strippedKey key' ∨ Collides key key' message := by
  rw [code_eq, code_eq, ← blockKey_eq_iff, ← outerInput_eq_iff message]
  constructor
  · intro h
    by_cases hsame : outerInput key message = outerInput key' message
    · exact .inl hsame
    · exact .inr ⟨hsame, h⟩
  · rintro (h | ⟨-, h⟩)
    · rw [h]
    · exact h

-- =============================================================== counting

/-- A key for each number, without a zero byte at its end. -/
def numberedKey (n : Nat) : Bytes :=
  Bytes.ofNat 33 n ++ [1]

theorem strippedKey_numberedKey (n : Nat) : strippedKey (numberedKey n) = numberedKey n := by
  have hshort : shortKey (numberedKey n) = numberedKey n := by
    refine if_pos ?_
    rw [numberedKey, List.length_append, Bytes.length_ofNat]
    decide
  rw [strippedKey, hshort]
  exact List.rdropWhile_concat_neg _ _ _ (by decide)

/-- Numbers that are small enough have keys of their own. -/
theorem numberedKey_injOn {n n' : Nat} (hn : n < 256 ^ 33) (hn' : n' < 256 ^ 33)
    (h : numberedKey n = numberedKey n') : n = n' := by
  have hdigits := congrArg Bytes.toNat (List.append_cancel_right h)
  rwa [Bytes.toNat_ofNat, Bytes.toNat_ofNat, Nat.mod_eq_of_lt hn, Nat.mod_eq_of_lt hn'] at hdigits

/-- For every message there are keys that are not the same up to zero bytes and
give the same code of it. -/
theorem exists_code_eq (message : Bytes) :
    ∃ key key' : Bytes, key ≠ [] ∧ key' ≠ [] ∧ strippedKey key ≠ strippedKey key'
      ∧ code key message = code key' message := by
  -- one key more than there are codes
  have hcard : (Finset.range (256 ^ 32)).card < (Finset.range (256 ^ 32 + 1)).card := by
    rw [Finset.card_range, Finset.card_range]
    exact Nat.lt_succ_self _
  have hlength : ∀ n, (code (numberedKey n) message).length = 32 := fun n => length_sha256 _
  have hmaps : ∀ n ∈ Finset.range (256 ^ 32 + 1),
      Bytes.toNat (code (numberedKey n) message) ∈ Finset.range (256 ^ 32) := by
    intro n _
    have hlt := Bytes.toNat_lt (code (numberedKey n) message)
    rw [hlength] at hlt
    exact Finset.mem_range.2 hlt
  obtain ⟨n, hn, n', hn', hne, hsame⟩ :=
    Finset.exists_ne_map_eq_of_card_lt_of_maps_to hcard hmaps
  have hroom : 256 ^ 32 + 1 ≤ 256 ^ 33 := by decide
  refine ⟨numberedKey n, numberedKey n', by simp [numberedKey], by simp [numberedKey], ?_, ?_⟩
  · rw [strippedKey_numberedKey, strippedKey_numberedKey]
    exact fun h => hne (numberedKey_injOn (Nat.lt_of_lt_of_le (Finset.mem_range.1 hn) hroom)
      (Nat.lt_of_lt_of_le (Finset.mem_range.1 hn') hroom) h)
  · rw [← Bytes.ofNat_toNat (code (numberedKey n) message),
      ← Bytes.ofNat_toNat (code (numberedKey n') message), hlength, hlength, hsame]

end Hmac

end Enrollment
