/-
Public keys: the encoding stands for the key.

`encodePublic_read` reads back what a kind of key is written as.  The
converse that matters is `eq_of_encoded_eq`: the reader keeps as encoding
whatever bytes it took, in any lenient form and without what it left in the
sequence, yet two keys whose encodings agree byte for byte are the same
key.  It holds because a header states how long its element is, so an
encoding that was cut short never passes for a whole one.
-/
import Enrollment.Key.Kind
import Enrollment.Proofs.Der.Reader

namespace Enrollment

open Der

-- ================================================================ readers

theorem AlgorithmId.read_readsOne : ReadsOne AlgorithmId.read :=
  readSequence_readsOne _

namespace PublicKeyInfo

/-- What stands inside the sequence of a public key. -/
def readInner : Reader (AlgorithmId × Bytes) := fun bs => do
  let (algorithm, bs) ← AlgorithmId.read bs
  let (key, bs) ← readBits bs
  return ((algorithm, key), bs)

/-- A key as the algorithm and the bits inside its sequence. -/
theorem read_eq (bs : Bytes) :
    read bs = (readSpanned TagNumber.sequence readInner bs).map fun found =>
      (⟨found.1.1.1, found.1.1.2, found.1.2⟩, found.2) := by
  show Option.bind (readSpanned TagNumber.sequence readInner bs) _ = _
  cases readSpanned TagNumber.sequence readInner bs <;> rfl

theorem read_readsOne : ReadsOne read :=
  (readSpanned_readsOne TagNumber.sequence readInner).judged
    (j := fun found => some ⟨found.1.1, found.1.2, found.2⟩) fun bs => by
      rw [read_eq]
      cases readSpanned TagNumber.sequence readInner bs <;> rfl

/-- A key is what stands inside the sequence, and its encoding the sequence
without what is left in it. -/
theorem read_eq_some {bs rest : Bytes} {k : PublicKeyInfo} (h : read bs = some (k, rest)) :
    ∃ e left, readNumbered TagNumber.sequence bs = some (e, rest)
      ∧ readInner e.contents = some ((k.algorithm, k.key), left)
      ∧ k.encoded = e.encoded.take (e.encoded.length - left.length) := by
  rw [read_eq] at h
  obtain ⟨⟨⟨⟨algorithm, key⟩, encoded⟩, after⟩, hspan, hk⟩ := Option.map_eq_some_iff.1 h
  simp only [readSpanned, Option.bind_eq_bind] at hspan
  obtain ⟨⟨e, tail⟩, he, hin⟩ := Option.bind_eq_some_iff.1 hspan
  obtain ⟨⟨inner, left⟩, hinner, hpair⟩ := Option.bind_eq_some_iff.1 hin
  cases hpair
  cases hk
  exact ⟨e, left, he, hinner, rfl⟩

/-- What stands inside finds its end. -/
theorem readInner_findsEnd : FindsEnd readInner :=
  AlgorithmId.read_readsOne.findsEnd.bind fun algorithm =>
    readBits_readsOne.findsEnd.bind fun key => .pure (algorithm, key)

end PublicKeyInfo

-- ================================================================= labels

namespace KeyKind

/-- The algorithm that a kind of key is labelled with. -/
def keyAlgorithm : KeyKind → AlgorithmId
  | .ec curve =>
    ⟨KeyId.ecPublicKey, some ⟨.primitive TagNumber.objectId, curve.objectId.contents,
      objectId curve.objectId⟩⟩
  | .ed25519 => ⟨SignatureId.ed25519, none⟩
  | .rsa => ⟨KeyId.rsaEncryption, some ⟨.primitive TagNumber.null, [], null⟩⟩

/-- The label of a kind of key is read back. -/
theorem read_label (kind : KeyKind) :
    AlgorithmId.read (Der.sequence kind.labelParts) = some (kind.keyAlgorithm, []) := by
  cases kind with
  | ec curve => cases curve <;> decide +kernel
  | ed25519 => decide +kernel
  | rsa => decide +kernel

theorem isElement_label (kind : KeyKind) : IsElement (Der.sequence kind.labelParts) := by
  refine isElement_write (by decide) ?_
  cases kind with
  | ec curve => cases curve <;> decide +kernel
  | ed25519 => decide +kernel
  | rsa => decide +kernel

end KeyKind

-- ============================================================== encodings

namespace KeyKind

variable {kind : KeyKind} {key : Bytes}

theorem length_key_lt : key.length + 1 < (kind.encodePublic key).length := by
  have hbits := length_lt_write (.primitive TagNumber.bitString) (0 :: key)
  have hall := length_lt_write (.compound TagNumber.sequence)
    [Der.sequence kind.labelParts, bits key].flatten
  simp only [List.flatten_cons, List.flatten_nil, List.length_append, List.length_cons,
    List.length_nil, bits, encodePublic, Der.sequence] at hbits hall ⊢
  omega

/-- A written key is one element, with its label and its bits inside. -/
theorem readNumbered_encodePublic (h : (kind.encodePublic key).length < 2 ^ 64) (rest : Bytes) :
    readNumbered TagNumber.sequence (kind.encodePublic key ++ rest)
      = some (⟨.compound TagNumber.sequence, Der.sequence kind.labelParts ++ bits key,
          kind.encodePublic key⟩, rest) := by
  have hlen := length_lt_write (.compound TagNumber.sequence)
    [Der.sequence kind.labelParts, bits key].flatten
  have hread := readNumbered_write (t := .compound TagNumber.sequence) (by decide)
    (Nat.lt_trans hlen h) rest
  simp only [List.flatten_cons, List.flatten_nil, List.append_nil] at hread
  simp only [encodePublic, Der.sequence, List.flatten_cons, List.flatten_nil, List.append_nil]
  exact hread

/-- Inside a written key stand its algorithm and its bits. -/
theorem readInner_encodePublic (h : (kind.encodePublic key).length < 2 ^ 64) :
    PublicKeyInfo.readInner (Der.sequence kind.labelParts ++ bits key)
      = some ((kind.keyAlgorithm, key), []) := by
  have hbits : readBits (bits key) = some (key, []) := by
    have hread := readBits_bits (Nat.lt_trans length_key_lt h) []
    rw [List.append_nil] at hread
    exact hread
  have hlabel := AlgorithmId.read_readsOne.append kind.isElement_label (bits key)
  rw [kind.read_label] at hlabel
  simp only [PublicKeyInfo.readInner, hlabel, Option.map_some, Option.bind_eq_bind,
    Option.bind_some, hbits]
  rfl

/-- A public key is written as one element. -/
theorem isElement_encodePublic (h : (kind.encodePublic key).length < 2 ^ 64) :
    IsElement (kind.encodePublic key) :=
  isElement_sequence h

/-- A key is read back from its encoding. -/
theorem encodePublic_read (h : (kind.encodePublic key).length < 2 ^ 64) (rest : Bytes) :
    PublicKeyInfo.read (kind.encodePublic key ++ rest)
      = some (⟨kind.keyAlgorithm, key, kind.encodePublic key⟩, rest) := by
  rw [PublicKeyInfo.read_eq]
  simp only [readSpanned, readNumbered_encodePublic h, Option.bind_eq_bind, Option.bind_some,
    readInner_encodePublic h, List.length_nil, Nat.sub_zero, List.take_length]
  rfl

end KeyKind

namespace PublicKeyInfo

/-- The encoding of a key starts with a header that is read the same in front of
anything, and the rest of it alone is read as the key. -/
theorem encoded_parts {bs rest : Bytes} {k : PublicKeyInfo} (h : read bs = some (k, rest)) :
    ∃ header front, k.encoded = header ++ front
      ∧ readInner front = some ((k.algorithm, k.key), [])
      ∧ ∃ found, ∀ other, readHeader (header ++ other) = some (found, other) := by
  obtain ⟨e, left, hnumbered, hinner, hencoded⟩ := read_eq_some h
  obtain ⟨front, hcontents, hsame⟩ := readInner_findsEnd _ _ _ hinner
  have helement := (readNumbered_eq_some hnumbered).1
  obtain ⟨header, -, hwhole, hheader⟩ := readElement_parts helement
  refine ⟨header, front, ?_, ?_, _, hheader⟩
  · rw [hencoded, hwhole, hcontents, ← List.append_assoc, List.length_append,
      Nat.add_sub_cancel, List.take_left]
  · have halone := hsame []
    rw [List.append_nil] at halone
    exact halone

/-- Keys with one encoding are one key. -/
theorem eq_of_encoded_eq {bs bs' rest rest' : Bytes} {k k' : PublicKeyInfo}
    (h : read bs = some (k, rest)) (h' : read bs' = some (k', rest'))
    (heq : k.encoded = k'.encoded) : k = k' := by
  obtain ⟨header, front, hparts, hinner, found, hheader⟩ := encoded_parts h
  obtain ⟨header', front', hparts', hinner', found', hheader'⟩ := encoded_parts h'
  -- one encoding has one header, so what follows it is the same as well
  have hfront : front = front' := by
    have hread := hheader front
    rw [← hparts, heq, hparts', hheader'] at hread
    cases hread
    rfl
  rw [hfront, hinner'] at hinner
  obtain ⟨algorithm, key, encoded⟩ := k
  obtain ⟨algorithm', key', encoded'⟩ := k'
  cases hinner
  cases heq
  rfl

end PublicKeyInfo

end Enrollment
