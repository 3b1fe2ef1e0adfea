/-
The names and the public key among the fields of a certificate that was read,
whoever made it: they were read from bytes inside the certificate, so what is
known of names and of public keys applies, and the key is no longer than the
certificate.
-/
import Enrollment.Certificate.Fields
import Enrollment.Proofs.Certificate.PublicKey

namespace Enrollment

open Der

-- ================================================================ readers

/-- A name is read from its own bytes. -/
theorem Name.read_readsOne : ReadsOne Name.read :=
  (readSpanned_readsOne TagNumber.sequence fun bs => some (readMany readSet bs)).judged
    (j := fun found => some ⟨found.1, found.2⟩) fun bs => by
      unfold Name.read
      cases readSpanned _ _ bs <;> rfl

theorem Certificate.Fields.readValidity_readsOne :
    ReadsOne Certificate.Fields.readValidity :=
  readSequence_readsOne _

-- ============================================================ what is left

/-- A reader that never leaves more than it was given. -/
def Der.Shrinks {α : Type} (read : Reader α) : Prop :=
  ∀ (bs : Bytes) (a : α) (rest : Bytes), read bs = some (a, rest) → rest.length ≤ bs.length

/-- What finds its end leaves no more than it was given. -/
theorem Der.FindsEnd.shrinks {α : Type} {read : Reader α} (h : FindsEnd read) : Shrinks read := by
  intro bs a rest hread
  obtain ⟨front, rfl, -⟩ := h bs a rest hread
  rw [List.length_append]
  omega

/-- The end of an element of indefinite length lies inside the input. -/
theorem Der.afterEnd_shrinks {opened : Nat} {bs after : Bytes}
    (h : afterEnd opened bs = some after) : after.length ≤ bs.length := by
  fun_induction afterEnd opened bs with
  | case1 =>
    cases h
    exact Nat.le_refl _
  | case2 => cases h
  | case3 => cases h
  | case4 _ _ _ _ _ hlt _ ih => exact Nat.le_trans (ih h) (Nat.le_of_lt hlt)
  | case5 _ _ _ _ _ hlt _ ih => exact Nat.le_trans (ih h) (Nat.le_of_lt hlt)
  | case6 _ _ _ _ _ hlt _ ih => exact Nat.le_trans (ih h) (Nat.le_of_lt hlt)
  | case7 => cases h

theorem Der.readIndefinite_shrinks : Shrinks readIndefinite := by
  intro bs e rest h
  simp only [readIndefinite, Option.bind_eq_bind] at h
  obtain ⟨⟨tag, inside⟩, htag, h⟩ := Option.bind_eq_some_iff.1 h
  have hle := readTag_findsEnd.shrinks _ _ _ htag
  simp only at h
  split at h
  · split at h
    · cases h
    · obtain ⟨after, hafter, h⟩ := Option.bind_eq_some_iff.1 h
      cases h
      have := afterEnd_shrinks hafter
      rw [List.length_cons] at hle
      omega
  · cases h

/-- Reading an element in either form leaves no more than there was. -/
theorem Der.readLoose_shrinks : Shrinks readLoose := by
  intro bs e rest h
  rw [readLoose] at h
  split at h
  · rename_i found hfound
    cases h
    exact readElement_findsEnd.shrinks _ _ _ hfound
  · exact readIndefinite_shrinks _ _ _ h

/-- The contents of an element lie inside the input. -/
theorem Der.readNumbered_contents_le {number : Nat} {bs rest : Bytes} {e : Element}
    (h : readNumbered number bs = some (e, rest)) : e.contents.length ≤ bs.length := by
  obtain ⟨header, rfl, -⟩ := readElement_parts (readNumbered_eq_some h).1
  rw [List.length_append, List.length_append]
  omega

theorem Der.readTagged?_shrinks {α : Type} (number : Nat) (inside : Bytes → Option α) :
    Shrinks (readTagged? number inside) := by
  intro bs a rest h
  simp only [readTagged?, Option.bind_eq_bind] at h
  split at h
  · cases h
    exact Nat.le_refl _
  · obtain ⟨⟨e, after⟩, helement, h⟩ := Option.bind_eq_some_iff.1 h
    have hle := readElement_findsEnd.shrinks _ _ _ helement
    simp only at h
    split at h
    · cases h
      exact Nat.le_refl _
    · split at h
      · cases h
      · obtain ⟨found, -, h⟩ := Option.bind_eq_some_iff.1 h
        cases h
        exact hle

-- ============================================================= public key

/-- The encoding of a key is part of the bytes it was read from. -/
theorem PublicKeyInfo.length_encoded_le {bs rest : Bytes} {k : PublicKeyInfo}
    (h : read bs = some (k, rest)) : k.encoded.length ≤ bs.length := by
  obtain ⟨e, left, hnumbered, -, hencoded⟩ := read_eq_some h
  obtain ⟨header, hbs, hwhole, -⟩ := readElement_parts (readNumbered_eq_some hnumbered).1
  rw [hencoded, List.length_take, hbs, ← hwhole, List.length_append]
  omega

namespace Certificate.Fields

theorem readVersion_shrinks : Shrinks readVersion := by
  intro bs version rest h
  simp only [readVersion, Option.bind_eq_bind] at h
  obtain ⟨⟨found, after⟩, hfound, h⟩ := Option.bind_eq_some_iff.1 h
  cases h
  exact readTagged?_shrinks _ _ _ _ _ hfound

theorem readSerial_shrinks : Shrinks readSerial := by
  intro bs serial rest h
  simp only [readSerial, Option.bind_eq_bind] at h
  obtain ⟨⟨e, after⟩, helement, h⟩ := Option.bind_eq_some_iff.1 h
  simp only at h
  split at h
  · cases h
    exact readLoose_shrinks _ _ _ helement
  · cases h

/-- The fields are read one behind the other from the contents of an element, which is what
is signed. -/
structure InPart (f : Fields) (part : Element) : Prop where
  fields : ∃ b1 b2 b3 b4 b5 b6 b7 b8 b9, readVersion part.contents = some (f.version, b1)
    ∧ readSerial b1 = some (f.serial, b2) ∧ AlgorithmId.read b2 = some (f.innerAlgorithm, b3)
    ∧ Name.read b3 = some (f.issuer, b4) ∧ readValidity b4 = some ((f.notBefore, f.notAfter), b5)
    ∧ Name.read b5 = some (f.subject, b6) ∧ PublicKeyInfo.read b6 = some (f.publicKey, b7)
    ∧ skipUniqueId 1 b7 = some b8 ∧ skipUniqueId 2 b8 = some b9
    ∧ readExtensions b9 = some f.extensions
  signed : f.signed = ⟨part.encoded, f.innerAlgorithm, []⟩

/-- The signed part is read exactly when its fields are, in order, from one sequence. -/
theorem readSignedPart_eq_some_iff {bs rest : Bytes} {f : Fields} :
    readSignedPart bs = some (f, rest)
      ↔ ∃ part, readNumbered TagNumber.sequence bs = some (part, rest) ∧ f.InPart part := by
  simp only [readSignedPart, Option.bind_eq_bind]
  constructor
  · intro h
    obtain ⟨⟨part, after⟩, hpart, h⟩ := Option.bind_eq_some_iff.1 h
    obtain ⟨⟨version, b1⟩, hversion, h⟩ := Option.bind_eq_some_iff.1 h
    obtain ⟨⟨serial, b2⟩, hserial, h⟩ := Option.bind_eq_some_iff.1 h
    obtain ⟨⟨inner, b3⟩, hinner, h⟩ := Option.bind_eq_some_iff.1 h
    obtain ⟨⟨issuer, b4⟩, hissuer, h⟩ := Option.bind_eq_some_iff.1 h
    obtain ⟨⟨⟨start, stop⟩, b5⟩, hvalidity, h⟩ := Option.bind_eq_some_iff.1 h
    obtain ⟨⟨subject, b6⟩, hsubject, h⟩ := Option.bind_eq_some_iff.1 h
    obtain ⟨⟨key, b7⟩, hkey, h⟩ := Option.bind_eq_some_iff.1 h
    obtain ⟨b8, hfirst, h⟩ := Option.bind_eq_some_iff.1 h
    obtain ⟨b9, hsecond, h⟩ := Option.bind_eq_some_iff.1 h
    obtain ⟨extensions, hextensions, h⟩ := Option.bind_eq_some_iff.1 h
    cases h
    exact ⟨part, hpart, ⟨b1, b2, b3, b4, b5, b6, b7, b8, b9, hversion, hserial, hinner, hissuer,
      hvalidity, hsubject, hkey, hfirst, hsecond, hextensions⟩, rfl⟩
  · rintro ⟨part, hpart, ⟨b1, b2, b3, b4, b5, b6, b7, b8, b9, hversion, hserial, hinner, hissuer,
      hvalidity, hsubject, hkey, hfirst, hsecond, hextensions⟩, hsigned⟩
    simp only [hpart, hversion, hserial, hinner, hissuer, hvalidity, hsubject, hkey, hfirst,
      hsecond, hextensions, Option.bind_some, ← hsigned]
    rfl

/-- The names and the key of a certificate were read one behind the other from bytes
inside it. -/
theorem parts_of_read {der rest : Bytes} {f : Fields} (h : read der = some (f, rest)) :
    ∃ bs window afterIssuer afterWindow afterSubject left, bs.length ≤ der.length
      ∧ Name.read bs = some (f.issuer, afterIssuer)
      ∧ readValidity afterIssuer = some (window, afterWindow)
      ∧ Name.read afterWindow = some (f.subject, afterSubject)
      ∧ PublicKeyInfo.read afterSubject = some (f.publicKey, left) := by
  simp only [read, readSequence, readInside, Option.bind_eq_bind] at h
  obtain ⟨⟨outer, after⟩, houter, h⟩ := Option.bind_eq_some_iff.1 h
  obtain ⟨⟨whole, left⟩, hwhole, h⟩ := Option.bind_eq_some_iff.1 h
  obtain ⟨⟨fields, b1⟩, hsigned, hwhole⟩ := Option.bind_eq_some_iff.1 hwhole
  obtain ⟨⟨algorithm, b2⟩, -, hwhole⟩ := Option.bind_eq_some_iff.1 hwhole
  obtain ⟨⟨signature, b3⟩, -, hwhole⟩ := Option.bind_eq_some_iff.1 hwhole
  cases h
  cases hwhole
  obtain ⟨part, hpart, hin⟩ := readSignedPart_eq_some_iff.1 hsigned
  obtain ⟨c1, c2, c3, c4, c5, c6, c7, -, -, h1, h2, h3, h4, h5, h6, h7, -⟩ := hin.fields
  refine ⟨c3, _, c4, c5, c6, c7, ?_, h4, h5, h6, h7⟩
  -- each field leaves no more than it was given, down from the contents
  calc c3.length ≤ c2.length := AlgorithmId.read_readsOne.findsEnd.shrinks _ _ _ h3
    _ ≤ c1.length := readSerial_shrinks _ _ _ h2
    _ ≤ part.contents.length := readVersion_shrinks _ _ _ h1
    _ ≤ outer.contents.length := readNumbered_contents_le hpart
    _ ≤ der.length := readNumbered_contents_le houter

/-- The key of a certificate was read from bytes inside it. -/
theorem publicKey_of_read {der rest : Bytes} {f : Fields} (h : read der = some (f, rest)) :
    ∃ bs left, PublicKeyInfo.read bs = some (f.publicKey, left) ∧ bs.length ≤ der.length := by
  obtain ⟨bs, window, c4, c5, c6, left, hle, hissuer, hwindow, hsubject, hkey⟩ := parts_of_read h
  refine ⟨c6, left, hkey, ?_⟩
  calc c6.length ≤ c5.length := Name.read_readsOne.findsEnd.shrinks _ _ _ hsubject
    _ ≤ c4.length := readValidity_readsOne.findsEnd.shrinks _ _ _ hwindow
    _ ≤ bs.length := Name.read_readsOne.findsEnd.shrinks _ _ _ hissuer
    _ ≤ der.length := hle

/-- So were the names of a certificate. -/
theorem names_of_read {der rest : Bytes} {f : Fields} (h : read der = some (f, rest)) :
    (∃ bs left, Name.read bs = some (f.issuer, left))
      ∧ ∃ bs left, Name.read bs = some (f.subject, left) := by
  obtain ⟨bs, window, afterIssuer, afterWindow, afterSubject, left, -, hissuer, -, hsubject, -⟩ :=
    parts_of_read h
  exact ⟨⟨bs, afterIssuer, hissuer⟩, afterWindow, afterSubject, hsubject⟩

end Certificate.Fields

end Enrollment
