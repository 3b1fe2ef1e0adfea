/-
Readers: what they take and what they depend on.

A reader `FindsEnd` when what it reads would be read the same in front of
anything else: headers and elements do, so the bytes of an element are its
own.  A reader that `ReadsOne` looks at the first element of its input and
at nothing after it.  Both hold of whatever input there is, written by
this library or not.

With `of_append` a reading of parts in a row comes apart into readings of
each part alone, which is how the fields of a certificate are traced back
to what was written.
-/
import Enrollment.Der.Indefinite
import Enrollment.Proofs.Der.Element

namespace Enrollment.Der

-- =========================================================== finding ends

/-- A reader that finds its own end: what it reads is the same in front of
anything else. -/
def FindsEnd {α : Type} (read : Reader α) : Prop :=
  ∀ (bs : Bytes) (a : α) (rest : Bytes), read bs = some (a, rest) →
    ∃ front, bs = front ++ rest ∧ ∀ other, read (front ++ other) = some (a, other)

/-- Readers that find their ends, one after the other. -/
theorem FindsEnd.bind {α β : Type} {read : Reader α} {next : α → Reader β}
    (hread : FindsEnd read) (hnext : ∀ a, FindsEnd (next a)) :
    FindsEnd fun bs => (read bs).bind fun found => next found.1 found.2 := by
  intro bs b rest h
  obtain ⟨⟨a, middle⟩, hfirst, hsecond⟩ := Option.bind_eq_some_iff.1 h
  obtain ⟨front, rfl, hfront⟩ := hread _ _ _ hfirst
  obtain ⟨back, rfl, hback⟩ := hnext a _ _ _ hsecond
  refine ⟨front ++ back, by rw [List.append_assoc], fun other => ?_⟩
  simp only [List.append_assoc, hfront, Option.bind_some]
  exact hback other

/-- Reading nothing finds its end at once. -/
theorem FindsEnd.pure {α : Type} (a : α) : FindsEnd fun bs => some (a, bs) := by
  intro bs b rest h
  cases h
  exact ⟨[], rfl, fun _ => rfl⟩

theorem readLongNumber_findsEnd (left number : Nat) : FindsEnd (readLongNumber left number) := by
  intro bs a rest h
  induction left generalizing number bs with
  | zero => cases h
  | succ left ih =>
    cases bs with
    | nil => cases h
    | cons b bs =>
      rw [readLongNumber] at h
      split at h
      case isTrue hb =>
        cases h
        exact ⟨[b], rfl, fun other => by rw [List.singleton_append, readLongNumber, if_pos hb]⟩
      case isFalse hb =>
        obtain ⟨front, rfl, hfront⟩ := ih _ _ h
        refine ⟨b :: front, rfl, fun other => ?_⟩
        rw [List.cons_append, readLongNumber, if_neg hb]
        exact hfront other

theorem readTag_findsEnd : FindsEnd readTag := by
  intro bs tag rest h
  cases bs with
  | nil => cases h
  | cons b bs =>
    simp only [readTag, Option.bind_eq_bind] at h
    split at h
    case isTrue hlong =>
      obtain ⟨⟨number, after⟩, hnumber, hrest⟩ := Option.bind_eq_some_iff.1 h
      cases hrest
      obtain ⟨front, rfl, hfront⟩ := readLongNumber_findsEnd 5 0 _ _ _ hnumber
      refine ⟨b :: front, rfl, fun other => ?_⟩
      simp only [List.cons_append, readTag, hlong, if_true, hfront, Option.bind_eq_bind,
        Option.bind_some]
      rfl
    case isFalse hshort =>
      cases h
      refine ⟨[b], rfl, fun other => ?_⟩
      simp only [List.singleton_append, readTag, hshort, if_false]
      rfl

theorem readLength_findsEnd : FindsEnd readLength := by
  intro bs n rest h
  cases bs with
  | nil => cases h
  | cons b bs =>
    simp only [readLength] at h
    split at h
    case isTrue hshort =>
      cases h
      exact ⟨[b], rfl, fun other => by simp only [List.singleton_append, readLength, if_pos hshort]⟩
    case isFalse hlong =>
      split at h
      case isTrue => cases h
      case isFalse hdigits =>
        simp only [Option.some.injEq, Prod.mk.injEq] at h
        obtain ⟨rfl, rfl⟩ := h
        -- all digits were there, so the same number of them is there again
        have hcount : (bs.take (b.toNat - 128)).length = b.toNat - 128 := by
          rw [List.length_take] at hdigits ⊢
          omega
        refine ⟨b :: bs.take (b.toNat - 128), by rw [List.cons_append, List.take_append_drop], ?_⟩
        intro other
        simp only [List.cons_append, readLength, if_neg hlong, List.take_left' hcount,
          List.drop_left' hcount, if_neg hdigits]

/-- A tag and a length find their end together. -/
theorem readHeader_findsEnd : FindsEnd readHeader :=
  readTag_findsEnd.bind fun tag => readLength_findsEnd.bind fun n => .pure (tag, n)

/-- An element is its header and its contents, and the header is read the same in
front of anything. -/
theorem readElement_parts {bs rest : Bytes} {e : Element}
    (h : readElement bs = some (e, rest)) :
    ∃ header, bs = header ++ e.contents ++ rest ∧ e.encoded = header ++ e.contents
      ∧ ∀ other, readHeader (header ++ other) = some ((e.tag, e.contents.length), other) := by
  simp only [readElement, Option.bind_eq_bind] at h
  obtain ⟨⟨⟨tag, n⟩, after⟩, hheader, hrest⟩ := Option.bind_eq_some_iff.1 h
  obtain ⟨header, rfl, hsame⟩ := readHeader_findsEnd _ _ _ hheader
  simp only at hrest
  split at hrest
  case isTrue => cases hrest
  case isFalse hlength =>
    have hn : (after.take n).length = n := by
      rw [List.length_take] at hlength ⊢
      omega
    -- the contents are taken from what the header leaves
    have hbytes : header ++ after = header ++ after.take n ++ after.drop n := by
      rw [List.append_assoc, List.take_append_drop]
    cases hrest
    refine ⟨header, hbytes, ?_, fun other => ?_⟩
    · rw [hbytes, taken_append]
    · rw [hn]
      exact hsame other

/-- An element finds its end. -/
theorem readElement_findsEnd : FindsEnd readElement := by
  intro bs e rest h
  obtain ⟨header, rfl, hencoded, hsame⟩ := readElement_parts h
  refine ⟨header ++ e.contents, rfl, fun other => ?_⟩
  simp only [readElement, List.append_assoc, hsame, Option.bind_eq_bind, Option.bind_some,
    List.take_left, List.drop_left, Nat.lt_irrefl, if_false]
  rw [← List.append_assoc, taken_append, ← hencoded]
  rfl

-- ========================================================= one element

/-- The bytes of one element and nothing else. -/
def IsElement (bs : Bytes) : Prop :=
  ∃ e, readElement bs = some (e, [])

/-- What is written is one element. -/
theorem isElement_write {t : Tag} {c : Bytes} (ht : t.number < 31) (hc : c.length < 2 ^ 64) :
    IsElement (write t c) := by
  have h := readElement_write ht hc []
  rw [List.append_nil] at h
  exact ⟨_, h⟩

theorem isElement_sequence {parts : List Bytes} (h : (sequence parts).length < 2 ^ 64) :
    IsElement (sequence parts) :=
  isElement_write (by decide) (Nat.lt_trans (length_lt_write _ _) h)

/-- A reader that looks at the first element alone. -/
def ReadsOne {α : Type} (read : Reader α) : Prop :=
  ∃ f : Element → Option α, ∀ bs,
    read bs = (readElement bs).bind fun found => (f found.1).map (·, found.2)

namespace ReadsOne

variable {α β : Type} {read : Reader α}

/-- A reader that judges what another one has read. -/
theorem judged {j : α → Option β} {after : Reader β} (h : ReadsOne read)
    (heq : ∀ bs, after bs = (read bs).bind fun found => (j found.1).map (·, found.2)) :
    ReadsOne after := by
  obtain ⟨f, hf⟩ := h
  refine ⟨fun e => (f e).bind j, fun bs => ?_⟩
  rw [heq, hf]
  cases readElement bs with
  | none => rfl
  | some found =>
    simp only [Option.bind_some]
    cases f found.1 <;> rfl

/-- An element is read the same in front of anything. -/
theorem append (h : ReadsOne read) {w : Bytes} (hw : IsElement w) (rest : Bytes) :
    read (w ++ rest) = (read w).map fun found => (found.1, rest) := by
  obtain ⟨f, hf⟩ := h
  obtain ⟨e, he⟩ := hw
  have hrest : readElement (w ++ rest) = some (e, rest) := by
    obtain ⟨front, rfl, hsame⟩ := readElement_findsEnd _ _ _ he
    rw [List.append_nil]
    exact hsame rest
  rw [hf, hf, hrest, he]
  simp only [Option.bind_some]
  cases f e <;> rfl

/-- What was read from an element in front of others was read from it alone. -/
theorem of_append (h : ReadsOne read) {w rest left : Bytes} {a : α} (hw : IsElement w)
    (hread : read (w ++ rest) = some (a, left)) : read w = some (a, []) ∧ left = rest := by
  rw [h.append hw] at hread
  obtain ⟨found, hfound, hpair⟩ := Option.map_eq_some_iff.1 hread
  cases hpair
  have hempty := h.append hw []
  rw [List.append_nil, hfound] at hempty
  exact ⟨hfound.trans (hempty.trans rfl), rfl⟩

/-- A reader that looks at one element finds the end of it. -/
theorem findsEnd (h : ReadsOne read) : FindsEnd read := by
  obtain ⟨f, hf⟩ := h
  intro bs a rest hread
  rw [hf] at hread
  obtain ⟨⟨e, after⟩, he, hjudged⟩ := Option.bind_eq_some_iff.1 hread
  obtain ⟨_, hfe, hpair⟩ := Option.map_eq_some_iff.1 hjudged
  cases hpair
  obtain ⟨front, rfl, hsame⟩ := readElement_findsEnd _ _ _ he
  refine ⟨front, rfl, fun other => ?_⟩
  rw [hf, hsame, Option.bind_some, hfe]
  rfl

end ReadsOne

/-- An element is read from its own bytes. -/
theorem readElement_readsOne : ReadsOne readElement := by
  refine ⟨some, fun bs => ?_⟩
  cases readElement bs <;> rfl

/-- An element with a number that was asked for is an element with that number. -/
theorem readNumbered_eq_some {number : Nat} {bs rest : Bytes} {e : Element}
    (h : readNumbered number bs = some (e, rest)) :
    readElement bs = some (e, rest) ∧ e.tag.number = number := by
  simp only [readNumbered, Option.bind_eq_bind] at h
  obtain ⟨found, helement, hnumber⟩ := Option.bind_eq_some_iff.1 h
  split at hnumber
  case isTrue hn =>
    cases hnumber
    exact ⟨helement, hn⟩
  case isFalse => cases hnumber

/-- So is an element with a given number. -/
theorem readNumbered_readsOne (number : Nat) : ReadsOne (readNumbered number) :=
  readElement_readsOne.judged (j := fun e => if e.tag.number = number then some e else none)
    fun bs => by
      unfold readNumbered
      cases readElement bs with
      | none => rfl
      | some found =>
        simp only [Option.bind_eq_bind, Option.bind_some]
        split <;> rfl

theorem readPrimitive_readsOne (number : Nat) : ReadsOne (readPrimitive number) :=
  (readNumbered_readsOne number).judged
    (j := fun e => if e.tag.constructed then none else some e) fun bs => by
      unfold readPrimitive
      cases readNumbered number bs with
      | none => rfl
      | some found =>
        simp only [Option.bind_eq_bind, Option.bind_some]
        split <;> rfl

theorem readInside_readsOne {α : Type} (number : Nat) (inside : Reader α) :
    ReadsOne (readInside number inside) :=
  (readNumbered_readsOne number).judged (j := fun e => (inside e.contents).map (·.1))
    fun bs => by
      unfold readInside
      cases readNumbered number bs with
      | none => rfl
      | some found =>
        simp only [Option.bind_eq_bind, Option.bind_some]
        cases inside found.1.contents <;> rfl

theorem readSequence_readsOne {α : Type} (inside : Reader α) : ReadsOne (readSequence inside) :=
  readInside_readsOne _ inside

theorem readSpanned_readsOne {α : Type} (number : Nat) (inside : Reader α) :
    ReadsOne (readSpanned number inside) :=
  (readNumbered_readsOne number).judged
    (j := fun e => (inside e.contents).map fun found =>
      (found.1, e.encoded.take (e.encoded.length - found.2.length))) fun bs => by
      unfold readSpanned
      cases readNumbered number bs with
      | none => rfl
      | some found =>
        simp only [Option.bind_eq_bind, Option.bind_some]
        cases inside found.1.contents <;> rfl

/-- The bits of a string of bits are read from its own bytes. -/
theorem readBits_readsOne : ReadsOne readBits :=
  (readPrimitive_readsOne _).judged (j := fun e => bitsOf? e.contents) fun bs => by
    unfold readBits
    cases readPrimitive TagNumber.bitString bs with
    | none => rfl
    | some found =>
      simp only [Option.bind_eq_bind, Option.bind_some]
      cases bitsOf? found.1.contents <;> rfl

/-- An element of definite length is read as it is, wherever the other form is
allowed as well. -/
theorem readLoose_append {w : Bytes} (hw : IsElement w) (rest : Bytes) :
    readLoose (w ++ rest) = readElement (w ++ rest) := by
  obtain ⟨e, he⟩ := hw
  have hsome := readElement_readsOne.append ⟨e, he⟩ rest
  rw [he] at hsome
  rw [readLoose, hsome]
  rfl

end Enrollment.Der
