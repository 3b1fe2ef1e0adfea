/-
Two records read from one document.

A reader of records is made of the stores of its fields, so what one reader
makes of a document follows from what another makes of it as soon as the
stores do (`Refines`).  The readers go through the document in step: they
meet the same keys, pass over the same members and stop at the same place.
-/
import Enrollment.Proofs.Except
import Enrollment.Proofs.Json.Record

namespace Enrollment.Json

variable {σ τ : Type} {R : σ → τ → Prop}

/-- A field of the one record is stored whenever that of the other is, and related
records stay related. -/
structure Field.Refines (R : σ → τ → Prop) (f : Field σ) (g : Field τ) : Prop where
  name_eq : f.name = g.name
  store : ∀ {text s s' t}, R s t → f.store text s = .ok s' → ∃ t', g.store text t = .ok t' ∧ R s' t'

/-- The records have the same fields, each stored as that of the other is. -/
structure Shape.Refines (R : σ → τ → Prop) (shape : Shape σ) (other : Shape τ) : Prop where
  fields : List.Forall₂ (Field.Refines R) shape.fields other.fields
  empty : R shape.empty other.empty

-- ================================================================ fields

/-- A field that is read into the one record is read into the other as well, and the two stay
related. -/
theorem readField_refines {f : Field σ} {g : Field τ} (hfield : f.Refines R g) {s s' : σ} {t : τ}
    {bs rest : Bytes} (hrel : R s t) (h : readField f s bs = .ok (s', rest)) :
    ∃ t', readField g t bs = .ok (t', rest) ∧ R s' t' := by
  obtain ⟨⟨text, after⟩, hread, h⟩ := bind_eq_ok h
  cases text with
  | none =>
    cases h
    exact ⟨t, by rw [readField, hread]; rfl, hrel⟩
  | some text =>
    obtain ⟨s'', hstore, h⟩ := bind_eq_ok h
    cases h
    obtain ⟨t', hstore', hrel'⟩ := hfield.store hrel hstore
    refine ⟨t', ?_, hrel'⟩
    rw [readField, hread]
    show (g.store text t).bind _ = _
    rw [hstore']
    rfl

/-- A key names a field of both records or of neither. -/
theorem find?_refines {fs : List (Field σ)} {gs : List (Field τ)}
    (h : List.Forall₂ (Field.Refines R) fs gs) (key : String) :
    (fs.find? (·.name == key) = none ∧ gs.find? (·.name == key) = none)
      ∨ ∃ f g, fs.find? (·.name == key) = some f ∧ gs.find? (·.name == key) = some g
        ∧ f.Refines R g := by
  induction h with
  | nil => exact .inl ⟨rfl, rfl⟩
  | @cons f g fs gs hfirst _ ih =>
    rw [List.find?_cons, List.find?_cons, ← hfirst.name_eq]
    cases f.name == key with
    | true => exact .inr ⟨f, g, rfl, rfl, hfirst⟩
    | false => exact ih

-- =============================================================== members

/-- So it is with a member, whichever field it is for. -/
theorem readMember_refines {shape : Shape σ} {other : Shape τ} (hshape : shape.Refines R other)
    {key : String} {seen seen' : List String} {s s' : σ} {t : τ} {bs rest : Bytes} (hrel : R s t)
    (h : readMember shape key seen s bs = .ok (s', seen', rest)) :
    ∃ t', readMember other key seen t bs = .ok (t', seen', rest) ∧ R s' t' := by
  rcases find?_refines hshape.fields key with ⟨hf, hg⟩ | ⟨f, g, hf, hg, hfield⟩
  · -- a member of neither record is passed over by both readers
    simp only [readMember, hf] at h
    simp only [readMember, hg]
    obtain ⟨value, hcolon, h⟩ := bind_eq_ok h
    obtain ⟨after, hskip, h⟩ := bind_eq_ok h
    cases h
    simp only [hcolon, hskip, bind, Except.bind]
    exact ⟨t, rfl, hrel⟩
  · simp only [readMember, hf] at h
    simp only [readMember, hg]
    split at h
    case isTrue => cases h
    case isFalse hseen =>
      obtain ⟨value, hcolon, h⟩ := bind_eq_ok h
      obtain ⟨⟨s'', after⟩, hread, h⟩ := bind_eq_ok h
      cases h
      obtain ⟨t', hread', hrel'⟩ := readField_refines hfield hrel hread
      rw [if_neg hseen]
      simp only [hcolon, hread', bind, Except.bind]
      exact ⟨t', rfl, hrel'⟩

theorem readMembers_refines {shape : Shape σ} {other : Shape τ} (hshape : shape.Refines R other)
    {first : Bool} {seen : List String} {s s' : σ} {t : τ} {bs rest : Bytes} (hrel : R s t)
    (h : readMembers shape first seen s bs = .ok (s', rest)) :
    ∃ t', readMembers other first seen t bs = .ok (t', rest) ∧ R s' t' := by
  fun_induction readMembers shape first seen s bs generalizing t with
  | case1 | case3 | case4 => cases h
  | case2 first seen s bs rest' hpoint =>
    cases h
    exact ⟨t, readMembers_closed hpoint, hrel⟩
  | case5 first seen s bs inside hpoint key value hkey s'' seen'' after hmember ih =>
    obtain ⟨t'', hmember', hrel''⟩ := readMember_refines hshape hrel hmember
    obtain ⟨t', hread, hrel'⟩ := ih hrel'' h
    exact ⟨t', (readMembers_key hpoint hkey hmember').trans hread, hrel'⟩

/-- The elements of an array are read field by field, and are related in the same way. -/
theorem readElements_refines {fs : List (Field σ)} {gs : List (Field τ)}
    (hfields : List.Forall₂ (Field.Refines R) fs gs) {first : Bool} {s s' : σ} {t : τ}
    {bs rest : Bytes} (hrel : R s t) (h : readElements first fs s bs = .ok (s', rest)) :
    ∃ t', readElements first gs t bs = .ok (t', rest) ∧ R s' t' := by
  induction hfields generalizing first s t bs with
  | nil =>
    cases h
    exact ⟨t, rfl, hrel⟩
  | cons hfield _ ih =>
    obtain ⟨point, hpoint, h⟩ := bind_eq_ok h
    rw [readElements, hpoint]
    cases point with
    | closed =>
      cases h
      exact ⟨t, rfl, hrel⟩
    | element inside =>
      obtain ⟨⟨s'', after⟩, hread, h⟩ := bind_eq_ok h
      obtain ⟨t'', hread', hrel''⟩ := readField_refines hfield hrel hread
      obtain ⟨t', hrest, hrel'⟩ := ih hrel'' h
      refine ⟨t', ?_, hrel'⟩
      show (readField _ t inside).bind _ = _
      rw [hread']
      exact hrest

-- ============================================================= documents

/-- A document that spells the one record spells the other. -/
theorem ofDocument_refines {shape : Shape σ} {other : Shape τ} (hshape : shape.Refines R other)
    {body : Bytes} {s : σ} (h : ofDocument shape body = .ok s) :
    ∃ t, ofDocument other body = .ok t ∧ R s t := by
  obtain ⟨⟨s', rest⟩, hread, h⟩ := bind_eq_ok h
  have hrecord : ∃ t, readRecord other body = .ok (t, rest) ∧ R s' t := by
    unfold readRecord at hread ⊢
    split at hread
    case h_1 => cases hread
    case h_2 =>
      exact readMembers_refines hshape hshape.empty hread
    case h_3 =>
      obtain ⟨⟨s'', after⟩, helements, hread⟩ := bind_eq_ok hread
      obtain ⟨closed, hend, hread⟩ := bind_eq_ok hread
      cases hread
      obtain ⟨t, helements', hrel⟩ := readElements_refines hshape.fields hshape.empty helements
      refine ⟨t, ?_, hrel⟩
      simp only [helements', hend, bind, Except.bind]
      rfl
    case h_4 => cases hread
  obtain ⟨t, hread', hrel⟩ := hrecord
  unfold ofDocument
  rw [hread']
  -- what is left of the document is the same for both
  simp only at h
  split at h
  case isTrue hend =>
    cases h
    exact ⟨t, if_pos hend, hrel⟩
  case isFalse => cases h

end Enrollment.Json
