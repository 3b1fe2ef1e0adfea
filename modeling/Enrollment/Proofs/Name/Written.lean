/-
Names that are made of texts: what is written of their entries is taken apart
into the same entries.

An entry comes back from its attribute if its type is spelled as one
(`Entry.Spelled`), and all entries of a name do if no type is given twice
(`ofName_written`).  The entries of a written name are of this kind, as are
those of any text under a type that can be spelled.
-/
import Enrollment.Name.Written
import Enrollment.Proofs.Name.Entries
import Enrollment.Proofs.Text.Utf8

namespace Enrollment

open Der

-- ================================================================ entries

/-- The type can be spelled, is read as it was, and the string is one of its kind. -/
structure Entry.Spelled (e : Entry) : Prop where
  type : ∃ id, ObjectId.ofArcs? e.type = some id ∧ id.arcs? = some e.type
  check : e.kind.check e.contents = .ok ()

namespace Entries

variable {e : Entry} {es acc : Entries}

/-- Kinds of strings are told apart by their tags. -/
theorem ofTagNumber?_tagNumber (kind : StringKind) :
    StringKind.ofTagNumber? kind.tagNumber = some kind := by
  cases kind <;> rfl

theorem arcs?_of_spelled (h : e.Spelled) : (ObjectId.ofArcs e.type).arcs? = some e.type := by
  obtain ⟨id, hid, harcs⟩ := h.type
  rw [ObjectId.ofArcs, hid]
  exact harcs

/-- The attribute of a spelled entry is carried over as this entry. -/
theorem ofSet_attribute (h : e.Spelled) : ofSet [e.attribute] = .ok e := by
  have hkind : StringKind.ofTagNumber? e.attribute.tag.number = some e.kind :=
    ofTagNumber?_tagNumber e.kind
  have harcs : e.attribute.type.arcs? = some e.type := arcs?_of_spelled h
  have hcheck : e.kind.check e.attribute.value = .ok () := h.check
  simp only [ofSet, harcs, hkind, hcheck]
  rfl

theorem ofSets_attributes (h : ∀ e ∈ es, e.Spelled) :
    ofSets acc (es.map fun e => [e.attribute]) = .ok (putAll acc es) := by
  induction es generalizing acc with
  | nil => rfl
  | cons e es ih =>
    rw [List.map_cons, ofSets, ofSet_attribute (h e List.mem_cons_self)]
    exact ih fun d hd => h d (List.mem_cons_of_mem _ hd)

/-- A name that was written of entries is taken apart into them, if no type is given
twice. -/
theorem ofName_written (h : ∀ e ∈ es, e.Spelled) (hnodup : (es.map (·.type)).Nodup)
    (encoded : Bytes) : ofName ⟨es.map fun e => [e.attribute], encoded⟩ = .ok es := by
  rw [ofName, ofSets_attributes h, putAll_nil_of_nodup hnodup]

/-- A name of spelled entries can be written. -/
theorem exists_write? (h : ∀ e ∈ es, e.Spelled) : ∃ encoded, es.write? = some encoded := by
  have hentry : ∀ e ∈ es, writeSet? (id e) = some (Name.writeSet [e.attribute]) := by
    intro e he
    obtain ⟨id, hid, -⟩ := (h e he).type
    have hsome : ∃ encoded, writeSet? e = some encoded := by
      unfold writeSet?
      rw [hid]
      exact ⟨_, rfl⟩
    obtain ⟨encoded, hencoded⟩ := hsome
    exact hencoded.trans (congrArg some (writeSet?_eq_some hencoded))
  have hall := mapM_map_eq_pure (m := Option) hentry
  rw [List.map_id] at hall
  rw [write?, hall]
  exact ⟨_, rfl⟩

/-- A text is spelled under any type that can be. -/
theorem spelled_ofText {type : List Nat} (value : String)
    (h : ∃ id, ObjectId.ofArcs? type = some id ∧ id.arcs? = some type) :
    (ofText type value).Spelled := by
  refine ⟨h, ?_⟩
  unfold ofText StringKind.check
  dsimp only
  rw [Utf8.encode, Utf8.decodeChars?_encodeChars]
  exact if_pos (List.all_eq_true.2 fun c _ => rfl)

end Entries

/-- The name has one UTF-8 string for each entry, in order, and is taken apart into the
entries. -/
structure Name.Spells (n : Name) (es : Entries) : Prop where
  sets : n.sets = es.map fun e =>
    [⟨.ofArcs e.type, .primitive TagNumber.utf8String, e.contents⟩]
  entries : Entries.ofName n = .ok es

namespace Entries

/-- Texts under types that can be spelled, of which none is given twice. -/
structure OfTexts (es : Entries) : Prop where
  spelled : ∀ e ∈ es, e.Spelled
  nodup : (es.map (·.type)).Nodup
  kind : ∀ e ∈ es, e.kind = .utf8

/-- A name whose entries are those of a text spells them. -/
theorem OfTexts.spells (h : es.OfTexts) (encoded : Bytes) :
    Name.Spells ⟨es.map fun e => [e.attribute], encoded⟩ es := by
  refine ⟨List.map_congr_left fun e he => ?_, ofName_written h.spelled h.nodup encoded⟩
  rw [Entry.attribute, h.kind e he]
  rfl

-- ================================================================ putting

/-- An entry takes the place of the one with its type, so types stay distinct. -/
theorem nodup_put (h : (es.map (·.type)).Nodup) (e : Entry) :
    ((put e es).map (·.type)).Nodup := by
  rw [types_put]
  split_ifs with hold
  · exact h
  · exact List.Nodup.append h (List.nodup_singleton _) (List.disjoint_singleton.2 hold)

theorem nodup_putAll (h : (es.map (·.type)).Nodup) (found : List Entry) :
    ((putAll es found).map (·.type)).Nodup := by
  induction found generalizing es with
  | nil => exact h
  | cons e found ih => exact ih (nodup_put h e)

end Entries

-- ========================================================== written names

namespace Name.Written

/-- The type of each kind of attribute can be written, and is read back. -/
theorem spelled_arcs (kind : AttributeKind) :
    ∃ id, ObjectId.ofArcs? kind.arcs = some id ∧ id.arcs? = some kind.arcs := by
  cases kind <;> exact ⟨_, rfl, by decide +kernel⟩

variable {text : String} {es : Entries}

/-- The entries of a written name are those of its components, put in one after the
other. -/
theorem parse_eq_ok_iff_putAll :
    parse text = .ok es
      ↔ ∃ pairs : List (AttributeKind × List Char), pairs ≠ []
        ∧ (givenComponents text).mapM ofComponent = .ok pairs
        ∧ es = Entries.putAll [] (pairs.map entry) := by
  unfold parse
  constructor
  · intro h
    split at h
    case h_1 => cases h
    case h_2 hne =>
      obtain ⟨pairs, hpairs, h⟩ := bind_eq_ok h
      cases h
      refine ⟨pairs, ?_, hpairs, by rw [Entries.putAll, List.foldl_map]⟩
      rintro rfl
      exact hne (List.forall₂_nil_right_iff.1 (forall₂_of_mapM hpairs))
  · rintro ⟨pairs, hne, hpairs, rfl⟩
    split
    case h_1 hnone =>
      rw [hnone] at hpairs
      exact absurd (Except.ok.inj hpairs).symm hne
    case h_2 =>
      rw [hpairs, Entries.putAll, List.foldl_map]
      rfl

/-- The entries that are read from a text are those of some texts. -/
theorem ofTexts_of_parse (h : parse text = .ok es) : Entries.OfTexts es := by
  obtain ⟨pairs, -, -, rfl⟩ := parse_eq_ok_iff_putAll.1 h
  have hentry : ∀ e ∈ Entries.putAll [] (pairs.map entry), ∃ pair, e = entry pair := by
    intro e he
    rcases Entries.mem_putAll he with hnone | hpair
    · cases hnone
    · obtain ⟨pair, -, rfl⟩ := List.mem_map.1 hpair
      exact ⟨pair, rfl⟩
  refine ⟨fun e he => ?_, ?_, fun e he => ?_⟩
  · obtain ⟨pair, rfl⟩ := hentry e he
    exact Entries.spelled_ofText _ (spelled_arcs pair.1)
  · have hempty : (([] : Entries).map (·.type)).Nodup := List.nodup_nil
    exact Entries.nodup_putAll hempty _
  · obtain ⟨pair, rfl⟩ := hentry e he
    rfl

end Name.Written

end Enrollment
