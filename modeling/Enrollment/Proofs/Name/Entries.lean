/-
Names as entries: what becomes of a name that is taken apart into entries and
written again.

Each set of a name has to hold one string (`Gives`).  The entries are put in
one after the other, each in the place of an earlier one of its type: so the
entries are those that were given exactly when no type is given twice
(`putAll_of_nodup`), and otherwise something is lost, whatever marks the
entries are told by (`kept_or_length_lt`).  What is written of entries is read back
as one set for each of them (`read_of_write?`), so that a name comes back with
the sets it had exactly if it is `Canonical` (`sets_eq_iff`).
-/
import Enrollment.Name.Entries
import Enrollment.Proofs.Der.Many
import Enrollment.Proofs.Except
import Mathlib.Data.List.Forall2
import Mathlib.Data.List.Nodup

namespace Enrollment

open Der

-- ================================================================ putting

namespace Entries

variable {sets : List (List Attribute)} {entries es found : Entries} {e : Entry}

/-- Entries with others put in one after the other. -/
def putAll (entries : Entries) (found : List Entry) : Entries :=
  found.foldl (fun es e => put e es) entries

/-- An entry is put at the end, unless there is one of its type, which it replaces. -/
theorem put_cases (e : Entry) (es : Entries) :
    (e.type ∉ es.map (·.type) ∧ put e es = es ++ [e])
      ∨ ∃ front old back, es = front ++ old :: back ∧ old.type = e.type
        ∧ put e es = front ++ e :: back := by
  induction es with
  | nil => exact .inl ⟨List.not_mem_nil, rfl⟩
  | cons first es ih =>
    rw [put]
    by_cases htype : first.type = e.type
    · rw [if_pos htype]
      exact .inr ⟨[], first, es, rfl, htype, rfl⟩
    · rw [if_neg htype]
      rcases ih with ⟨hnew, hput⟩ | ⟨front, old, back, rfl, hold, hput⟩
      · refine .inl ⟨?_, by rw [hput, List.cons_append]⟩
        rw [List.map_cons, List.mem_cons, not_or]
        exact ⟨fun h => htype h.symm, hnew⟩
      · exact .inr ⟨first :: front, old, back, rfl, hold, by rw [hput, List.cons_append]⟩

/-- A type that is already there keeps its place, and a new one is put at the end. -/
theorem types_put (e : Entry) (es : Entries) :
    (put e es).map (·.type)
      = if e.type ∈ es.map (·.type) then es.map (·.type) else es.map (·.type) ++ [e.type] := by
  rcases put_cases e es with ⟨hnew, hput⟩ | ⟨front, old, back, rfl, hold, hput⟩
  · rw [hput, if_neg hnew, List.map_append, List.map_singleton]
  · rw [hput, List.map_append, List.map_append, List.map_cons, List.map_cons, hold, if_pos]
    exact List.mem_append_right _ List.mem_cons_self

/-- An entry of a new type comes last. -/
theorem put_of_not_mem (h : e.type ∉ es.map (·.type)) : put e es = es ++ [e] := by
  rcases put_cases e es with ⟨-, hput⟩ | ⟨front, old, back, rfl, hold, -⟩
  · exact hput
  · refine absurd ?_ h
    rw [← hold]
    exact List.mem_map_of_mem (List.mem_append_right _ List.mem_cons_self)

theorem mem_put {d : Entry} (h : d ∈ put e es) : d ∈ es ∨ d = e := by
  rcases put_cases e es with ⟨-, hput⟩ | ⟨front, old, back, rfl, -, hput⟩
  · rw [hput, List.mem_append, List.mem_singleton] at h
    exact h
  · rw [hput, List.mem_append, List.mem_cons] at h
    rw [List.mem_append, List.mem_cons]
    tauto

theorem mem_putAll {d : Entry} (h : d ∈ putAll entries found) : d ∈ entries ∨ d ∈ found := by
  induction found generalizing entries with
  | nil => exact .inl h
  | cons e found ih =>
    rw [List.mem_cons]
    rcases ih h with hput | hfound
    · exact (mem_put hput).imp_right .inl
    · exact .inr (.inr hfound)

/-- Entries of which no two have one type are all kept, in order. -/
theorem putAll_of_nodup (h : ((entries ++ found).map (·.type)).Nodup) :
    putAll entries found = entries ++ found := by
  induction found generalizing entries with
  | nil => rw [List.append_nil]; rfl
  | cons e found ih =>
    have hsplit : entries ++ e :: found = entries ++ [e] ++ found := by
      rw [List.append_assoc, List.singleton_append]
    have hnew : e.type ∉ entries.map (·.type) := by
      rw [List.map_append, List.map_cons, List.nodup_append] at h
      exact fun hmem => h.2.2 _ hmem _ List.mem_cons_self rfl
    rw [hsplit] at h ⊢
    rw [← ih h, ← put_of_not_mem hnew]
    rfl

/-- Entries of distinct types stay as they are found. -/
theorem putAll_nil_of_nodup (h : (found.map (·.type)).Nodup) : putAll [] found = found :=
  putAll_of_nodup h

variable {α : Type} {marks : Entry → List α}

theorem length_flatMap_split (marks : Entry → List α) (front back : Entries) (e : Entry) :
    ((front ++ e :: back).flatMap marks).length
      = (front.flatMap marks).length + (marks e).length + (back.flatMap marks).length := by
  rw [List.flatMap_append, List.flatMap_cons, List.length_append, List.length_append,
    Nat.add_assoc]

/-- Putting an entry in adds no more than its marks. -/
theorem length_flatMap_put_le (marks : Entry → List α) (e : Entry) (es : Entries) :
    ((put e es).flatMap marks).length ≤ (es.flatMap marks).length + (marks e).length := by
  rcases put_cases e es with ⟨-, hput⟩ | ⟨front, old, back, rfl, -, hput⟩
  · rw [hput, length_flatMap_split, List.flatMap_nil, List.length_nil]
    exact Nat.le_refl _
  · rw [hput, length_flatMap_split, length_flatMap_split]
    omega

/-- However entries are marked, putting them gives no more marks than they have. -/
theorem length_flatMap_putAll_le (marks : Entry → List α) (entries : Entries)
    (found : List Entry) :
    ((putAll entries found).flatMap marks).length
      ≤ (entries.flatMap marks).length + (found.flatMap marks).length := by
  induction found generalizing entries with
  | nil => exact Nat.le_add_right _ _
  | cons e found ih =>
    have hput := length_flatMap_put_le marks e entries
    have hrest := ih (put e entries)
    rw [List.flatMap_cons, List.length_append]
    exact Nat.le_trans hrest (by omega)

/-- Where every entry leaves a mark, marks are lost as soon as a type is given twice. -/
theorem nodup_or_length_lt (hne : ∀ e, marks e ≠ []) (h : (entries.map (·.type)).Nodup) :
    ((entries ++ found).map (·.type)).Nodup
      ∨ ((putAll entries found).flatMap marks).length
        < (entries.flatMap marks).length + (found.flatMap marks).length := by
  induction found generalizing entries with
  | nil =>
    rw [List.append_nil]
    exact .inl h
  | cons e found ih =>
    rw [List.flatMap_cons, List.length_append]
    rcases put_cases e entries with ⟨hnew, hput⟩ | ⟨front, old, back, rfl, -, hput⟩
    · -- a new type comes last, as in the list that was found
      have hnodup : ((entries ++ [e]).map (·.type)).Nodup := by
        rw [List.map_append, List.map_singleton, List.nodup_append]
        refine ⟨h, List.nodup_singleton _, ?_⟩
        rintro a ha b hb rfl
        exact hnew (List.mem_singleton.1 hb ▸ ha)
      have hsplit : entries ++ e :: found = entries ++ [e] ++ found := by
        rw [List.append_assoc, List.singleton_append]
      have hall : putAll entries (e :: found) = putAll (entries ++ [e]) found := by
        rw [← hput]
        rfl
      rw [hsplit, hall]
      refine (ih hnodup).imp_right fun hlt => ?_
      rw [length_flatMap_split, List.flatMap_nil, List.length_nil] at hlt
      omega
    · -- the marks of the entry that is replaced are lost for good
      have hold := List.length_pos_iff.2 (hne old)
      have hle : ((putAll (front ++ old :: back) (e :: found)).flatMap marks).length
          ≤ ((put e (front ++ old :: back)).flatMap marks).length
            + (found.flatMap marks).length :=
        length_flatMap_putAll_le marks _ found
      rw [hput, length_flatMap_split] at hle
      refine .inr (Nat.lt_of_le_of_lt hle ?_)
      rw [length_flatMap_split]
      omega

/-- Either no type is given twice, and the entries are those that were found, or marks
are lost. -/
theorem kept_or_length_lt (hne : ∀ e, marks e ≠ []) (found : List Entry) :
    ((found.map (·.type)).Nodup ∧ putAll [] found = found)
      ∨ ((putAll [] found).flatMap marks).length < (found.flatMap marks).length := by
  have hempty : (([] : Entries).map (·.type)).Nodup := List.nodup_nil
  rcases nodup_or_length_lt hne hempty with hnodup | hlt
  · exact .inl ⟨hnodup, putAll_nil_of_nodup hnodup⟩
  · rw [List.flatMap_nil, List.length_nil, Nat.zero_add] at hlt
    exact .inr hlt

theorem put_ne_nil (e : Entry) (es : Entries) : put e es ≠ [] := by
  rcases put_cases e es with ⟨-, hput⟩ | ⟨front, old, back, -, -, hput⟩
  · simp [hput]
  · simp [hput]

theorem putAll_ne_nil (h : entries ≠ []) (found : List Entry) : putAll entries found ≠ [] := by
  induction found generalizing entries with
  | nil => exact h
  | cons e found ih => exact ih (put_ne_nil e entries)

-- ================================================================= taking

/-- The attribute holds a string that is taken as the entry. -/
structure Gives (a : Attribute) (e : Entry) : Prop where
  type : a.type.arcs? = some e.type
  tag : a.tag.number = e.kind.tagNumber
  check : e.kind.check a.value = .ok ()
  contents : e.contents = a.value

theorem tagNumber_of_ofTagNumber? {n : Nat} {kind : StringKind}
    (h : StringKind.ofTagNumber? n = some kind) : n = kind.tagNumber :=
  (beq_iff_eq.1 (List.find?_some (p := fun k : StringKind => k.tagNumber == n) h)).symm

/-- A set that is carried over has a single attribute, which gives the entry. -/
theorem ofSet_eq_ok {set : List Attribute} (h : ofSet set = .ok e) :
    ∃ a, set = [a] ∧ Gives a e := by
  unfold ofSet at h
  split at h
  case h_1 a =>
    split at h
    case h_1 type htype =>
      split at h
      case h_1 kind hkind =>
        obtain ⟨⟨⟩, hcheck, h⟩ := bind_eq_ok h
        cases h
        exact ⟨a, rfl, htype, tagNumber_of_ofTagNumber? hkind, hcheck, rfl⟩
      case h_2 => cases h
    case h_2 => cases h
  case h_2 => cases h

/-- Sets that are carried over have a single attribute each, and their entries are put in
order. -/
theorem ofSets_eq_ok (h : ofSets entries sets = .ok es) :
    ∃ as found, sets = as.map ([·]) ∧ List.Forall₂ Gives as found ∧ es = putAll entries found := by
  induction sets generalizing entries with
  | nil =>
    cases h
    exact ⟨[], [], rfl, .nil, rfl⟩
  | cons set sets ih =>
    obtain ⟨e, he, hrest⟩ := bind_eq_ok h
    obtain ⟨a, rfl, hgives⟩ := ofSet_eq_ok he
    obtain ⟨as, found, rfl, hall, rfl⟩ := ih hrest
    exact ⟨a :: as, e :: found, rfl, .cons hgives hall, rfl⟩

/-- There are no entries only where there are no sets. -/
theorem isEmpty_of_ofSets (h : ofSets [] sets = .ok es) : es.isEmpty = sets.isEmpty := by
  obtain ⟨as, found, rfl, hall, rfl⟩ := ofSets_eq_ok h
  cases hall with
  | nil => rfl
  | cons hgives hall => exact List.isEmpty_eq_false_iff.2 (putAll_ne_nil (put_ne_nil _ _) _)

end Entries

-- ================================================================ writing

namespace Name

/-- The encoding of an attribute. -/
def writeAttribute (a : Attribute) : Bytes :=
  Der.sequence [objectId a.type, Der.write a.tag a.value]

/-- The encoding of a set of attributes. -/
def writeSet (as : List Attribute) : Bytes :=
  singleton (as.map writeAttribute).flatten

theorem readAttribute_write {a : Attribute} (ht : a.tag.number < 31)
    (h : (writeAttribute a).length < 2 ^ 64) (rest : Bytes) :
    readAttribute (writeAttribute a ++ rest) = some (a, rest) := by
  have htype := Nat.lt_trans (length_lt_write (.primitive TagNumber.objectId) a.type.contents)
    (Nat.lt_trans (length_lt_sequence List.mem_cons_self) h)
  have hvalue := Nat.lt_trans (length_lt_write a.tag a.value)
    (Nat.lt_trans (length_lt_sequence (List.mem_cons_of_mem _ List.mem_cons_self)) h)
  have hread := readElement_write ht hvalue []
  rw [List.append_nil] at hread
  unfold readAttribute writeAttribute
  rw [readSequence_sequence _ (Nat.lt_trans (length_lt_write _ _) h)]
  simp only [List.flatten_cons, List.flatten_nil, List.append_nil, readObjectId_objectId htype,
    hread, Option.bind_eq_bind, Option.bind_some]
  rfl

variable {as : List Attribute} {sets : List (List Attribute)}

theorem readSet_write (hne : as ≠ []) (ht : ∀ a ∈ as, a.tag.number < 31)
    (h : (writeSet as).length < 2 ^ 64) (rest : Bytes) :
    readSet (writeSet as ++ rest) = some (as, rest) := by
  have hcontents := Nat.lt_trans (length_lt_write _ _) h
  have hmany : readMany readAttribute (as.map writeAttribute).flatten = (as, []) :=
    readMany_written (readSequence_readsOne _).nil fun a ha => readAttribute_write (ht a ha)
      (Nat.lt_of_le_of_lt (List.sublist_flatten_of_mem (List.mem_map_of_mem ha)).length_le
        hcontents)
  have hread : readNumbered TagNumber.set (writeSet as ++ rest) = some (_, rest) :=
    readNumbered_write (t := .compound TagNumber.set) (by decide) hcontents rest
  unfold readSet readInside
  simp only [hread, Option.bind_eq_bind, Option.bind_some, hmany]
  cases as with
  | nil => exact absurd rfl hne
  | cons a as => rfl

/-- A name is read back from the encodings of its sets. -/
theorem read_write (hne : ∀ as ∈ sets, as ≠ []) (ht : ∀ as ∈ sets, ∀ a ∈ as, a.tag.number < 31)
    (h : (Der.sequence (sets.map writeSet)).length < 2 ^ 64) (rest : Bytes) :
    read (Der.sequence (sets.map writeSet) ++ rest)
      = some (⟨sets, Der.sequence (sets.map writeSet)⟩, rest) := by
  have hmany : readMany readSet (sets.map writeSet).flatten = (sets, []) :=
    readMany_written (readInside_readsOne _ _).nil fun as has => readSet_write (hne as has)
      (ht as has) (Nat.lt_trans (length_lt_sequence (List.mem_map_of_mem has)) h)
  have hread := readNumbered_sequence (Nat.lt_trans (length_lt_write _ _) h) rest
  unfold read readSpanned
  simp only [hread, Option.bind_eq_bind, Option.bind_some, hmany, List.length_nil, Nat.sub_zero,
    List.take_length]
  rfl

end Name

/-- The attribute that an entry is written as. -/
def Entry.attribute (e : Entry) : Attribute :=
  ⟨.ofArcs e.type, .primitive e.kind.tagNumber, e.contents⟩

namespace Entries

variable {es : Entries} {encoded : Bytes}

theorem writeSet?_eq_some {e : Entry} (h : writeSet? e = some encoded) :
    encoded = Name.writeSet [e.attribute] := by
  unfold writeSet? at h
  obtain ⟨type, htype, h⟩ := Option.bind_eq_some_iff.1 h
  cases h
  have hattribute : e.attribute = ⟨type, .primitive e.kind.tagNumber, e.contents⟩ := by
    rw [Entry.attribute, ObjectId.ofArcs, htype, Option.getD_some]
  rw [hattribute, Name.writeSet, List.map_singleton, List.flatten_singleton]
  rfl

theorem mapM_writeSet?_eq_some {parts : List Bytes} (h : es.mapM writeSet? = some parts) :
    parts = (es.map fun e => [e.attribute]).map Name.writeSet := by
  induction es generalizing parts with
  | nil =>
    cases h
    rfl
  | cons e es ih =>
    rw [List.mapM_cons] at h
    obtain ⟨first, hfirst, h⟩ := Option.bind_eq_some_iff.1 h
    obtain ⟨rest, hrest, h⟩ := Option.bind_eq_some_iff.1 h
    cases h
    rw [writeSet?_eq_some hfirst, ih hrest]
    rfl

/-- A name is written as the sequence of the sets of its entries. -/
theorem write?_eq_some (h : es.write? = some encoded) :
    encoded = Der.sequence ((es.map fun e => [e.attribute]).map Name.writeSet) := by
  unfold write? at h
  obtain ⟨parts, hparts, h⟩ := Option.bind_eq_some_iff.1 h
  cases h
  rw [mapM_writeSet?_eq_some hparts]

theorem tagNumber_lt (kind : StringKind) : kind.tagNumber < 31 := by
  cases kind <;> decide

/-- Entries that were written are read as a name with a set for each of them. -/
theorem read_of_write? (h : es.write? = some encoded) (hlen : encoded.length < 2 ^ 64)
    (rest : Bytes) :
    Name.read (encoded ++ rest) = some (⟨es.map fun e => [e.attribute], encoded⟩, rest) := by
  obtain rfl := write?_eq_some h
  refine Name.read_write ?_ ?_ hlen rest
  · intro as has
    obtain ⟨e, -, rfl⟩ := List.mem_map.1 has
    exact List.cons_ne_nil _ _
  · intro as has a ha
    obtain ⟨e, -, rfl⟩ := List.mem_map.1 has
    obtain rfl := List.mem_singleton.1 ha
    exact tagNumber_lt e.kind

/-- A name that was written from entries is read back with their attributes, each on its own. -/
theorem eq_of_read {n : Name} (h : es.write? = some encoded) (hlen : encoded.length < 2 ^ 64)
    (hread : Name.read encoded = some (n, [])) :
    n = ⟨es.map fun e => [e.attribute], encoded⟩ := by
  have hwritten := read_of_write? h hlen []
  rw [List.append_nil] at hwritten
  cases hread.symm.trans hwritten
  rfl

end Entries

-- =========================================================== written again

namespace Name

/-- No type is given twice, and every attribute is spelled as entries are. -/
structure Canonical (n : Name) : Prop where
  nodup : (n.attributes.map (·.type.arcs?)).Nodup
  type : ∀ a ∈ n.attributes, ∀ arcs, a.type.arcs? = some arcs → ObjectId.ofArcs arcs = a.type
  tag : ∀ a ∈ n.attributes, Tag.primitive a.tag.number = a.tag

variable {as : List Attribute} {found : List Entry}

theorem attributes_singletons (as : List Attribute) (encoded : Bytes) :
    attributes ⟨as.map ([·]), encoded⟩ = as := by
  rw [attributes, ← List.flatMap_def, List.flatMap_singleton']

/-- What is written of entries is canonical if their types are told apart. -/
theorem canonical_written {es : Entries} (hnodup : (es.map (·.type)).Nodup)
    (hspelled : ∀ e ∈ es, (ObjectId.ofArcs e.type).arcs? = some e.type) (encoded : Bytes) :
    Canonical ⟨es.map fun e => [e.attribute], encoded⟩ := by
  have hattributes :
      attributes ⟨es.map fun e => [e.attribute], encoded⟩ = es.map (·.attribute) := by
    rw [← attributes_singletons (es.map (·.attribute)) encoded, List.map_map]
    rfl
  have htypes : (es.map (·.attribute)).map (·.type.arcs?) = (es.map (·.type)).map some := by
    rw [List.map_map, List.map_map]
    exact List.map_congr_left fun e he => hspelled e he
  refine ⟨?_, ?_, ?_⟩
  · rw [hattributes, htypes]
    exact hnodup.map fun _ _ => Option.some.inj
  · intro a ha arcs harcs
    rw [hattributes] at ha
    obtain ⟨e, he, rfl⟩ := List.mem_map.1 ha
    cases (hspelled e he).symm.trans harcs
    rfl
  · intro a ha
    rw [hattributes] at ha
    obtain ⟨e, -, rfl⟩ := List.mem_map.1 ha
    rfl

/-- The entries have the types of the attributes that give them. -/
theorem map_arcs?_eq (h : List.Forall₂ Entries.Gives as found) :
    as.map (·.type.arcs?) = (found.map (·.type)).map some := by
  induction h with
  | nil => rfl
  | cons hgives hall ih => rw [List.map_cons, ih, hgives.type]; rfl

/-- Attributes give no type twice if their entries have none twice. -/
theorem nodup_arcs?_iff (h : List.Forall₂ Entries.Gives as found) :
    (as.map (·.type.arcs?)).Nodup ↔ (found.map (·.type)).Nodup := by
  rw [map_arcs?_eq h]
  exact List.nodup_map_iff fun _ _ => Option.some.inj

/-- Attributes are written as they were when the types and the tags they had are the ones
that are written. -/
theorem map_attribute_eq_iff (h : List.Forall₂ Entries.Gives as found) :
    found.map (·.attribute) = as
      ↔ (∀ a ∈ as, ∀ arcs, a.type.arcs? = some arcs → ObjectId.ofArcs arcs = a.type)
        ∧ ∀ a ∈ as, Tag.primitive a.tag.number = a.tag := by
  induction h with
  | nil => simp
  | @cons a e as found hgives hall ih =>
    have hattribute : e.attribute = a
        ↔ (∀ arcs, a.type.arcs? = some arcs → ObjectId.ofArcs arcs = a.type)
          ∧ Tag.primitive a.tag.number = a.tag := by
      obtain ⟨type, tag, value⟩ := a
      rw [Entry.attribute, Attribute.mk.injEq, hgives.type, ← hgives.tag, hgives.contents]
      simp
    rw [List.map_cons, List.cons.injEq, hattribute, ih, List.forall_mem_cons, List.forall_mem_cons]
    tauto

/-- A name that was taken apart and is written again has the sets it had exactly if
it is canonical. -/
theorem sets_eq_iff {n : Name} {es : Entries} (h : Entries.ofName n = .ok es) :
    es.map (fun e => [e.attribute]) = n.sets ↔ n.Canonical := by
  obtain ⟨sets, encoded⟩ := n
  obtain ⟨as, found, rfl, hall, rfl⟩ := Entries.ofSets_eq_ok h
  have hsingle : Function.Injective fun a : Attribute => [a] := fun _ _ h => List.singleton_inj.1 h
  have hsets : (Entries.putAll [] found).map (fun e => [e.attribute])
      = ((Entries.putAll [] found).map (·.attribute)).map ([·]) := by
    rw [List.map_map]
    rfl
  show (Entries.putAll [] found).map (fun e => [e.attribute]) = as.map ([·]) ↔ _
  rw [hsets, (List.map_injective_iff.2 hsingle).eq_iff]
  constructor
  · intro hsame
    -- no entry is lost
    have hlength := congrArg List.length hsame
    rw [List.length_map, hall.length_eq] at hlength
    have hone : ∀ e : Entry, [e] ≠ [] := fun e => List.cons_ne_nil e []
    obtain ⟨hnodup, hkept⟩ := (Entries.kept_or_length_lt hone found).resolve_right fun hlt => by
      rw [List.flatMap_singleton', List.flatMap_singleton', hlength] at hlt
      exact Nat.lt_irrefl _ hlt
    rw [hkept] at hsame
    obtain ⟨htype, htag⟩ := (map_attribute_eq_iff hall).1 hsame
    rw [← attributes_singletons as encoded] at htype htag
    refine ⟨?_, htype, htag⟩
    rw [attributes_singletons]
    exact (nodup_arcs?_iff hall).2 hnodup
  · rintro ⟨hnodup, htype, htag⟩
    rw [attributes_singletons] at hnodup htype htag
    rw [nodup_arcs?_iff hall] at hnodup
    rw [Entries.putAll_nil_of_nodup hnodup]
    exact (map_attribute_eq_iff hall).2 ⟨htype, htag⟩

end Name

end Enrollment
