/-
What remains of a name that is written from entries.

Entries are put in one after the other, each in the place of an earlier one of
its type.  So the types stand in the order in which they come first
(`types_putAll`), and under each of them stands the last entry of the type
(`find?_putAll`), which together say what entries there are
(`putAll_nil_eq`).  In terms of names: of the attributes of each type the last
is left, in the place of the first (`carried_of_ofName`).
-/
import Enrollment.Proofs.Name.Written

namespace Enrollment

open Der

-- ================================================================ entries

namespace Entries

variable {es : Entries}

/-- The entry that was put in is the one of its type, and the others stay. -/
theorem find?_put (e : Entry) (es : Entries) (type : List Nat) :
    (put e es).find? (·.type = type)
      = if e.type = type then some e else es.find? (·.type = type) := by
  induction es with
  | nil =>
    rw [put, List.find?_singleton]
    simp
  | cons first es ih =>
    rw [put]
    by_cases hfirst : first.type = e.type
    · rw [if_pos hfirst, List.find?_cons, List.find?_cons, hfirst]
      by_cases htype : e.type = type <;> simp [htype]
    · rw [if_neg hfirst, List.find?_cons, List.find?_cons, ih]
      by_cases htype : first.type = type
      · have hne : e.type ≠ type := fun h => hfirst (htype.trans h.symm)
        simp [htype, hne]
      · simp [htype]

theorem putAll_concat (es : Entries) (found : List Entry) (e : Entry) :
    putAll es (found ++ [e]) = put e (putAll es found) :=
  List.foldl_concat ..

/-- The types stand in the order in which they come first. -/
theorem types_putAll (found : List Entry) :
    (putAll [] found).map (·.type) = (found.map (·.type)).eraseDups := by
  induction found using List.reverseRecOn with
  | nil => rfl
  | append_singleton found e ih =>
    have hmem : e.type ∈ (found.map (·.type)).eraseDups ↔ e.type ∈ found.map (·.type) :=
      List.mem_eraseDups
    rw [putAll_concat, types_put, ih, List.map_append, List.map_singleton, List.eraseDups_append]
    by_cases hold : e.type ∈ found.map (·.type)
    · have hnone : [e.type].removeAll (found.map (·.type)) = [] := by
        rw [List.removeAll, List.filter_singleton, List.elem_iff.2 hold]
        rfl
      rw [if_pos (hmem.2 hold), hnone, List.eraseDups_nil, List.append_nil]
    · have hone : [e.type].removeAll (found.map (·.type)) = [e.type] := by
        rw [List.removeAll, List.filter_singleton, Bool.eq_false_iff.2 (mt List.elem_iff.1 hold)]
        rfl
      rw [if_neg (mt hmem.1 hold), hone]
      rfl

/-- Of the entries of a type, the last is left. -/
theorem find?_putAll (found : List Entry) (type : List Nat) :
    (putAll [] found).find? (·.type = type) = found.reverse.find? (·.type = type) := by
  induction found using List.reverseRecOn with
  | nil => rfl
  | append_singleton found e ih =>
    rw [putAll_concat, find?_put, ih, List.reverse_append, List.reverse_singleton,
      List.singleton_append, List.find?_cons]
    by_cases htype : e.type = type <;> simp [htype]

/-- Entries that are told apart by their types are found by them. -/
theorem eq_filterMap_find? (h : (es.map (·.type)).Nodup) :
    es = (es.map (·.type)).filterMap fun type => es.find? (·.type = type) := by
  induction es with
  | nil => rfl
  | cons first es ih =>
    obtain ⟨hnew, hnodup⟩ : first.type ∉ es.map (·.type) ∧ (es.map (·.type)).Nodup :=
      List.nodup_cons.1 h
    have hrest : ∀ type ∈ es.map (·.type),
        (first :: es).find? (·.type = type) = es.find? (·.type = type) := by
      intro type htype
      have hne : first.type ≠ type := fun hsame => hnew (hsame ▸ htype)
      rw [List.find?_cons]
      simp [hne]
    rw [List.map_cons, List.filterMap_cons, List.filterMap_congr hrest, ← ih hnodup]
    simp

/-- What is left of entries that were put in one after the other: the last of each
type, in the order in which the types come first. -/
theorem putAll_nil_eq (found : List Entry) :
    putAll [] found
      = (found.map (·.type)).eraseDups.filterMap fun type =>
          found.reverse.find? (·.type = type) := by
  have hempty : (([] : Entries).map (·.type)).Nodup := List.nodup_nil
  have hkept := eq_filterMap_find? (nodup_putAll hempty found)
  rw [types_putAll] at hkept
  rw [hkept]
  exact List.filterMap_congr fun type _ => find?_putAll found type

end Entries

-- ================================================================== names

/-- The attribute with its type and its tag spelled as usual. -/
def Attribute.respelled (a : Attribute) : Attribute :=
  ⟨(a.type.arcs?.map ObjectId.ofArcs).getD a.type, .primitive a.tag.number, a.value⟩

namespace Name

variable {as : List Attribute} {found : List Entry}

/-- The types of attributes that can be told, in order. -/
def types (as : List Attribute) : List (List Nat) :=
  as.filterMap (·.type.arcs?)

/-- What is left of attributes of which one is kept for each type: the last of the
type, in the place of the first. -/
def remaining (as : List Attribute) : List Attribute :=
  (types as).eraseDups.filterMap fun type => as.reverse.find? (·.type.arcs? = some type)

/-- The types that can be told are those of the entries. -/
theorem types_of_gives (h : List.Forall₂ Entries.Gives as found) :
    types as = found.map (·.type) := by
  have hsome := congrArg (List.filterMap id) (map_arcs?_eq h)
  rw [List.filterMap_map, List.filterMap_map, Function.id_comp, Function.id_comp,
    List.filterMap_some] at hsome
  exact hsome

theorem attribute_of_gives {a : Attribute} {e : Entry} (h : Entries.Gives a e) :
    e.attribute = a.respelled := by
  rw [Attribute.respelled, Entry.attribute, h.type, h.tag, h.contents]
  rfl

/-- The entry of a type stands for the attribute that is found with it. -/
theorem find?_of_gives (h : List.Forall₂ Entries.Gives as found) (type : List Nat) :
    (found.find? (·.type = type)).map Entry.attribute
      = (as.find? (·.type.arcs? = some type)).map Attribute.respelled := by
  induction h with
  | nil => rfl
  | @cons a e as found hgives hall ih =>
    rw [List.find?_cons, List.find?_cons, hgives.type]
    by_cases htype : e.type = type
    · simp [htype, attribute_of_gives hgives]
    · simp [htype, ih]

/-- What attributes leave as entries is what remains of them. -/
theorem map_attribute_putAll (h : List.Forall₂ Entries.Gives as found) :
    (Entries.putAll [] found).map Entry.attribute = (remaining as).map Attribute.respelled := by
  rw [Entries.putAll_nil_eq, remaining, types_of_gives h, List.map_filterMap, List.map_filterMap]
  exact List.filterMap_congr fun type _ =>
    find?_of_gives (List.rel_reverse h) type

/-- What became of a name that was asked for. -/
structure Carried (asked given : Name) : Prop where
  single : asked.sets = asked.attributes.map ([·])
  sets : given.sets = (remaining asked.attributes).map fun a => [a.respelled]
  kept : given.sets = asked.sets ↔ asked.Canonical

/-- What is carried over of a name is what remains of its attributes. -/
theorem carried_of_ofName {n : Name} {es : Entries} (h : Entries.ofName n = .ok es)
    (encoded : Bytes) : Carried n ⟨es.map fun e => [e.attribute], encoded⟩ := by
  have hkept := sets_eq_iff h
  obtain ⟨sets, _⟩ := n
  obtain ⟨as, found, rfl, hall, rfl⟩ := Entries.ofSets_eq_ok h
  refine ⟨?_, ?_, hkept⟩
  · rw [attributes_singletons]
  · rw [attributes_singletons, ← Function.comp_def ([·]) Attribute.respelled, ← List.map_map,
      ← map_attribute_putAll hall, List.map_map]
    rfl

end Name

end Enrollment
