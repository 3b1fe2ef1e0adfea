/-
Names by their text, when one was taken apart into entries and written again.

The text of a name is not escaped, so in general it does not tell what the
name was.  It does tell here: `text_eq_iff` says that the name that was
written again has the text of the old one exactly when the old one is
`Regular`, that is, gives no type twice and has no type in an unusual
spelling that takes its label away.

What makes it so is that no label has an equals sign.  The equals signs of a
text therefore tell of every attribute, and one that was lost is missed
(`equals_line`); and where none was lost,
the first equals sign shows where the first label ends, which is the start
of an induction (`line_injective`).
-/
import Enrollment.Name.Text
import Enrollment.Proofs.Name.Entries
import Enrollment.Proofs.Name.Label

namespace Enrollment

open Der

-- ================================================================== lines

namespace Name

/-- The text of attributes, each in a set of its own, from their labels and
values. -/
def line (cs : List (String × String)) : List Char :=
  ", ".toList.intercalate (cs.map fun c => c.1.toList ++ '=' :: c.2.toList)

/-- What follows an attribute in a line. -/
def lineTail (cs : List (String × String)) : List Char :=
  if cs.isEmpty then [] else ", ".toList ++ line cs

theorem line_cons (c : String × String) (cs : List (String × String)) :
    line (c :: cs) = c.1.toList ++ '=' :: (c.2.toList ++ lineTail cs) := by
  cases cs with
  | nil => simp [line, lineTail]
  | cons d cs =>
    unfold line lineTail
    rw [List.map_cons, List.map_cons, List.intercalate_cons_cons, List.isEmpty_cons,
      if_neg (by decide)]
    simp only [List.append_assoc, List.cons_append]
    rfl

/-- The equals signs of a text. -/
def equals (cs : List Char) : List Char :=
  cs.filter (· == '=')

theorem equals_append (cs ds : List Char) : equals (cs ++ ds) = equals cs ++ equals ds :=
  List.filter_append cs ds

theorem equals_cons (cs : List Char) : equals ('=' :: cs) = '=' :: equals cs := rfl

theorem equals_eq_nil {cs : List Char} (h : '=' ∉ cs) : equals cs = [] := by
  rw [equals, List.filter_eq_nil_iff]
  intro c hc heq
  exact h (beq_iff_eq.1 heq ▸ hc)

/-- What separates attributes holds no equals sign. -/
theorem equals_lineTail (cs : List (String × String)) :
    equals (lineTail cs) = equals (line cs) := by
  unfold lineTail
  split
  case isTrue h =>
    rw [List.isEmpty_iff.1 h]
    rfl
  case isFalse => rw [equals_append, equals_eq_nil (by decide), List.nil_append]

/-- The equals signs of a line are those of the values and one in front of each. -/
theorem equals_line {cs : List (String × String)} (h : ∀ c ∈ cs, '=' ∉ c.1.toList) :
    equals (line cs) = cs.flatMap fun c => '=' :: equals c.2.toList := by
  induction cs with
  | nil => rfl
  | cons c cs ih =>
    have hrest := ih fun d hd => h d (List.mem_cons_of_mem _ hd)
    rw [line_cons, equals_append, equals_eq_nil (h c List.mem_cons_self), List.nil_append,
      equals_cons, equals_append, equals_lineTail, hrest]
    rfl

/-- What stands in front of a first character, and what follows it. -/
theorem append_cons_inj {c : Char} {front front' back back' : List Char} (h : c ∉ front)
    (h' : c ∉ front') (heq : front ++ c :: back = front' ++ c :: back') :
    front = front' ∧ back = back' := by
  induction front generalizing front' with
  | nil =>
    cases front' with
    | nil => exact ⟨rfl, (List.cons.inj heq).2⟩
    | cons d front' =>
      obtain ⟨rfl, -⟩ := List.cons.inj heq
      exact absurd List.mem_cons_self h'
  | cons d front ih =>
    cases front' with
    | nil =>
      obtain ⟨rfl, -⟩ := List.cons.inj heq
      exact absurd List.mem_cons_self h
    | cons d' front' =>
      obtain ⟨hfirst, hrest⟩ := List.cons.inj heq
      obtain ⟨hfront, hback⟩ := ih (fun hmem => h (List.mem_cons_of_mem _ hmem))
        (fun hmem => h' (List.mem_cons_of_mem _ hmem)) hrest
      exact ⟨by rw [hfirst, hfront], hback⟩

/-- Lines with the same values are lines of the same labels. -/
theorem line_injective {cs ds : List (String × String)} (hc : ∀ c ∈ cs, '=' ∉ c.1.toList)
    (hd : ∀ d ∈ ds, '=' ∉ d.1.toList) (hvalues : cs.map (·.2) = ds.map (·.2))
    (h : line cs = line ds) : cs = ds := by
  -- the first equals sign ends the first label, and as the values agree, what follows is
  -- divided alike
  induction cs generalizing ds with
  | nil =>
    cases ds with
    | nil => rfl
    | cons d ds => cases hvalues
  | cons c cs ih =>
    cases ds with
    | nil => cases hvalues
    | cons d ds =>
      rw [List.map_cons, List.map_cons, List.cons.injEq] at hvalues
      obtain ⟨hvalue, hvalues⟩ := hvalues
      rw [line_cons, line_cons, hvalue] at h
      obtain ⟨hlabel, hback⟩ :=
        append_cons_inj (hc c List.mem_cons_self) (hd d List.mem_cons_self) h
      have htail := List.append_cancel_left hback
      have hsame : cs = ds := by
        cases cs with
        | nil =>
          cases ds with
          | nil => rfl
          | cons e ds => cases hvalues
        | cons b cs =>
          cases ds with
          | nil => cases hvalues
          | cons e ds =>
            exact ih (fun x hx => hc x (List.mem_cons_of_mem _ hx))
              (fun x hx => hd x (List.mem_cons_of_mem _ hx)) hvalues
              (List.append_cancel_left htail)
      rw [hsame, Prod.ext (String.toList_inj.1 hlabel) hvalue]

-- ================================================================= values

/-- The text of a value; empty for one that has none. -/
def valueText (a : Attribute) : String :=
  (valueText? a).getD ""

/-- The label and the value of an attribute. -/
def component (a : Attribute) : String × String :=
  (AttributeType.label a.type, valueText a)

/-- No label of an attribute holds an equals sign. -/
theorem equals_not_mem_component {as : List Attribute} :
    ∀ c ∈ as.map component, '=' ∉ c.1.toList := by
  intro c hc
  obtain ⟨a, -, rfl⟩ := List.mem_map.1 hc
  exact AttributeType.equals_not_mem_label a.type

theorem setText?_singleton {a : Attribute} (h : (valueText? a).isSome) :
    setText? [a] = some (AttributeType.label a.type ++ "=" ++ valueText a) := by
  obtain ⟨value, hvalue⟩ := Option.isSome_iff_exists.1 h
  unfold setText? attributeText? valueText
  rw [List.mapM_cons, List.mapM_nil, hvalue]
  rfl

/-- The text of a name with single attributes, of which all values have a text. -/
theorem toList_text {as : List Attribute} (h : ∀ a ∈ as, (valueText? a).isSome)
    (encoded : Bytes) :
    (text ⟨as.map ([·]), encoded⟩).toList = line (as.map component) := by
  have htexts : (as.map ([·])).mapM setText?
      = some (as.map fun a => AttributeType.label a.type ++ "=" ++ valueText a) :=
    mapM_map_eq_pure fun a ha => setText?_singleton (h a ha)
  unfold text
  rw [htexts, String.toList_intercalate, line, List.map_map, List.map_map]
  refine congrArg _ (List.map_congr_left fun a _ => ?_)
  simp only [Function.comp_apply, component, String.toList_append, List.append_assoc]
  rfl

/-- What is allowed as two-byte characters can be decoded. -/
theorem ofUnits?_units {bs : Bytes} (h : StringKind.isBmp bs = true) :
    (ofUnits? (units bs)).isSome := by
  fun_induction StringKind.isBmp bs with
  | case1 => rfl
  | case2 => cases h
  | case3 a b rest n ih =>
    rw [Bool.and_eq_true] at h
    have hplain : n < 0xD800 ∨ 0xDFFF < n := by
      have hn := h.1
      simp only [Bool.or_eq_true, Bool.and_eq_true, decide_eq_true_eq] at hn
      omega
    rw [units]
    unfold ofUnits?
    rw [if_pos hplain, Option.isSome_map]
    exact ih h.2

/-- What is checked of a kind of string: wide characters, or UTF-8 in a kind whose
bytes are shown as such. -/
theorem check_eq_ok {kind : StringKind} {contents : Bytes} (h : kind.check contents = .ok ()) :
    (kind = .bmp ∧ StringKind.isBmp contents = true) ∨ kind = .universal
      ∨ (plainStrings.contains kind.tagNumber = true ∧ (Utf8.decodeChars? contents).isSome) := by
  unfold StringKind.check at h
  split at h
  case h_1 =>
    split at h
    case isTrue hbmp => exact .inl ⟨rfl, hbmp⟩
    case isFalse => cases h
  case h_2 => exact .inr (.inl rfl)
  case h_3 hbmp huniversal =>
    split at h
    case h_1 => cases h
    case h_2 cs hcs =>
      refine .inr (.inr ⟨?_, by rw [hcs]; rfl⟩)
      cases kind with
      | bmp => exact absurd rfl hbmp
      | universal => exact absurd rfl huniversal
      | utf8 => decide
      | printable => decide
      | ia5 => decide
      | teletex => decide

/-- The value of an attribute that is taken as an entry has a text. -/
theorem valueText?_isSome {a : Attribute} {e : Entry} (h : Entries.Gives a e) :
    (valueText? a).isSome := by
  rcases check_eq_ok h.check with ⟨hkind, hbmp⟩ | hkind | ⟨hplain, hdecode⟩
  · have htag : StringKind.bmp.tagNumber = TagNumber.bmpString := rfl
    rw [valueText?, h.tag, hkind, if_neg (by decide), if_pos htag, Option.isSome_map]
    exact ofUnits?_units hbmp
  · rw [valueText?, h.tag, hkind, if_neg (by decide), if_neg (by decide)]
    rfl
  · rw [valueText?, h.tag, if_pos hplain, Utf8.decode?, Option.isSome_map]
    exact hdecode

/-- A value is shown by its number and contents, which an entry keeps. -/
theorem valueText?_attribute {a : Attribute} {e : Entry} (h : Entries.Gives a e) :
    valueText? e.attribute = valueText? a := by
  unfold valueText? Entry.attribute Tag.primitive
  rw [h.tag, h.contents]

-- =========================================================== written again

/-- No type is given twice, and no type loses its label when it is spelled as
usual. -/
structure Regular (n : Name) : Prop where
  nodup : (n.attributes.map (·.type.arcs?)).Nodup
  label : ∀ a ∈ n.attributes, ∀ arcs, a.type.arcs? = some arcs →
    AttributeType.label (.ofArcs arcs) = AttributeType.label a.type

theorem Canonical.regular {n : Name} (h : n.Canonical) : n.Regular :=
  ⟨h.nodup, fun a ha arcs harcs => congrArg AttributeType.label (h.type a ha arcs harcs)⟩

variable {as : List Attribute} {found : List Entry}

/-- Attributes and the entries they give have the same values. -/
theorem map_valueText_eq (h : List.Forall₂ Entries.Gives as found) :
    (found.map (·.attribute)).map valueText = as.map valueText := by
  induction h with
  | nil => rfl
  | cons hgives hall ih =>
    rw [List.map_cons, List.map_cons, ih, valueText, valueText?_attribute hgives]
    rfl

/-- Attributes have the components of what their entries are written as exactly if
no label is lost. -/
theorem map_component_eq_iff (h : List.Forall₂ Entries.Gives as found) :
    (found.map (·.attribute)).map component = as.map component
      ↔ ∀ a ∈ as, ∀ arcs, a.type.arcs? = some arcs →
        AttributeType.label (.ofArcs arcs) = AttributeType.label a.type := by
  induction h with
  | nil => simp
  | @cons a e as found hgives hall ih =>
    have hcomponent : component e.attribute = component a
        ↔ ∀ arcs, a.type.arcs? = some arcs →
          AttributeType.label (.ofArcs arcs) = AttributeType.label a.type := by
      unfold component valueText
      rw [valueText?_attribute hgives, Prod.mk.injEq, hgives.type]
      simp [Entry.attribute]
    rw [List.map_cons, List.map_cons, List.map_cons, List.cons.injEq, hcomponent, ih,
      List.forall_mem_cons]

theorem isSome_of_forall₂ (h : List.Forall₂ Entries.Gives as found) :
    (∀ a ∈ as, (valueText? a).isSome) ∧ ∀ e ∈ found, (valueText? e.attribute).isSome := by
  induction h with
  | nil => exact ⟨fun a ha => (by cases ha), fun e he => (by cases he)⟩
  | cons hgives hall ih =>
    have hvalue := valueText?_isSome hgives
    refine ⟨List.forall_mem_cons.2 ⟨hvalue, ih.1⟩, List.forall_mem_cons.2 ⟨?_, ih.2⟩⟩
    rw [valueText?_attribute hgives]
    exact hvalue

/-- What an entry adds to the equals signs of a line. -/
def equalsOf (e : Entry) : List Char :=
  '=' :: equals (valueText e.attribute).toList

/-- The equals signs of a line are those that its entries add. -/
theorem equals_line_attributes (es : Entries) :
    equals (line ((es.map (·.attribute)).map component)) = es.flatMap equalsOf := by
  rw [equals_line equals_not_mem_component, List.flatMap_map, List.flatMap_map]
  rfl

/-- The equals signs of a line are those of the entries that its attributes give. -/
theorem equals_line_eq (h : List.Forall₂ Entries.Gives as found) :
    equals (line (as.map component)) = found.flatMap equalsOf := by
  calc equals (line (as.map component))
      = (as.map component).flatMap fun c => '=' :: equals c.2.toList :=
        equals_line equals_not_mem_component
    _ = (as.map valueText).flatMap fun value => '=' :: equals value.toList := by
        rw [List.flatMap_map, List.flatMap_map]
        rfl
    _ = found.flatMap equalsOf := by
        rw [← map_valueText_eq h, List.flatMap_map, List.flatMap_map]
        rfl

/-- A name of entries is shown as a line of their attributes. -/
theorem text_putAll (h : List.Forall₂ Entries.Gives as found) (encoded : Bytes) :
    (text ⟨(Entries.putAll [] found).map fun e => [e.attribute], encoded⟩).toList
      = line (((Entries.putAll [] found).map (·.attribute)).map component) := by
  have hvalues : ∀ a ∈ (Entries.putAll [] found).map (·.attribute), (valueText? a).isSome := by
    intro a ha
    obtain ⟨e, he, rfl⟩ := List.mem_map.1 ha
    rcases Entries.mem_putAll he with hnone | hfound
    · cases hnone
    · exact (isSome_of_forall₂ h).2 e hfound
  rw [← toList_text hvalues encoded, List.map_map]
  rfl

/-- A name that was taken apart and is written again has the text it had exactly if
it is regular. -/
theorem text_eq_iff {n : Name} {es : Entries} (h : Entries.ofName n = .ok es) (encoded : Bytes) :
    text ⟨es.map fun e => [e.attribute], encoded⟩ = n.text ↔ n.Regular := by
  obtain ⟨sets, whole⟩ := n
  obtain ⟨as, found, rfl, hall, rfl⟩ := Entries.ofSets_eq_ok h
  rw [← String.toList_inj, text_putAll hall, toList_text (isSome_of_forall₂ hall).1]
  constructor
  · intro hline
    -- no equals sign is lost, so no entry is
    have hequals := congrArg equals hline
    rw [equals_line_attributes, equals_line_eq hall] at hequals
    have hne : ∀ e, equalsOf e ≠ [] := fun e => List.cons_ne_nil _ _
    obtain ⟨hnodup, hkept⟩ := (Entries.kept_or_length_lt hne found).resolve_right fun hlt => by
      rw [hequals] at hlt
      exact Nat.lt_irrefl _ hlt
    rw [hkept] at hline
    have hcomponents := line_injective equals_not_mem_component equals_not_mem_component
      (by rw [List.map_map, List.map_map (f := component) (l := as)]; exact map_valueText_eq hall)
      hline
    refine ⟨?_, ?_⟩
    · rw [attributes_singletons]
      exact (nodup_arcs?_iff hall).2 hnodup
    · rw [attributes_singletons]
      exact (map_component_eq_iff hall).1 hcomponents
  · rintro ⟨hnodup, hlabel⟩
    rw [attributes_singletons, nodup_arcs?_iff hall] at hnodup
    rw [attributes_singletons] at hlabel
    rw [Entries.putAll_nil_of_nodup hnodup,
      (map_component_eq_iff hall).2 hlabel]

end Name

end Enrollment
