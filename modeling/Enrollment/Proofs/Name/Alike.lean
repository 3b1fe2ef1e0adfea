/-
Names that have one text.

Names that cannot be decoded all have one text (`text_eq_undecodable_iff`).  Of the others
a name is told by its text among all names exactly if it is `Lone`, that is, has no more
than one attribute, with a text in which nothing looks like a further one and which is not
that of bytes (`same_of_lone`).  Every other name has a double (`exists_double`): all that
follows the first equals sign may be one value, a value may be two attributes, and digits
may be bytes.

Among themselves more names are told apart: two whose values are all texts in which nothing
looks like a further attribute (`Plain`) are the same if they have one text
(`same_of_text_eq`).
-/
import Enrollment.Proofs.Name.Pieces
import Enrollment.Proofs.Text.Utf8

namespace Enrollment

open Der

-- ============================================================== same names

/-- Attributes of one type with one value. -/
structure Attribute.Same (a b : Attribute) : Prop where
  type : a.type.Same b.type
  value : ∃ v, a.decoded? = some v ∧ b.decoded? = some v

namespace Name

/-- The same attributes in the same sets. -/
def Same (n m : Name) : Prop :=
  List.Forall₂ (List.Forall₂ Attribute.Same) n.sets m.sets

variable {n m : Name}

/-- All values are texts in which nothing looks like a further attribute. -/
def Plain (n : Name) : Prop :=
  ∀ a ∈ n.attributes, ∃ value, a.decoded? = some (.text value) ∧ ¬Divides value.toList

theorem Plain.decodes (h : n.Plain) : n.Decodes := by
  intro a ha
  obtain ⟨value, hvalue, -⟩ := h a ha
  exact Option.isSome_of_eq_some hvalue

/-- The first attribute of a name that has one. -/
theorem Proper.exists_first (hproper : n.Proper) (hsome : n.sets ≠ []) :
    ∃ a as rest, n.sets = (a :: as) :: rest := by
  obtain ⟨set, rest, hsets⟩ := List.exists_cons_of_ne_nil hsome
  obtain ⟨a, as, rfl⟩ := List.exists_cons_of_ne_nil (hproper set (hsets ▸ List.mem_cons_self))
  exact ⟨a, as, rest, hsets⟩

/-- The text of a name goes on behind its first equals sign with the value of the first
attribute. -/
theorem toList_text_cons {a : Attribute} {as : List Attribute} {rest : List (List Attribute)}
    (hproper : n.Proper) (hdecodes : n.Decodes) (hsets : n.sets = (a :: as) :: rest) :
    n.text.toList = (AttributeType.label a.type).toList ++ '=' :: ((valueText a).toList
      ++ (as.map (false, ·) ++ pieces rest).flatMap piece) := by
  have htext := append_text hproper hdecodes (by rw [hsets]; exact List.cons_ne_nil _ _)
  rw [hsets, pieces_cons, List.flatMap_cons, piece, lead, List.append_assoc,
    List.append_assoc] at htext
  exact List.append_cancel_left htext

/-- There is an equals sign in the text of a name with an attribute, as there is none in an
empty text and none in the marker of names that cannot be decoded. -/
theorem equals_mem_text (hproper : n.Proper) (hdecodes : n.Decodes) (hsome : n.sets ≠ []) :
    '=' ∈ n.text.toList := by
  obtain ⟨a, as, rest, hsets⟩ := hproper.exists_first hsome
  rw [toList_text_cons hproper hdecodes hsets]
  exact List.mem_append_right _ List.mem_cons_self

theorem text_of_sets_eq_nil (h : n.sets = []) : n.text = "" := by
  rw [text, h]
  rfl

/-- Exactly the names that cannot be decoded have the marker for a text. -/
theorem text_eq_undecodable_iff (hproper : n.Proper) : n.text = undecodable ↔ ¬n.Decodes := by
  constructor
  · intro h hdecodes
    by_cases hnone : n.sets = []
    · rw [text_of_sets_eq_nil hnone] at h
      exact absurd h (by decide)
    · have hmem := equals_mem_text hproper hdecodes hnone
      rw [h] at hmem
      exact absurd hmem (by decide)
  · intro h
    have hnone := Option.not_isSome_iff_eq_none.1 (mt isSome_texts_iff.1 h)
    rw [text, hnone]

/-- Where the text of a name has an equals sign, all its values can be decoded. -/
theorem decodes_of_equals (hproper : n.Proper) (h : '=' ∈ n.text.toList) : n.Decodes := by
  by_contra hnot
  rw [(text_eq_undecodable_iff hproper).2 hnot] at h
  exact absurd h (by decide)

/-- Exactly the names without attributes have no text. -/
theorem text_eq_empty_iff (hproper : n.Proper) : n.text = "" ↔ n.sets = [] := by
  refine ⟨fun h => ?_, text_of_sets_eq_nil⟩
  by_contra hsome
  by_cases hdecodes : n.Decodes
  · have hmem := equals_mem_text hproper hdecodes hsome
    rw [h] at hmem
    cases hmem
  · rw [(text_eq_undecodable_iff hproper).2 hdecodes] at h
    exact absurd h (by decide)

theorem not_divides_nil : ¬Divides [] := by
  rintro ⟨first, type, hinfix⟩
  exact List.append_ne_nil_of_right_ne_nil _ (List.cons_ne_nil _ _)
    (List.eq_nil_of_infix_nil hinfix)

theorem mem_attributes_of_mem_pieces {p : Bool × Attribute} (h : p ∈ pieces n.sets) :
    p.2 ∈ n.attributes := by
  obtain ⟨set, hset, hp⟩ := List.mem_flatMap.1 h
  refine List.mem_flatten_of_mem hset ?_
  cases set with
  | nil => cases hp
  | cons a as =>
    rw [marked, List.mem_cons, List.mem_map] at hp
    rcases hp with rfl | ⟨b, hb, rfl⟩
    · exact List.mem_cons_self
    · exact List.mem_cons_of_mem _ hb

/-- The values of a plain name are shown as they are. -/
theorem Plain.valueText_eq (h : n.Plain) {a : Attribute} (ha : a ∈ n.attributes) :
    a.decoded? = some (.text (valueText a)) ∧ ¬Divides (valueText a).toList := by
  obtain ⟨value, hvalue, hdivides⟩ := h a ha
  have hshown : valueText a = value := by
    rw [valueText, valueText?_eq, hvalue]
    rfl
  rw [hshown]
  exact ⟨hvalue, hdivides⟩

/-- Attributes that are shown alike are the same where their values are texts. -/
theorem ShownAlike.same {a b : Attribute} (h : ShownAlike a b)
    (ha : a.decoded? = some (.text (valueText a)))
    (hb : b.decoded? = some (.text (valueText b))) : a.Same b :=
  ⟨AttributeType.same_of_label_eq h.label, _, ha, h.value ▸ hb⟩

/-- A relation of two lists may be weakened for the elements that are in them. -/
theorem forall₂_of_mem {α β : Type} {R S : α → β → Prop} {as : List α} {bs : List β}
    (h : List.Forall₂ R as bs) (hrel : ∀ a ∈ as, ∀ b ∈ bs, R a b → S a b) :
    List.Forall₂ S as bs := by
  refine List.forall₂_iff_zip.2 ⟨h.length_eq, fun hab => ?_⟩
  obtain ⟨ha, hb⟩ := List.of_mem_zip hab
  exact hrel _ ha _ hb (List.forall₂_zip h hab)

/-- Plain names with one text are the same. -/
theorem same_of_text_eq (hn : n.Proper) (hm : m.Proper) (hplain : n.Plain) (hplain' : m.Plain)
    (h : n.text = m.text) : n.Same m := by
  have hnil_iff : n.sets = [] ↔ m.sets = [] := by
    rw [← text_eq_empty_iff hn, ← text_eq_empty_iff hm, h]
  by_cases hnil : n.sets = []
  · rw [Same, hnil, hnil_iff.1 hnil]
    exact .nil
  have hnil' : m.sets ≠ [] := mt hnil_iff.2 hnil
  have hpieces : [] ++ (pieces n.sets).flatMap piece = [] ++ (pieces m.sets).flatMap piece := by
    rw [← append_text hn hplain.decodes hnil, h, append_text hm hplain'.decodes hnil']
  have hmatches := matches_of_append not_divides_nil not_divides_nil
    (fun p hp => (hplain.valueText_eq (mem_attributes_of_mem_pieces hp)).2)
    (fun q hq => (hplain'.valueText_eq (mem_attributes_of_mem_pieces hq)).2) hpieces
  refine forall₂_of_mem (forall₂_of_pieces hn hm hmatches) fun set hset set' hset' hall => ?_
  refine forall₂_of_mem hall fun a ha b hb hshown => ?_
  exact hshown.same (hplain.valueText_eq (List.mem_flatten_of_mem hset ha)).1
    (hplain'.valueText_eq (List.mem_flatten_of_mem hset' hb)).1

-- ================================================================== lone

/-- No attribute at all, or one with a text in which nothing looks like a further attribute
and which spells no bytes. -/
def Lone (n : Name) : Prop :=
  n.sets = [] ∨ ∃ a value, n.sets = [[a]] ∧ a.decoded? = some (.text value)
    ∧ ¬Divides value.toList ∧ ∀ contents : Bytes, value ≠ contents.toHexUpper

theorem valueText_of_decoded {a : Attribute} {v : AttributeValue} (h : a.decoded? = some v) :
    valueText a = v.shown := by
  rw [valueText, valueText?_eq, h]
  rfl

/-- Only a name without sets has no pieces. -/
theorem sets_of_pieces_eq_nil {sets : List (List Attribute)} (hne : ∀ set ∈ sets, set ≠ [])
    (h : pieces sets = []) : sets = [] := by
  cases sets with
  | nil => rfl
  | cons set sets =>
    obtain ⟨a, as, rfl⟩ := List.exists_cons_of_ne_nil (hne set List.mem_cons_self)
    cases h

/-- A piece behind a value would look like a further attribute in the whole. -/
theorem eq_nil_of_not_divides {cs : List Char} {ps : List (Bool × Attribute)}
    (h : ¬Divides (cs ++ ps.flatMap piece)) : ps = [] := by
  cases ps with
  | nil => rfl
  | cons p ps =>
    refine absurd ⟨p.1, p.2.type, cs, (valueText p.2).toList ++ ps.flatMap piece, ?_⟩ h
    simp [piece]

/-- A text in which nothing looks like a second attribute is that of a name with one. -/
theorem single_of_text {label cs : List Char} (hproper : n.Proper)
    (htext : n.text.toList = label ++ '=' :: cs) (hlabel : '=' ∉ label) (hdivides : ¬Divides cs) :
    n.Decodes ∧ ∃ a, n.sets = [[a]] ∧ (AttributeType.label a.type).toList = label
      ∧ (valueText a).toList = cs := by
  have hdecodes : n.Decodes := decodes_of_equals hproper (by
    rw [htext]
    exact List.mem_append_right _ List.mem_cons_self)
  have hsome : n.sets ≠ [] := fun hnil => by
    rw [text_of_sets_eq_nil hnil] at htext
    exact absurd htext.symm (by simp)
  obtain ⟨a, as, rest, hsets⟩ := hproper.exists_first hsome
  rw [toList_text_cons hproper hdecodes hsets] at htext
  obtain ⟨hsame, hback⟩ := append_cons_inj (AttributeType.equals_not_mem_label _) hlabel htext
  have hpieces := eq_nil_of_not_divides (by rw [hback]; exact hdivides)
  rw [hpieces, List.flatMap_nil, List.append_nil] at hback
  obtain ⟨has, hrest⟩ := List.append_eq_nil_iff.1 hpieces
  have hnil : rest = [] := by
    refine sets_of_pieces_eq_nil (fun set hmem => hproper set ?_) hrest
    rw [hsets]
    exact List.mem_cons_of_mem _ hmem
  rw [List.map_eq_nil_iff.1 has, hnil] at hsets
  exact ⟨hdecodes, a, hsets, hsame, hback⟩

/-- A lone name is the only one with its text. -/
theorem same_of_lone (hn : n.Proper) (hm : m.Proper) (hlone : m.Lone) (h : n.text = m.text) :
    n.Same m := by
  rcases hlone with hnil | ⟨b, value, hset, hvalue, hdivides, hhex⟩
  · rw [text_of_sets_eq_nil hnil] at h
    rw [Same, (text_eq_empty_iff hn).1 h, hnil]
    exact .nil
  have hdecodes : m.Decodes := by
    intro c hc
    rw [attributes, hset, List.flatten_singleton, List.mem_singleton] at hc
    exact Option.isSome_of_eq_some (hc ▸ hvalue)
  have htext : n.text.toList = (AttributeType.label b.type).toList ++ '=' :: value.toList := by
    rw [h, toList_text_cons hm hdecodes hset, valueText_of_decoded hvalue]
    simp [pieces, AttributeValue.shown]
  obtain ⟨hdecodes', a, hsets, hlabel, hshown⟩ :=
    single_of_text hn htext (AttributeType.equals_not_mem_label _) hdivides
  obtain ⟨v, hv⟩ := Option.isSome_iff_exists.1
    (hdecodes' a (by rw [attributes, hsets]; exact List.mem_singleton_self a))
  rw [valueText_of_decoded hv, String.toList_inj] at hshown
  rw [Same, hsets, hset]
  refine .cons (.cons ⟨AttributeType.same_of_label_eq (String.toList_inj.1 hlabel), v, hv, ?_⟩
    .nil) .nil
  -- the value cannot be that of bytes, as the text is not one of digits
  cases v with
  | text characters =>
    cases hshown
    exact hvalue
  | other number contents => exact absurd hshown.symm (hhex contents)

-- ================================================================ doubles

/-- A name as it is written. -/
def written (sets : List (List Attribute)) : Name :=
  ⟨sets, Der.sequence (sets.map writeSet)⟩

/-- A text as an attribute. -/
def utf8 (type : ObjectId) (cs : List Char) : Attribute :=
  ⟨type, .primitive TagNumber.utf8String, Utf8.encodeChars cs⟩

theorem decoded?_utf8 (type : ObjectId) (cs : List Char) :
    (utf8 type cs).decoded? = some (.text (String.ofList cs)) := by
  have hplain : plainStrings.contains (utf8 type cs).tag.number = true :=
    show plainStrings.contains TagNumber.utf8String = true by decide
  have hdecode : Utf8.decode? (utf8 type cs).value = some (String.ofList cs) :=
    Utf8.decode?_encodeChars cs
  rw [Attribute.decoded?, if_pos hplain, hdecode]
  rfl

theorem valueText_utf8 (type : ObjectId) (cs : List Char) :
    (valueText (utf8 type cs)).toList = cs := by
  rw [valueText_of_decoded (decoded?_utf8 type cs)]
  exact String.toList_ofList

/-- Bytes as an attribute that is no string. -/
def octets (type : ObjectId) (contents : Bytes) : Attribute :=
  ⟨type, .primitive TagNumber.octetString, contents⟩

theorem decoded?_octets (type : ObjectId) (contents : Bytes) :
    (octets type contents).decoded? = some (.other TagNumber.octetString contents) := by
  have hplain : ¬plainStrings.contains (octets type contents).tag.number = true :=
    show ¬plainStrings.contains TagNumber.octetString = true by decide
  have hwide : (octets type contents).tag.number ≠ TagNumber.bmpString :=
    show TagNumber.octetString ≠ TagNumber.bmpString by decide
  rw [Attribute.decoded?, if_neg hplain, if_neg hwide]
  rfl

/-- Another name that can be read, has values, and has the same text. -/
structure IsDouble (m n : Name) : Prop where
  read : m.encoded.length < 2 ^ 64 → Name.read m.encoded = some (m, [])
  decodes : m.Decodes
  text : m.text = n.text
  other : ¬m.Same n

/-- Sets that can be written as a name and read again. -/
def Writable (sets : List (List Attribute)) : Prop :=
  ∀ set ∈ sets, set ≠ [] ∧ ∀ a ∈ set, a.tag.number < 31 ∧ a.decoded?.isSome

/-- No set that can be written is empty. -/
theorem Writable.proper {sets : List (List Attribute)} (h : Writable sets) :
    (written sets).Proper :=
  fun set hset => (h set hset).1

/-- All values in sets that can be written can be decoded. -/
theorem Writable.decodes {sets : List (List Attribute)} (h : Writable sets) :
    (written sets).Decodes := by
  intro a ha
  obtain ⟨set, hset, ha⟩ := List.mem_flatten.1 ha
  exact ((h set hset).2 a ha).2

/-- What is written with the text of another name, and is not the same, is a double of it. -/
theorem Writable.isDouble {sets : List (List Attribute)} (h : Writable sets)
    (htext : (written sets).text = n.text) (hother : ¬(written sets).Same n) :
    (written sets).IsDouble n where
  read hlen := by
    have hread := read_write (fun set hset => (h set hset).1)
      (fun set hset a ha => ((h set hset).2 a ha).1) hlen []
    rw [List.append_nil] at hread
    exact hread
  decodes := h.decodes
  text := htext
  other := hother

theorem writable_single {a : Attribute} (htag : a.tag.number < 31) (h : a.decoded?.isSome) :
    Writable [[a]] :=
  List.forall_mem_singleton.2 ⟨List.cons_ne_nil _ _, List.forall_mem_singleton.2 ⟨htag, h⟩⟩

/-- A single attribute is shown as its label, an equals sign and its value. -/
theorem text_single {a : Attribute} (h : Writable [[a]]) :
    (written [[a]]).text.toList = (AttributeType.label a.type).toList ++ '='
      :: (valueText a).toList := by
  rw [toList_text_cons h.proper h.decodes rfl]
  simp [pieces]

/-- Two attributes, in sets of their own or in one. -/
def two (first : Bool) (a b : Attribute) : List (List Attribute) :=
  if first then [[a], [b]] else [[a, b]]

theorem writable_two {first : Bool} {a b : Attribute} (ha : Writable [[a]])
    (hb : Writable [[b]]) : Writable (two first a b) := by
  have ha := (List.forall_mem_singleton.1 ha).2 a List.mem_cons_self
  have hb := (List.forall_mem_singleton.1 hb).2 b List.mem_cons_self
  cases first <;> simp [two, Writable, ha, hb]

/-- Of two attributes, the second is shown as a piece behind the first. -/
theorem text_two {first : Bool} {a b : Attribute} (ha : Writable [[a]]) (hb : Writable [[b]]) :
    (written (two first a b)).text.toList = (AttributeType.label a.type).toList ++ '='
      :: ((valueText a).toList ++ piece (first, b)) := by
  have hwritable : Writable (two first a b) := writable_two ha hb
  cases first with
  | true =>
    rw [toList_text_cons hwritable.proper hwritable.decodes rfl]
    simp [pieces, marked]
  | false =>
    rw [toList_text_cons hwritable.proper hwritable.decodes rfl]
    simp [pieces]

theorem writable_utf8 (type : ObjectId) (cs : List Char) : Writable [[utf8 type cs]] :=
  writable_single (Entries.tagNumber_lt .utf8) (Option.isSome_of_eq_some (decoded?_utf8 type cs))

theorem writable_octets (type : ObjectId) (contents : Bytes) :
    Writable [[octets type contents]] :=
  writable_single (show TagNumber.octetString < 31 by decide)
    (Option.isSome_of_eq_some (decoded?_octets type contents))

/-- What is the same as a name with one attribute has one. -/
theorem exists_of_same_single {b : Attribute} (h : (written [[b]]).Same n) :
    ∃ a, n.sets = [[a]] ∧ b.Same a := by
  obtain ⟨set, rest, hset, hrest, hsets⟩ := List.forall₂_cons_left_iff.1 h
  obtain ⟨a, as, hsame, has, rfl⟩ := List.forall₂_cons_left_iff.1 hset
  rw [List.forall₂_nil_left_iff.1 hrest, List.forall₂_nil_left_iff.1 has] at hsets
  exact ⟨a, hsets, hsame⟩

/-- A text that looks like two attributes is that of a name with two. -/
theorem exists_double_of_divides {a : Attribute} {cs : List Char} (hsets : n.sets = [[a]])
    (htext : n.text.toList = (AttributeType.label a.type).toList ++ '=' :: cs)
    (hdivides : Divides cs) : ∃ m : Name, m.IsDouble n := by
  obtain ⟨first, type, front, back, hcs⟩ := hdivides
  have hwritable : Writable (two first (utf8 a.type front) (utf8 type back)) :=
    writable_two (writable_utf8 _ _) (writable_utf8 _ _)
  refine ⟨_, hwritable.isDouble (String.toList_inj.1 ?_) fun hsame => ?_⟩
  · rw [text_two (writable_utf8 _ _) (writable_utf8 _ _), htext, ← hcs, piece, valueText_utf8,
      valueText_utf8]
    simp [utf8]
  · rw [Same, hsets] at hsame
    cases first <;> simp [written, two] at hsame

/-- A text of hexadecimal digits is that of a name with bytes. -/
theorem exists_double_of_hex {a : Attribute} {value : String} {contents : Bytes}
    (hsets : n.sets = [[a]]) (hvalue : a.decoded? = some (.text value))
    (htext : n.text.toList = (AttributeType.label a.type).toList ++ '=' :: value.toList)
    (hhex : value = contents.toHexUpper) : ∃ m : Name, m.IsDouble n := by
  have hwritable := writable_octets a.type contents
  have hshown : valueText (octets a.type contents) = value := by
    rw [valueText_of_decoded (decoded?_octets _ _), hhex]
    rfl
  refine ⟨_, hwritable.isDouble (String.toList_inj.1 ?_) fun hsame => ?_⟩
  · rw [text_single hwritable, hshown, htext]
    rfl
  · obtain ⟨b, hset, hb⟩ := exists_of_same_single hsame
    cases hset.symm.trans hsets
    obtain ⟨v, hv, hv'⟩ := hb.value
    cases (decoded?_octets _ _).symm.trans hv
    cases hvalue.symm.trans hv'

/-- A name that is not lone has a double: one whose only value is the rest of its text, or
that has its value divided, or bytes in place of digits. -/
theorem exists_double (hproper : n.Proper) (hdecodes : n.Decodes) (hlone : ¬n.Lone) :
    ∃ m : Name, m.IsDouble n := by
  have hsome : n.sets ≠ [] := fun hnil => hlone (.inl hnil)
  obtain ⟨a, as, rest, hsets⟩ := hproper.exists_first hsome
  have htext := toList_text_cons hproper hdecodes hsets
  generalize (valueText a).toList ++ (as.map (false, ·) ++ pieces rest).flatMap piece = cs at htext
  have hwhole : (written [[utf8 a.type cs]]).text = n.text := by
    rw [← String.toList_inj, text_single (writable_utf8 _ _), valueText_utf8, htext]
    rfl
  by_cases hsame : (written [[utf8 a.type cs]]).Same n
  · obtain ⟨b, hset, hb⟩ := exists_of_same_single hsame
    cases hset.symm.trans hsets
    obtain ⟨v, hv, hvalue⟩ := hb.value
    cases (decoded?_utf8 _ _).symm.trans hv
    by_cases hdivides : Divides cs
    · exact exists_double_of_divides hset htext hdivides
    · have hhex : ∃ contents : Bytes, String.ofList cs = contents.toHexUpper := by
        by_contra hnone
        refine hlone (.inr ⟨a, String.ofList cs, hset, hvalue, ?_, not_exists.1 hnone⟩)
        rw [String.toList_ofList]
        exact hdivides
      obtain ⟨contents, hhex⟩ := hhex
      exact exists_double_of_hex hset hvalue (by rw [String.toList_ofList, htext]) hhex
  · exact ⟨_, (writable_utf8 _ _).isDouble hwhole hsame⟩

end Name

end Enrollment
