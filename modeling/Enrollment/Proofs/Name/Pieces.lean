/-
Names in pieces: their text, cut where it can be cut.

The text of a name is not escaped.  It is made of one piece for each attribute, and a piece
begins with what separates it from the one in front of it, and a label (`append_text`).
Such a lead has an equals sign behind it and none in it, and does not begin inside another
one.  So if nothing in a value looks like a lead, what follows the value shows where it
ends, and from one end to the next the pieces of two names with one text are matched
(`matches_of_append`), and with them the sets of the names (`forall₂_of_pieces`).
-/
import Enrollment.Proofs.Name.Text

namespace Enrollment

open Der

-- ================================================================= values

/-- What a value stands for: a text, or the contents of what is no string. -/
inductive AttributeValue where
  | text (characters : String)
  | other (number : Nat) (contents : Bytes)
  deriving DecidableEq

/-- The text that a value is shown as. -/
def AttributeValue.shown : AttributeValue → String
  | text characters => characters
  | other _ contents => contents.toHexUpper

namespace Attribute

/-- The value of an attribute; none if it is a string that cannot be decoded. -/
def decoded? (a : Attribute) : Option AttributeValue :=
  if Name.plainStrings.contains a.tag.number then (Utf8.decode? a.value).map .text
  else if a.tag.number = TagNumber.bmpString then
    (Name.ofUnits? (Name.units a.value)).map fun cs => .text (String.ofList cs)
  else some (.other a.tag.number a.value)

end Attribute

namespace Name

/-- An attribute is shown as the value that it has, if this can be decoded. -/
theorem valueText?_eq (a : Attribute) : valueText? a = a.decoded?.map AttributeValue.shown := by
  unfold valueText? Attribute.decoded?
  split
  · cases Utf8.decode? a.value <;> rfl
  · split
    · cases ofUnits? (units a.value) <;> rfl
    · rfl

/-- Can all values be decoded? -/
def Decodes (n : Name) : Prop :=
  ∀ a ∈ n.attributes, a.decoded?.isSome

/-- No set is empty, as it is with every name that was read. -/
def Proper (n : Name) : Prop :=
  ∀ set ∈ n.sets, set ≠ []

theorem readSet_ne_nil {bs rest : Bytes} {set : List Attribute}
    (h : readSet bs = some (set, rest)) : set ≠ [] := by
  simp only [readSet, readInside, Option.bind_eq_bind] at h
  obtain ⟨⟨e, after⟩, -, h⟩ := Option.bind_eq_some_iff.1 h
  obtain ⟨⟨found, left⟩, hfound, h⟩ := Option.bind_eq_some_iff.1 h
  cases h
  rintro rfl
  dsimp only at hfound
  split at hfound
  case h_1 => cases hfound
  case h_2 hne _ =>
    cases hfound
    exact hne rfl

/-- No set of a name that is read is empty. -/
theorem proper_of_read {bs rest : Bytes} {n : Name} (h : read bs = some (n, rest)) :
    n.Proper := by
  simp only [read, readSpanned, Option.bind_eq_bind] at h
  obtain ⟨⟨found, after⟩, hfound, h⟩ := Option.bind_eq_some_iff.1 h
  obtain ⟨⟨e, left⟩, -, hfound⟩ := Option.bind_eq_some_iff.1 hfound
  cases hfound
  cases h
  intro set hset
  obtain ⟨bs, rest, hread⟩ := exists_of_mem_readMany hset
  exact readSet_ne_nil hread

-- ================================================================= pieces

/-- What stands in front of an attribute, the first of its set or another one. -/
def separator (first : Bool) : List Char :=
  if first then ", ".toList else " + ".toList

/-- What stands in front of the value of an attribute. -/
def lead (first : Bool) (type : ObjectId) : List Char :=
  separator first ++ (AttributeType.label type).toList

/-- The text of an attribute with what separates it from those in front of it. -/
def piece (p : Bool × Attribute) : List Char :=
  lead p.1 p.2.type ++ '=' :: (valueText p.2).toList

/-- The attributes of a set, of which the first is marked. -/
def marked : List Attribute → List (Bool × Attribute)
  | [] => []
  | a :: as => (true, a) :: as.map (false, ·)

/-- The attributes of a name, with the first of each set marked. -/
def pieces (sets : List (List Attribute)) : List (Bool × Attribute) :=
  sets.flatMap marked

variable {n m : Name}

theorem intercalate_cons {s part : List Char} {parts : List (List Char)} :
    s.intercalate (part :: parts) = part ++ parts.flatMap (s ++ ·) := by
  induction parts generalizing part with
  | nil => simp
  | cons next parts ih => rw [List.intercalate_cons_cons, ih]; simp

theorem append_intercalate {s : List Char} {parts : List (List Char)} (h : parts ≠ []) :
    s ++ s.intercalate parts = parts.flatMap (s ++ ·) := by
  cases parts with
  | nil => exact absurd rfl h
  | cons part parts => rw [intercalate_cons, List.flatMap_cons, List.append_assoc]

/-- There is a text for each set exactly when all values can be decoded. -/
theorem isSome_texts_iff : (n.sets.mapM setText?).isSome ↔ n.Decodes := by
  have hattribute : ∀ a, (attributeText? a).isSome ↔ a.decoded?.isSome := by
    intro a
    rw [attributeText?, valueText?_eq]
    cases a.decoded? <;> rfl
  have hset : ∀ set, (setText? set).isSome ↔ ∀ a ∈ set, a.decoded?.isSome := by
    intro set
    have hall : (setText? set).isSome ↔ (set.mapM attributeText?).isSome := by
      rw [setText?]
      cases set.mapM attributeText? <;> rfl
    rw [hall, isSome_mapM_iff]
    exact forall₂_congr fun a _ => hattribute a
  rw [isSome_mapM_iff, Decodes, attributes, List.forall_mem_flatten]
  exact forall₂_congr fun set _ => hset set

/-- The text of a set of which all values can be decoded. -/
def setText (as : List Attribute) : String :=
  " + ".intercalate (as.map fun a => AttributeType.label a.type ++ "=" ++ valueText a)

/-- A set whose values can be decoded is shown as their text. -/
theorem setText?_of_decodes {as : List Attribute} (h : ∀ a ∈ as, a.decoded?.isSome) :
    setText? as = some (setText as) := by
  have hall : as.mapM attributeText?
      = some (as.map fun a => AttributeType.label a.type ++ "=" ++ valueText a) := by
    have hattribute : ∀ a ∈ as, attributeText? (id a)
        = pure (AttributeType.label a.type ++ "=" ++ valueText a) := by
      intro a ha
      obtain ⟨v, hv⟩ := Option.isSome_iff_exists.1 (h a ha)
      rw [id_eq, attributeText?, valueText, valueText?_eq, hv]
      rfl
    have hmap := mapM_map_eq_pure hattribute
    rwa [List.map_id] at hmap
  rw [setText?, hall]
  rfl

/-- The attributes of a set make up its text, with a separator in front. -/
theorem append_setText {as : List Attribute} (h : as ≠ []) :
    separator true ++ (setText as).toList = (marked as).flatMap piece := by
  cases as with
  | nil => exact absurd rfl h
  | cons a as =>
    rw [setText, String.toList_intercalate, List.map_cons, List.map_cons, intercalate_cons,
      marked, List.flatMap_cons, List.flatMap_map, List.flatMap_map, List.flatMap_map]
    simp [piece, lead, separator]

/-- The pieces of a name make up its text, with a separator in front. -/
theorem append_text (hproper : n.Proper) (hdecodes : n.Decodes) (hsome : n.sets ≠ []) :
    separator true ++ n.text.toList = (pieces n.sets).flatMap piece := by
  have htexts : n.sets.mapM setText? = some (n.sets.map setText) := by
    have hset : ∀ set ∈ n.sets, setText? (id set) = pure (setText set) := by
      intro set hset
      exact setText?_of_decodes fun a ha => hdecodes a (List.mem_flatten_of_mem hset ha)
    have hmap := mapM_map_eq_pure hset
    rwa [List.map_id] at hmap
  have hmap : (n.sets.map setText).map String.toList ≠ [] := by simpa using hsome
  rw [text, htexts]
  dsimp only
  rw [String.toList_intercalate]
  calc separator true ++ ", ".toList.intercalate ((n.sets.map setText).map String.toList)
      = ((n.sets.map setText).map String.toList).flatMap (separator true ++ ·) :=
        append_intercalate hmap
    _ = n.sets.flatMap fun set => separator true ++ (setText set).toList := by
        rw [List.map_map, List.flatMap_map]
        rfl
    _ = n.sets.flatMap fun set => (marked set).flatMap piece :=
        List.flatMap_congr fun set hset => append_setText (hproper set hset)
    _ = (pieces n.sets).flatMap piece := List.flatMap_assoc.symm

-- ============================================================= separation

/-- A text in which something looks like a further attribute. -/
def Divides (cs : List Char) : Prop :=
  ∃ first type, lead first type ++ ['='] <:+: cs

/-- No separator is the front of the other. -/
theorem separator_injective {first second : Bool} {cs ds : List Char}
    (h : separator first ++ cs = separator second ++ ds) : first = second := by
  have hhead := congrArg List.head? h
  cases first <;> cases second <;> first | rfl | cases hhead

theorem equals_not_mem_lead (first : Bool) (type : ObjectId) : '=' ∉ lead first type := by
  rw [lead, List.mem_append, not_or]
  exact ⟨by cases first <;> decide, AttributeType.equals_not_mem_label type⟩

/-- What separates attributes does not stand anywhere else in front of a value. -/
theorem eq_nil_of_lead {first second : Bool} {type type' : ObjectId} {cs : List Char}
    (h : lead first type = cs ++ lead second type') : cs = [] := by
  have hcomma : ',' ∉ (AttributeType.label type).toList := AttributeType.not_mem_label (by decide) _
  have hplus : '+' ∉ (AttributeType.label type).toList := AttributeType.not_mem_label (by decide) _
  cases cs with
  | nil => rfl
  | cons c cs =>
    exfalso
    -- behind its first character a lead has no comma, and at most a plus sign in its place
    cases second with
    | true =>
      have hmem : ',' ∈ (lead first type).tail := by rw [h]; simp [lead, separator]
      cases first <;> simp [lead, separator, hcomma] at hmem
    | false =>
      cases first with
      | true =>
        have hmem : '+' ∈ (lead true type).tail := by rw [h]; simp [lead, separator]
        simp [lead, separator, hplus] at hmem
      | false =>
        cases cs with
        | nil => simp [lead, separator] at h
        | cons d cs =>
          have hmem : '+' ∈ (lead false type).tail.tail := by rw [h]; simp [lead, separator]
          simp [lead, separator, hplus] at hmem

/-- No value reaches into the pieces behind it. -/
theorem eq_nil_of_append {cs ds : List Char} {ps qs : List (Bool × Attribute)}
    (hwhole : ¬Divides (cs ++ ds)) (h : ps.flatMap piece = ds ++ qs.flatMap piece) : ds = [] := by
  cases ps with
  | nil => exact (List.append_eq_nil_iff.1 h.symm).1
  | cons p ps =>
    have hdivides : ∀ back, ds ≠ lead p.1 p.2.type ++ ['='] ++ back := by
      rintro back rfl
      exact hwhole ⟨p.1, p.2.type, cs, back, by simp only [List.append_assoc]⟩
    have hp : (p :: ps).flatMap piece
        = (lead p.1 p.2.type ++ ['=']) ++ ((valueText p.2).toList ++ ps.flatMap piece) := by
      rw [List.flatMap_cons, piece]
      simp
    rw [hp] at h
    rcases List.append_eq_append_iff.1 h with ⟨back, hds, -⟩ | ⟨back, hlead, hqs⟩
    · exact absurd hds (hdivides back)
    rcases List.eq_nil_or_concat back with rfl | ⟨back, last, rfl⟩
    · exact absurd (by rw [hlead]; simp) (hdivides [])
    · -- the equals sign is the end of the next lead, which then starts where this one does
      rw [List.concat_eq_append, ← List.append_assoc] at hlead
      obtain ⟨hfront, hlast⟩ := List.append_inj' hlead rfl
      cases hlast
      cases qs with
      | nil => simp at hqs
      | cons q qs =>
        have hback : '=' ∉ back := fun hmem =>
          equals_not_mem_lead p.1 p.2.type (hfront ▸ List.mem_append_right _ hmem)
        rw [List.flatMap_cons, piece, List.append_assoc, List.concat_eq_append,
          List.append_assoc] at hqs
        obtain ⟨hnext, -⟩ := append_cons_inj (equals_not_mem_lead _ _) hback hqs
        rw [← hnext] at hfront
        exact eq_nil_of_lead hfront

/-- What stands in front of pieces is told apart from them. -/
theorem eq_of_append {cs ds : List Char} {ps qs : List (Bool × Attribute)}
    (hcs : ¬Divides cs) (hds : ¬Divides ds)
    (h : cs ++ ps.flatMap piece = ds ++ qs.flatMap piece) : cs = ds := by
  rcases List.append_eq_append_iff.1 h with ⟨back, rfl, hback⟩ | ⟨back, rfl, hback⟩
  · rw [eq_nil_of_append hds hback, List.append_nil]
  · rw [eq_nil_of_append hcs hback, List.append_nil]

/-- Two attributes are shown with the same label and the same value. -/
structure ShownAlike (a b : Attribute) : Prop where
  label : AttributeType.label a.type = AttributeType.label b.type
  value : valueText a = valueText b

/-- Two pieces are both the first of their set, or not, and are shown alike. -/
structure Matches (p q : Bool × Attribute) : Prop where
  first : p.1 = q.1
  shown : ShownAlike p.2 q.2

/-- Pieces with the same text behind two values match, one for one. -/
theorem matches_of_append {cs ds : List Char} {ps qs : List (Bool × Attribute)}
    (hcs : ¬Divides cs) (hds : ¬Divides ds) (hps : ∀ p ∈ ps, ¬Divides (valueText p.2).toList)
    (hqs : ∀ q ∈ qs, ¬Divides (valueText q.2).toList)
    (h : cs ++ ps.flatMap piece = ds ++ qs.flatMap piece) : List.Forall₂ Matches ps qs := by
  induction ps generalizing cs ds qs with
  | nil =>
    rw [eq_of_append hcs hds h] at h
    have hnil := List.append_cancel_left h
    cases qs with
    | nil => exact .nil
    | cons q qs => simp [piece] at hnil
  | cons p ps ih =>
    rw [eq_of_append hcs hds h] at h
    have htail := List.append_cancel_left h
    cases qs with
    | nil => simp [piece] at htail
    | cons q qs =>
      obtain ⟨hp, hps⟩ := List.forall_mem_cons.1 hps
      obtain ⟨hq, hqs⟩ := List.forall_mem_cons.1 hqs
      rw [List.flatMap_cons, List.flatMap_cons, piece, piece, List.append_assoc,
        List.append_assoc] at htail
      obtain ⟨hlead, hback⟩ :=
        append_cons_inj (equals_not_mem_lead _ _) (equals_not_mem_lead _ _) htail
      have hfirst : p.1 = q.1 := separator_injective hlead
      rw [lead, lead, hfirst] at hlead
      have hlabel := String.toList_inj.1 (List.append_cancel_left hlead)
      have hvalue := String.toList_inj.1 (eq_of_append hp hq hback)
      exact .cons ⟨hfirst, hlabel, hvalue⟩ (ih hp hq hps hqs hback)

-- =================================================================== sets

variable {sets sets' : List (List Attribute)}

theorem pieces_cons (a : Attribute) (as : List Attribute) (sets : List (List Attribute)) :
    pieces ((a :: as) :: sets) = (true, a) :: (as.map (false, ·) ++ pieces sets) := rfl

theorem head?_pieces (sets : List (List Attribute)) : ∀ p ∈ (pieces sets).head?, p.1 = true := by
  induction sets with
  | nil => nofun
  | cons set sets ih =>
    cases set with
    | nil => exact ih
    | cons a as =>
      intro p hp
      cases hp
      rfl

/-- Where pieces match, the sets that are under way end together. -/
theorem forall₂_of_marked {as bs : List Attribute}
    (h : List.Forall₂ Matches (as.map (false, ·) ++ pieces sets)
      (bs.map (false, ·) ++ pieces sets')) :
    List.Forall₂ ShownAlike as bs ∧ List.Forall₂ Matches (pieces sets) (pieces sets') := by
  induction as generalizing bs with
  | nil =>
    cases bs with
    | nil => exact ⟨.nil, h⟩
    | cons b bs =>
      rw [List.map_nil, List.nil_append, List.map_cons, List.cons_append] at h
      obtain ⟨p, ps, hfirst, -, hpieces⟩ := List.forall₂_cons_right_iff.1 h
      have hp := head?_pieces sets p (by rw [hpieces]; rfl)
      rw [hfirst.first] at hp
      cases hp
  | cons a as ih =>
    rw [List.map_cons, List.cons_append] at h
    cases bs with
    | nil =>
      rw [List.map_nil, List.nil_append] at h
      obtain ⟨q, qs, hfirst, -, hpieces⟩ := List.forall₂_cons_left_iff.1 h
      have hq := head?_pieces sets' q (by rw [hpieces]; rfl)
      rw [← hfirst.first] at hq
      cases hq
    | cons b bs =>
      rw [List.map_cons, List.cons_append, List.forall₂_cons] at h
      obtain ⟨has, hpieces⟩ := ih h.2
      exact ⟨.cons h.1.shown has, hpieces⟩

/-- Pieces that match make up the same sets. -/
theorem forall₂_of_pieces (hne : ∀ set ∈ sets, set ≠ []) (hne' : ∀ set ∈ sets', set ≠ [])
    (h : List.Forall₂ Matches (pieces sets) (pieces sets')) :
    List.Forall₂ (List.Forall₂ ShownAlike) sets sets' := by
  induction sets generalizing sets' with
  | nil =>
    cases sets' with
    | nil => exact .nil
    | cons set' sets' =>
      obtain ⟨b, bs, rfl⟩ := List.exists_cons_of_ne_nil (hne' set' List.mem_cons_self)
      cases h
  | cons set sets ih =>
    obtain ⟨a, as, rfl⟩ := List.exists_cons_of_ne_nil (hne set List.mem_cons_self)
    cases sets' with
    | nil => cases h
    | cons set' sets' =>
      obtain ⟨b, bs, rfl⟩ := List.exists_cons_of_ne_nil (hne' set' List.mem_cons_self)
      rw [pieces_cons, pieces_cons, List.forall₂_cons] at h
      obtain ⟨has, hpieces⟩ := forall₂_of_marked h.2
      refine .cons (.cons h.1.shown has) (ih ?_ ?_ hpieces)
      · exact fun set hset => hne set (List.mem_cons_of_mem _ hset)
      · exact fun set hset => hne' set (List.mem_cons_of_mem _ hset)

end Name

end Enrollment
