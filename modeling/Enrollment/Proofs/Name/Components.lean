/-
Written names as they are read: which texts are names, and what is kept of
them.

A text is divided at its commas, except where a backslash stands in front of
one.  `Divided` says so without following the characters that were taken up,
and there is one way to divide a text (`divided_iff`).  A component that gives
an entry is one that could have been written (`exists_component`), so the names
that are read are those whose components are pieces (`parse_eq_ok_iff`).

Of the pairs that the components give, the last of each type is kept, in the
place of the first.  So nothing is lost exactly when no type is given twice,
and otherwise there are fewer entries than components (`parse_kept`).
-/
import Enrollment.Proofs.Name.Escaped
import Enrollment.Proofs.Name.Remaining

namespace Enrollment.Name.Written

-- =============================================================== dividing

/-- The text is divided into the components at its commas.  A backslash in front of a
comma or of a backslash makes a part of the component of it, and stands for itself
otherwise. -/
inductive Divided : List Char → List (List Char) → Prop where
  | done : Divided [] [[]]
  | comma {rest : List Char} {cs : List (List Char)} (h : Divided rest cs) :
      Divided (',' :: rest) ([] :: cs)
  | escaped {c : Char} {rest first : List Char} {cs : List (List Char)}
      (hc : c = ',' ∨ c = '\\') (h : Divided rest (first :: cs)) :
      Divided ('\\' :: c :: rest) ((c :: first) :: cs)
  | backslash {rest first : List Char} {cs : List (List Char)}
      (hnext : ∀ c ∈ rest.head?, c ≠ ',' ∧ c ≠ '\\') (h : Divided rest (first :: cs)) :
      Divided ('\\' :: rest) (('\\' :: first) :: cs)
  | plain {c : Char} {rest first : List Char} {cs : List (List Char)}
      (hc : c ≠ ',' ∧ c ≠ '\\') (h : Divided rest (first :: cs)) :
      Divided (c :: rest) ((c :: first) :: cs)

/-- There is one way to divide a text. -/
theorem Divided.unique {text : List Char} {cs ds : List (List Char)} (hc : Divided text cs)
    (hd : Divided text ds) : cs = ds := by
  -- the first one or two characters tell which rule applies
  induction hc generalizing ds with
  | done =>
    cases hd with
    | done => rfl
  | comma _ ih =>
    cases hd with
    | comma hd => rw [ih hd]
    | plain hc _ => exact absurd rfl hc.1
  | escaped hc _ ih =>
    cases hd with
    | escaped _ hd =>
      cases ih hd
      rfl
    | backslash hnext _ =>
      obtain ⟨hcomma, hbackslash⟩ := hnext _ rfl
      exact absurd hc (not_or.2 ⟨hcomma, hbackslash⟩)
    | plain hc _ => exact absurd rfl hc.2
  | backslash hnext _ ih =>
    cases hd with
    | escaped hc _ =>
      obtain ⟨hcomma, hbackslash⟩ := hnext _ rfl
      exact absurd hc (not_or.2 ⟨hcomma, hbackslash⟩)
    | backslash _ hd =>
      cases ih hd
      rfl
    | plain hc _ => exact absurd rfl hc.2
  | plain hc _ ih =>
    cases hd with
    | comma _ => exact absurd rfl hc.1
    | escaped _ _ => exact absurd rfl hc.2
    | backslash _ _ => exact absurd rfl hc.2
    | plain _ hd =>
      cases ih hd
      rfl

/-- What is taken up of a text is the first component, in front of which stands what
had been taken up before. -/
theorem exists_divided (acc text : List Char) :
    ∃ first cs, Divided text (first :: cs)
      ∧ componentsOnto acc text = (acc.reverse ++ first) :: cs := by
  fun_induction componentsOnto acc text with
  | case1 acc => exact ⟨[], [], .done, by rw [List.append_nil]⟩
  | case2 acc rest ih =>
    obtain ⟨first, cs, hdivided, hrest⟩ := ih
    exact ⟨[], first :: cs, .comma hdivided, by rw [hrest, List.append_nil]; rfl⟩
  | case3 acc c rest hc ih =>
    obtain ⟨first, cs, hdivided, hrest⟩ := ih
    exact ⟨c :: first, cs, .escaped hc hdivided, by rw [hrest, List.reverse_cons,
      List.append_assoc, List.singleton_append]⟩
  | case4 acc c rest hc ih =>
    -- the backslash and the character after it stand for themselves
    obtain ⟨first, cs, hdivided, hrest⟩ := ih
    refine ⟨'\\' :: c :: first, cs, .backslash ?_ (.plain (not_or.1 hc) hdivided), ?_⟩
    · intro d hd
      cases hd
      exact not_or.1 hc
    · rw [hrest]
      simp only [List.reverse_cons, List.append_assoc, List.cons_append, List.nil_append]
  | case5 acc c rest hcomma hbackslash ih =>
    obtain ⟨first, cs, hdivided, hrest⟩ := ih
    refine ⟨c :: first, cs, ?_, by rw [hrest, List.reverse_cons, List.append_assoc,
      List.singleton_append]⟩
    by_cases hc : c = '\\'
    · -- the text ends with a backslash
      cases rest with
      | nil =>
        rw [hc]
        exact .backslash (fun d hd => absurd hd (Option.not_mem_none d)) hdivided
      | cons d rest => exact absurd rfl (hbackslash d rest hc)
    · exact .plain ⟨hcomma, hc⟩ hdivided

/-- A text has one division, which is the one that is made. -/
theorem divided_iff {text : String} {cs : List (List Char)} :
    Divided text.toList cs ↔ components text = cs := by
  obtain ⟨first, rest, hdivided, hcomponents⟩ := exists_divided [] text.toList
  have htext : Divided text.toList (components text) := by
    rw [components, hcomponents]
    exact hdivided
  exact ⟨htext.unique, fun h => h ▸ htext⟩

-- ================================================================ reading

/-- A character is its upper-case form, or that in lower case. -/
theorem eq_upper_or_lower (c : Char) :
    c = Text.asciiUpper c ∨ c = Text.asciiLower (Text.asciiUpper c) := by
  by_cases h : 'a' ≤ c ∧ c ≤ 'z'
  · have hletters : ∀ i < 26, Char.ofNat (97 + i)
        = Text.asciiLower (Text.asciiUpper (Char.ofNat (97 + i))) := by decide
    have hlow : 97 ≤ c.toNat := h.1
    have hhigh : c.toNat ≤ 122 := h.2
    have hletter := hletters (c.toNat - 97) (by omega)
    rw [Nat.add_sub_cancel' hlow, Char.ofNat_toNat] at hletter
    exact .inr hletter
  · exact .inl (if_neg h).symm

/-- Letters that are taken for a type are those of its kind. -/
theorem spells_of_ofLetters? {letters : List Char} {kind : AttributeKind}
    (h : AttributeKind.ofLetters? letters = some kind) : Spells letters kind := by
  unfold AttributeKind.ofLetters? at h
  have hfound : (kind.letters.toList == letters.map Text.asciiUpper) = true :=
    List.find?_some (p := fun k : AttributeKind =>
      k.letters.toList == letters.map Text.asciiUpper) h
  rw [Spells, beq_iff_eq.1 hfound, List.forall₂_map_right_iff]
  exact List.forall₂_same.2 fun c _ => eq_upper_or_lower c

/-- What gives a pair is a type, an equals sign and a value. -/
theorem ofComponent_eq_ok {cs : List Char} {pair : AttributeKind × List Char}
    (h : ofComponent cs = .ok pair) :
    ∃ type value, cs = type ++ '=' :: value
      ∧ AttributeKind.ofLetters? (Text.trim type) = some pair.1
      ∧ Text.trim value = pair.2 ∧ pair.2 ≠ [] := by
  have hsplit : cs.takeWhile (· != '=') ++ cs.dropWhile (· != '=') = cs :=
    List.takeWhile_append_dropWhile
  unfold ofComponent at h
  split at h
  case h_1 => cases h
  case h_2 sign value hdrop =>
    have hsign : sign = '=' := by
      have hnot := List.head?_dropWhile_not (· != '=') cs
      rw [hdrop] at hnot
      simpa using hnot
    rw [hdrop, hsign] at hsplit
    dsimp only at h
    split at h
    case isTrue => cases h
    case isFalse hsome =>
      split at h
      case h_1 kind hkind =>
        cases h
        exact ⟨_, value, hsplit.symm, hkind, rfl, mt List.isEmpty_iff.2 hsome⟩
      case h_2 => cases h

/-- A component that gives a pair is one that could have been written for it. -/
theorem exists_component {cs : List Char} {pair : AttributeKind × List Char}
    (h : ofComponent (Text.trim cs) = .ok pair) :
    ∃ c : Component, (Piece.component c).content = cs ∧ (c.kind, c.value) = pair := by
  obtain ⟨kind, value⟩ := pair
  obtain ⟨type, given, hcore, hkind, rfl, hne⟩ := ofComponent_eq_ok h
  -- there may be white space around the whole, the type and the value
  obtain ⟨front, back, hfront, hback, -, hcs⟩ := Text.exists_padding cs
  obtain ⟨before, after, hbefore, hafter, -, htype⟩ := Text.exists_padding type
  obtain ⟨left, right, hleft, hright, htrimmed, hgiven⟩ := Text.exists_padding given
  refine ⟨{
    kind := kind
    value := Text.trim given
    value_ne_nil := hne
    trimmed := htrimmed
    letters := Text.trim type
    spells := spells_of_ofLetters? hkind
    beforeType := front ++ before
    afterType := after
    beforeValue := left
    afterValue := right ++ back
    blank_beforeType := List.forall_mem_append.2 ⟨hfront, hbefore⟩
    blank_afterType := hafter
    blank_beforeValue := hleft
    blank_afterValue := List.forall_mem_append.2 ⟨hright, hback⟩ }, ?_, rfl⟩
  have hall : cs = front ++ ((before ++ (Text.trim type ++ after))
      ++ '=' :: (left ++ (Text.trim given ++ right)) ++ back) := by
    rw [← htype, ← hgiven, ← hcore]
    exact hcs
  rw [hall]
  simp only [Piece.content, Component.core, List.append_assoc, List.cons_append]

/-- What trimming leaves nothing of is white space. -/
theorem isBlank_of_trim {cs : List Char} (h : Text.trim cs = []) : Text.IsBlank cs := by
  obtain ⟨front, back, hfront, hback, -, hcs⟩ := Text.exists_padding cs
  rw [h, List.nil_append] at hcs
  rw [hcs]
  exact List.forall_mem_append.2 ⟨hfront, hback⟩

/-- Components of which all that are not blank give pairs are pieces that could have been
written for these. -/
theorem exists_pieces {cs : List (List Char)} {given : List (AttributeKind × List Char)}
    (h : ((cs.map Text.trim).filter fun c => !c.isEmpty).mapM ofComponent = .ok given) :
    ∃ pieces : List Piece, pieces.map Piece.content = cs ∧ pairs pieces = given := by
  induction cs generalizing given with
  | nil =>
    cases h
    exact ⟨[], rfl, rfl⟩
  | cons c cs ih =>
    rw [List.map_cons, List.filter_cons] at h
    by_cases hblank : Text.trim c = []
    · rw [hblank] at h
      obtain ⟨pieces, rfl, rfl⟩ := ih h
      exact ⟨.blank c (isBlank_of_trim hblank) :: pieces, rfl, rfl⟩
    · have hsome : (Text.trim c).isEmpty = false := List.isEmpty_eq_false_iff.2 hblank
      rw [if_pos (by rw [hsome]; rfl), List.mapM_cons] at h
      obtain ⟨pair, hpair, h⟩ := bind_eq_ok h
      obtain ⟨rest, hrest, h⟩ := bind_eq_ok h
      cases h
      obtain ⟨component, hcontent, rfl⟩ := exists_component hpair
      obtain ⟨pieces, rfl, rfl⟩ := ih hrest
      exact ⟨.component component :: pieces, by rw [List.map_cons, hcontent], rfl⟩

-- ================================================================== names

/-- What the pairs leave as entries: the last of each type, in the order in which the
types come first. -/
def remaining (given : List (AttributeKind × List Char)) : Entries :=
  ((given.map entry).map (·.type)).eraseDups.filterMap fun type =>
    (given.map entry).reverse.find? (·.type = type)

theorem remaining_eq (given : List (AttributeKind × List Char)) :
    remaining given = Entries.putAll [] (given.map entry) :=
  (Entries.putAll_nil_eq _).symm

/-- A name is read from a text exactly when the components of the text are pieces, of which
not all are blank, and its entries are what the pairs of the pieces leave. -/
theorem parse_eq_ok_iff {text : String} {es : Entries} :
    parse text = .ok es
      ↔ ∃ pieces : List Piece, Divided text.toList (pieces.map Piece.content)
          ∧ pairs pieces ≠ [] ∧ es = remaining (pairs pieces) := by
  rw [parse_eq_ok_iff_putAll]
  constructor
  · rintro ⟨given, hne, hgiven, rfl⟩
    obtain ⟨pieces, hpieces, rfl⟩ := exists_pieces hgiven
    exact ⟨pieces, divided_iff.2 hpieces.symm, hne, (remaining_eq _).symm⟩
  · rintro ⟨pieces, hdivided, hne, rfl⟩
    refine ⟨pairs pieces, hne, ?_, remaining_eq _⟩
    rw [givenComponents, divided_iff.1 hdivided]
    exact mapM_ofComponent pieces

/-- Either no type is given twice and all entries remain, or there are fewer than were
given. -/
theorem nodup_or_length_lt (given : List (AttributeKind × List Char)) :
    ((given.map (·.1)).Nodup ∧ remaining given = given.map entry)
      ∨ (¬(given.map (·.1)).Nodup ∧ (remaining given).length < given.length) := by
  have hlength (es : Entries) : (es.flatMap fun _ => [()]).length = es.length := by
    rw [List.length_flatMap]
    simp
  have hcounted : ∀ e : Entry, (fun _ => [()]) e ≠ [] := fun _ => List.cons_ne_nil _ _
  have hmarks := Entries.kept_or_length_lt hcounted (given.map entry)
  rw [hlength, hlength, ← remaining_eq, List.length_map] at hmarks
  rcases hmarks with ⟨hnodup, hkept⟩ | hlt
  · have htypes : (given.map entry).map (·.type) = (given.map (·.1)).map AttributeKind.arcs := by
      rw [List.map_map, List.map_map]
      rfl
    rw [htypes] at hnodup
    exact .inl ⟨hnodup.of_map, hkept⟩
  · refine .inr ⟨fun hnodup => ?_, hlt⟩
    rw [remaining_eq, Entries.putAll_nil_of_nodup (nodup_entries hnodup), List.length_map] at hlt
    exact Nat.lt_irrefl _ hlt

/-- Names are read from the texts whose components are pieces, not all of them blank; they
have the last pair of each type, in the order in which the types come first.  That is each
component's pair in its place exactly when no type is given twice, and otherwise there are
fewer entries than components. -/
theorem parse_kept (text : String) :
    (∀ es, parse text = .ok es
      ↔ ∃ pieces : List Piece, Divided text.toList (pieces.map Piece.content)
          ∧ pairs pieces ≠ [] ∧ es = remaining (pairs pieces))
      ∧ ∀ (pieces : List Piece) (es : Entries),
        Divided text.toList (pieces.map Piece.content) → parse text = .ok es →
          (es = (pairs pieces).map entry ↔ ((pairs pieces).map (·.1)).Nodup)
          ∧ (es.length < (pairs pieces).length ↔ ¬((pairs pieces).map (·.1)).Nodup) := by
  refine ⟨fun es => parse_eq_ok_iff, fun pieces es hdivided h => ?_⟩
  obtain ⟨others, hothers, -, rfl⟩ := parse_eq_ok_iff.1 h
  have hpairs : pairs others = pairs pieces := by
    have hread := mapM_ofComponent others
    rw [hothers.unique hdivided, mapM_ofComponent pieces] at hread
    exact (Except.ok.inj hread).symm
  rw [hpairs]
  rcases nodup_or_length_lt (pairs pieces) with ⟨hnodup, hkept⟩ | ⟨hnot, hlt⟩
  · refine ⟨⟨fun _ => hnodup, fun _ => hkept⟩, fun h => ?_, fun hnot => absurd hnodup hnot⟩
    rw [hkept, List.length_map] at h
    exact absurd h (Nat.lt_irrefl _)
  · refine ⟨⟨fun h => ?_, fun hnodup => absurd hnodup hnot⟩, fun _ => hnot, fun _ => hlt⟩
    rw [h, List.length_map] at hlt
    exact absurd hlt (Nat.lt_irrefl _)

/-- An organizational unit is lost that was given, and the one that is left stands in front
of the organization that was given before it. -/
theorem parse_repeated :
    Divided "OU=a,O=b,OU=c".toList ["OU=a".toList, "O=b".toList, "OU=c".toList]
      ∧ parse "OU=a,O=b,OU=c"
        = .ok [Entries.ofText [2, 5, 4, 11] "c", Entries.ofText [2, 5, 4, 10] "b"] :=
  ⟨divided_iff.2 (by decide +kernel), by decide +kernel⟩

/-- Letters in either case are of one type, so that two entries are left of three. -/
theorem parse_kept_repeated :
    ∃ (pieces : List Piece) (es : Entries),
      Divided "ou=a\\,, O = b,\tOU=c".toList (pieces.map Piece.content)
        ∧ parse "ou=a\\,, O = b,\tOU=c" = .ok es
        ∧ pairs pieces = [(.organizationalUnit, "a,".toList), (.organization, "b".toList),
            (.organizationalUnit, "c".toList)]
        ∧ es.length < (pairs pieces).length := by
  have hparse : parse "ou=a\\,, O = b,\tOU=c"
      = .ok [Entries.ofText [2, 5, 4, 11] "c", Entries.ofText [2, 5, 4, 10] "b"] := by
    decide +kernel
  obtain ⟨hread, hlost⟩ := parse_kept "ou=a\\,, O = b,\tOU=c"
  obtain ⟨pieces, hdivided, -, -⟩ := (hread _).1 hparse
  have hpairs : pairs pieces = [(.organizationalUnit, "a,".toList), (.organization, "b".toList),
      (.organizationalUnit, "c".toList)] := by
    have hgiven := mapM_ofComponent pieces
    rw [← divided_iff.1 hdivided] at hgiven
    refine (Except.ok.inj (hgiven.symm.trans ?_))
    decide +kernel
  refine ⟨pieces, _, hdivided, hparse, hpairs, (hlost pieces _ hdivided hparse).2.2 ?_⟩
  rw [hpairs]
  decide

end Enrollment.Name.Written
