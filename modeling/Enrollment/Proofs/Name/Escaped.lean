/-
Written names, read back: what is written with escapes is parsed as what it was.

A comma or a backslash of a value is written with a backslash in front of it, and
nothing else is escaped.  So whoever splits a text at the commas takes up two
characters or one at a time, and what has been taken up is what was written so
far: each piece ends where its comma stands, with its escapes taken out
(`componentsOnto_text`, `components_written`).  A backslash at the end of a value
is no exception, as it is the second of two.

What is left then is white space, which is trimmed away around the piece, the type
and the value (`trim_content`, `ofComponent_core`), and the first equals sign, in
front of which there are only letters and white space (`divided`).
-/
import Enrollment.Proofs.Name.Written
import Enrollment.Proofs.Text.Blank

namespace Enrollment.Name.Written

-- ================================================================ writing

/-- A value with a backslash in front of every comma and every backslash. -/
def escape (value : List Char) : List Char :=
  value.flatMap fun c => if c = ',' ∨ c = '\\' then ['\\', c] else [c]

/-- The letters of a kind, each of them in either case. -/
def Spells (letters : List Char) (kind : AttributeKind) : Prop :=
  List.Forall₂ (fun c upper => c = upper ∨ c = Text.asciiLower upper) letters kind.letters.toList

/-- A type with a value, and how they are written: the letters of the type and the white
space around type and value.  The value may hold anything, but it is not empty and has no
white space at its ends. -/
structure Component where
  kind : AttributeKind
  value : List Char
  value_ne_nil : value ≠ []
  trimmed : Text.IsTrimmed value
  letters : List Char
  spells : Spells letters kind
  beforeType : List Char
  afterType : List Char
  beforeValue : List Char
  afterValue : List Char
  blank_beforeType : Text.IsBlank beforeType
  blank_afterType : Text.IsBlank afterType
  blank_beforeValue : Text.IsBlank beforeValue
  blank_afterValue : Text.IsBlank afterValue

/-- What stands between two commas: a component, or nothing but white space. -/
inductive Piece where
  | blank (cs : List Char) (h : Text.IsBlank cs)
  | component (c : Component)

namespace Component

/-- A component with its escapes. -/
def text (c : Component) : List Char :=
  c.beforeType ++ c.letters ++ c.afterType ++ '=' :: (c.beforeValue ++ escape c.value)
    ++ c.afterValue

/-- A component without its escapes and without the white space around it. -/
def core (c : Component) : List Char :=
  c.letters ++ c.afterType ++ '=' :: (c.beforeValue ++ c.value)

end Component

namespace Piece

def text : Piece → List Char
  | blank cs _ => cs
  | component c => c.text

/-- The type and the value that were written, if any. -/
def pair? : Piece → Option (AttributeKind × List Char)
  | blank _ _ => none
  | component c => some (c.kind, c.value)

/-- A piece without its escapes. -/
def content : Piece → List Char
  | blank cs _ => cs
  | component c => c.beforeType ++ (c.core ++ c.afterValue)

end Piece

/-- Pieces with commas between them. -/
def written (pieces : List Piece) : String :=
  String.ofList ([','].intercalate (pieces.map Piece.text))

/-- The types and the values that were written. -/
def pairs (pieces : List Piece) : List (AttributeKind × List Char) :=
  pieces.filterMap Piece.pair?

-- ============================================================== splitting

/-- No comma and no backslash. -/
def IsPlain (cs : List Char) : Prop :=
  ∀ c ∈ cs, c ≠ ',' ∧ c ≠ '\\'

theorem isPlain_of_isBlank {cs : List Char} (h : Text.IsBlank cs) : IsPlain cs := by
  intro c hc
  have hblank := h c hc
  constructor
  · rintro rfl
    exact absurd hblank (by decide)
  · rintro rfl
    exact absurd hblank (by decide)

variable {letters : List Char} {kind : AttributeKind}

theorem exists_upper (h : Spells letters kind) {c : Char} (hc : c ∈ letters) :
    ∃ upper ∈ kind.letters.toList, c = upper ∨ c = Text.asciiLower upper := by
  unfold Spells at h
  generalize kind.letters.toList = uppers at h
  induction h with
  | nil => cases hc
  | cons hfirst _ ih =>
    rcases List.mem_cons.1 hc with rfl | hc
    · exact ⟨_, List.mem_cons_self, hfirst⟩
    · obtain ⟨upper, hmem, heq⟩ := ih hc
      exact ⟨upper, List.mem_cons_of_mem _ hmem, heq⟩

/-- Is the character one of the signs that divide, or white space? -/
def isSign (c : Char) : Bool :=
  c == ',' || c == '\\' || c == '=' || Text.isBlank c

/-- No letter of a type is one of the signs that divide, and none is white space. -/
theorem letter_of_spells (h : Spells letters kind) {c : Char} (hc : c ∈ letters) :
    c ≠ ',' ∧ c ≠ '\\' ∧ c ≠ '=' ∧ Text.isBlank c = false := by
  have hkind : kind.letters.toList.all
      (fun upper => !isSign upper && !isSign (Text.asciiLower upper)) = true := by
    cases kind <;> decide
  obtain ⟨upper, hmem, heq⟩ := exists_upper h hc
  have hboth := List.all_eq_true.1 hkind upper hmem
  rw [Bool.and_eq_true, Bool.not_eq_true', Bool.not_eq_true'] at hboth
  have hsign : isSign c = false := by
    rcases heq with rfl | rfl
    · exact hboth.1
    · exact hboth.2
  simpa [isSign, and_assoc] using hsign

theorem isPlain_of_spells (h : Spells letters kind) : IsPlain letters := by
  intro c hc
  obtain ⟨hcomma, hbackslash, -, -⟩ := letter_of_spells h hc
  exact ⟨hcomma, hbackslash⟩

/-- In upper case, the letters are those of the kind. -/
theorem upper_of_spells (h : Spells letters kind) :
    letters.map Text.asciiUpper = kind.letters.toList := by
  have hall : kind.letters.toList.all (fun upper => Text.asciiUpper upper == upper
      && Text.asciiUpper (Text.asciiLower upper) == upper) = true := by
    cases kind <;> decide
  have hkind : ∀ upper ∈ kind.letters.toList,
      Text.asciiUpper upper = upper ∧ Text.asciiUpper (Text.asciiLower upper) = upper := by
    intro upper hmem
    simpa using List.all_eq_true.1 hall upper hmem
  unfold Spells at h
  generalize kind.letters.toList = uppers at hkind h
  induction h with
  | nil => rfl
  | cons hfirst _ ih =>
    obtain ⟨⟨hsame, hlower⟩, hrest⟩ := List.forall_mem_cons.1 hkind
    rw [List.map_cons, ih hrest]
    rcases hfirst with rfl | rfl
    · rw [hsame]
    · rw [hlower]

/-- What is neither a comma nor a backslash is taken up as it is. -/
theorem componentsOnto_cons {c : Char} (h : c ≠ ',' ∧ c ≠ '\\') (acc rest : List Char) :
    componentsOnto acc (c :: rest) = componentsOnto (c :: acc) rest := by
  rw [componentsOnto]
  · exact h.1
  · exact fun _ _ heq => absurd heq h.2

/-- What holds no comma and no backslash is passed over. -/
theorem componentsOnto_plain {cs : List Char} (h : IsPlain cs) (acc rest : List Char) :
    componentsOnto acc (cs ++ rest) = componentsOnto (cs.reverse ++ acc) rest := by
  induction cs generalizing acc with
  | nil => rfl
  | cons c cs ih =>
    rw [List.cons_append, componentsOnto_cons (h c List.mem_cons_self),
      ih fun d hd => h d (List.mem_cons_of_mem _ hd)]
    simp only [List.reverse_cons, List.append_assoc, List.singleton_append]

/-- A value is taken up without its escapes: each backslash in it takes the next
character with it. -/
theorem componentsOnto_escape (value acc rest : List Char) :
    componentsOnto acc (escape value ++ rest) = componentsOnto (value.reverse ++ acc) rest := by
  induction value generalizing acc with
  | nil => rfl
  | cons c value ih =>
    have hstep : componentsOnto acc (escape (c :: value) ++ rest)
        = componentsOnto (c :: acc) (escape value ++ rest) := by
      rw [escape, List.flatMap_cons]
      by_cases hescaped : c = ',' ∨ c = '\\'
      · rw [if_pos hescaped]
        show componentsOnto acc ('\\' :: c :: (escape value ++ rest)) = _
        rw [componentsOnto, if_pos hescaped]
      · rw [if_neg hescaped]
        exact componentsOnto_cons (not_or.1 hescaped) _ _
    rw [hstep, ih]
    simp only [List.reverse_cons, List.append_assoc, List.singleton_append]

/-- A piece is passed over with its escapes taken away, and ends no component. -/
theorem componentsOnto_text (p : Piece) (acc rest : List Char) :
    componentsOnto acc (p.text ++ rest) = componentsOnto (p.content.reverse ++ acc) rest := by
  cases p with
  | blank cs h => exact componentsOnto_plain (isPlain_of_isBlank h) acc rest
  | component c =>
    have hequals : IsPlain ['='] := by
      intro d hd
      rw [List.mem_singleton.1 hd]
      decide
    have hsplit : c.text = c.beforeType ++ (c.letters ++ (c.afterType ++ (['='] ++ (c.beforeValue
        ++ (escape c.value ++ c.afterValue))))) := by
      simp only [Component.text, List.append_assoc, List.cons_append, List.nil_append]
    rw [Piece.text, hsplit]
    simp only [List.append_assoc]
    rw [componentsOnto_plain (isPlain_of_isBlank c.blank_beforeType),
      componentsOnto_plain (isPlain_of_spells c.spells),
      componentsOnto_plain (isPlain_of_isBlank c.blank_afterType), componentsOnto_plain hequals,
      componentsOnto_plain (isPlain_of_isBlank c.blank_beforeValue), componentsOnto_escape,
      componentsOnto_plain (isPlain_of_isBlank c.blank_afterValue)]
    simp only [Piece.content, Component.core, List.reverse_append, List.reverse_cons,
      List.append_assoc, List.nil_append, List.cons_append, List.reverse_nil]

/-- The pieces that were written are found again, with their escapes taken out. -/
theorem components_written {pieces : List Piece} (hne : pieces ≠ []) :
    components (written pieces) = pieces.map Piece.content := by
  have hstep : ∀ (p : Piece) (ps : List Piece), componentsOnto []
      ([','].intercalate ((p :: ps).map Piece.text)) = (p :: ps).map Piece.content := by
    intro p ps
    induction ps generalizing p with
    | nil =>
      have hlast := componentsOnto_text p [] []
      rw [List.append_nil, List.append_nil, componentsOnto, List.reverse_reverse] at hlast
      rw [List.map_singleton, List.intercalate_singleton, hlast]
      rfl
    | cons q ps ih =>
      rw [List.map_cons, List.map_cons, List.intercalate_cons_cons, List.append_assoc,
        componentsOnto_text, List.append_nil, List.singleton_append, componentsOnto,
        List.reverse_reverse, ← List.map_cons, ih]
      rfl
  cases pieces with
  | nil => exact absurd rfl hne
  | cons p ps =>
    rw [components, written, String.toList_ofList]
    exact hstep p ps

-- ================================================================ reading

namespace Component

variable (c : Component)

theorem letters_ne_nil : c.letters ≠ [] := by
  intro hnil
  have hkind : c.kind.letters.toList ≠ [] := by
    cases c.kind <;> decide
  have hspells := c.spells
  rw [Spells, hnil] at hspells
  exact hkind (List.forall₂_nil_left_iff.1 hspells)

/-- There is no white space at the ends of a core: it begins with a letter and ends as the
value does. -/
theorem isTrimmed_core : Text.IsTrimmed c.core where
  head := by
    intro d hd
    obtain ⟨first, rest, hletters⟩ := List.exists_cons_of_ne_nil c.letters_ne_nil
    have hfirst : first ∈ c.letters := hletters ▸ List.mem_cons_self
    rw [core, hletters] at hd
    cases hd
    exact (letter_of_spells c.spells hfirst).2.2.2
  last := by
    intro d hd
    have hsplit : c.core = c.letters ++ c.afterType ++ '=' :: c.beforeValue ++ c.value := by
      rw [core, List.append_assoc _ ('=' :: c.beforeValue), List.cons_append]
    rw [hsplit, List.getLast?_append_of_ne_nil _ c.value_ne_nil] at hd
    exact c.trimmed.last d hd

theorem core_ne_nil : c.core ≠ [] := by
  rw [core]
  exact List.append_ne_nil_of_right_ne_nil _ (List.cons_ne_nil _ _)

theorem trim_type : Text.trim (c.letters ++ c.afterType) = c.letters := by
  have hblank : Text.IsBlank [] := fun d hd => absurd hd List.not_mem_nil
  have htrimmed : Text.IsTrimmed c.letters :=
    ⟨fun d hd => (letter_of_spells c.spells (List.mem_of_mem_head? hd)).2.2.2,
      fun d hd => (letter_of_spells c.spells (List.mem_of_mem_getLast? hd)).2.2.2⟩
  exact Text.trim_padded hblank c.blank_afterType htrimmed c.letters_ne_nil

theorem trim_value : Text.trim (c.beforeValue ++ c.value) = c.value := by
  have hblank : Text.IsBlank [] := fun d hd => absurd hd List.not_mem_nil
  have htrim := Text.trim_padded c.blank_beforeValue hblank c.trimmed c.value_ne_nil
  rwa [List.append_nil] at htrim

/-- In front of the first equals sign stands the type, even if the value has some too. -/
theorem divided : c.core.takeWhile (· != '=') = c.letters ++ c.afterType
    ∧ c.core.dropWhile (· != '=') = '=' :: (c.beforeValue ++ c.value) := by
  have hnone : ∀ d ∈ c.letters ++ c.afterType, (d != '=') = true := by
    intro d hd
    rw [bne_iff_ne]
    rcases List.mem_append.1 hd with hd | hd
    · exact (letter_of_spells c.spells hd).2.2.1
    · rintro rfl
      exact absurd (c.blank_afterType _ hd) (by decide)
  constructor
  · rw [core, List.takeWhile_append_of_pos hnone, List.takeWhile_cons_of_neg (by decide),
      List.append_nil]
  · rw [core, List.dropWhile_append_of_pos hnone, List.dropWhile_cons_of_neg (by decide)]

/-- The letters of a type stand for its kind, in whichever case they are. -/
theorem ofLetters?_letters : AttributeKind.ofLetters? c.letters = some c.kind := by
  rw [AttributeKind.ofLetters?, upper_of_spells c.spells]
  cases c.kind <;> rfl

/-- A core gives the pair that was written. -/
theorem ofComponent_core : ofComponent c.core = .ok (c.kind, c.value) := by
  obtain ⟨htype, hvalue⟩ := c.divided
  have hsome : c.value.isEmpty = false := List.isEmpty_eq_false_iff.2 c.value_ne_nil
  simp only [ofComponent, htype, hvalue, c.trim_type, c.trim_value, hsome, c.ofLetters?_letters]
  rfl

/-- A component without its escapes is trimmed to its type, an equals sign and its value. -/
theorem trim_content : Text.trim (Piece.component c).content = c.core :=
  Text.trim_padded c.blank_beforeType c.blank_afterValue c.isTrimmed_core c.core_ne_nil

end Component

/-- The pieces that are not blank give the pairs that were written. -/
theorem mapM_ofComponent (pieces : List Piece) :
    (((pieces.map Piece.content).map Text.trim).filter fun c => !c.isEmpty).mapM ofComponent
      = .ok (pairs pieces) := by
  induction pieces with
  | nil => rfl
  | cons p pieces ih =>
    rw [List.map_cons, List.map_cons, List.filter_cons]
    cases p with
    | blank cs h =>
      rw [Piece.content, Text.trim_blank h]
      exact ih
    | component c =>
      have hsome : c.core.isEmpty = false := List.isEmpty_eq_false_iff.2 c.core_ne_nil
      rw [c.trim_content, if_pos (by rw [hsome]; rfl), List.mapM_cons, c.ofComponent_core, ih]
      rfl

theorem arcs_injective : Function.Injective AttributeKind.arcs := by
  intro a b h
  cases a <;> cases b <;> first | rfl | cases h

/-- Entries of distinct kinds have distinct types. -/
theorem nodup_entries {given : List (AttributeKind × List Char)}
    (h : (given.map (·.1)).Nodup) : ((given.map entry).map (·.type)).Nodup := by
  have htypes : (given.map entry).map (·.type) = (given.map (·.1)).map AttributeKind.arcs := by
    rw [List.map_map, List.map_map]
    rfl
  rw [htypes]
  exact h.map arcs_injective

/-- Whatever pairs are written, with no type twice, they are parsed as they were: escapes,
letters in either case, white space and blank pieces leave no trace. -/
theorem parse_written {pieces : List Piece} (hne : pairs pieces ≠ [])
    (hnodup : ((pairs pieces).map (·.1)).Nodup) :
    parse (written pieces) = .ok ((pairs pieces).map entry) := by
  have hpieces : pieces ≠ [] := by
    rintro rfl
    exact hne rfl
  have hread : (givenComponents (written pieces)).mapM ofComponent = .ok (pairs pieces) := by
    rw [givenComponents, components_written hpieces]
    exact mapM_ofComponent pieces
  have hkept := Entries.putAll_nil_of_nodup (nodup_entries hnodup)
  exact parse_eq_ok_iff_putAll.2 ⟨pairs pieces, hne, hread, hkept.symm⟩

-- ============================================================ small samples

/-- A common name with everything that might divide it, white space on its own, and an
organization that ends with an escaped backslash. -/
def smallPieces : List Piece := [
  .component {
    kind := .commonName
    value := "a\\, b=c".toList
    value_ne_nil := by decide
    trimmed := .of_ends rfl rfl (by decide) (by decide)
    letters := "cN".toList
    spells := .cons (.inr rfl) (.cons (.inl rfl) .nil)
    beforeType := [' ']
    afterType := ['\t']
    beforeValue := ['\u2003']
    afterValue := []
    blank_beforeType := by decide
    blank_afterType := by decide
    blank_beforeValue := by decide
    blank_afterValue := by decide },
  .blank ['\u00A0'] (by decide),
  .component {
    kind := .organization
    value := "\\".toList
    value_ne_nil := by decide
    trimmed := .of_ends rfl rfl (by decide) (by decide)
    letters := "O".toList
    spells := .cons (.inl rfl) .nil
    beforeType := []
    afterType := []
    beforeValue := []
    afterValue := ['\n']
    blank_beforeType := by decide
    blank_afterType := by decide
    blank_beforeValue := by decide
    blank_afterValue := by decide }]

theorem parse_written_small :
    written smallPieces = " cN\t=\u2003a\\\\\\, b=c,\u00A0,O=\\\\\n"
      ∧ pairs smallPieces
        = [(.commonName, "a\\, b=c".toList), (.organization, "\\".toList)]
      ∧ ((pairs smallPieces).map (·.1)).Nodup
      ∧ parse (written smallPieces)
        = .ok [Entries.ofText [2, 5, 4, 3] "a\\, b=c", Entries.ofText [2, 5, 4, 10] "\\"] := by
  have hne : pairs smallPieces ≠ [] := List.cons_ne_nil _ _
  have hnodup : ((pairs smallPieces).map (·.1)).Nodup := by decide
  exact ⟨by decide +kernel, rfl, hnodup, parse_written hne hnodup⟩

end Enrollment.Name.Written
