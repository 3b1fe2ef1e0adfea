/-
Objects in any writing.

A document is an object with white space between its tokens, its members in any order,
and their names and texts in any spelling.  Of its members those count whose name is
the name of a field; the others are passed over, whatever their values are.

`readMembers_written` is one induction over the members that are left, and what it comes
to is what the texts for the fields store, one after the other.  Fields that do not get
in each other's way may be stored in any order (`storeAll_perm`), so a document is read
as what it presents (`ofDocument_presents`).  Conversely, no name of a field occurs
twice in a document that is read (`nodup_of_ofDocument`).
-/
import Enrollment.Proofs.Json.Record
import Enrollment.Proofs.Json.Skip

namespace Enrollment.Json

-- ============================================================== documents

/-- White space between tokens. -/
structure Gap where
  bytes : Bytes
  blank : Blank bytes

/-- A text in one of its spellings. -/
structure Spelling where
  text : String
  bytes : Bytes
  spells : Spells text.toList bytes

/-- The value of a member. -/
inductive Value where
  | null
  | text (spelling : Spelling)
  /-- Any value, which may also be null or a text. -/
  | any (bytes : Bytes) (h : Spelled .value bytes)

/-- A member, with the white space before its name, around the colon and after its value. -/
structure Member where
  before : Gap
  name : Spelling
  middle : Gap
  other : Gap
  value : Value
  after : Gap

/-- An object, with the white space around it and after its first brace. -/
structure Document where
  front : Gap
  inside : Gap
  members : List Member
  back : Gap

def Value.bytes : Value → Bytes
  | .null => Bytes.ofAscii "null"
  | .text spelling => 0x22 :: (spelling.bytes ++ [0x22])
  | .any bytes _ => bytes

/-- What follows the name of a member. -/
def Member.afterName (m : Member) (rest : Bytes) : Bytes :=
  m.middle.bytes ++ 0x3A :: (m.other.bytes ++ (m.value.bytes ++ (m.after.bytes ++ rest)))

/-- A member and what follows it. -/
def Member.bytes (m : Member) (rest : Bytes) : Bytes :=
  m.before.bytes ++ 0x22 :: (m.name.bytes ++ 0x22 :: m.afterName rest)

/-- Members with the commas between them, and what follows them. -/
def written : (first : Bool) → List Member → Bytes → Bytes
  | _, [], rest => rest
  | first, m :: members, rest =>
    (if first then [] else [0x2C]) ++ m.bytes (written false members rest)

def Document.bytes (d : Document) : Bytes :=
  d.front.bytes ++ 0x7B :: (d.inside.bytes ++ written true d.members (0x7D :: d.back.bytes))

/-- The text of a value that is null or a text. -/
def Value.given? : Value → Option (Option String)
  | .null => some none
  | .text spelling => some (some spelling.text)
  | .any _ _ => none

/-- The name and the text of a member that has one. -/
def Member.pair? (m : Member) : Option (String × String) :=
  match m.value with
  | .text spelling => some (m.name.text, spelling.text)
  | _ => none

/-- The document has these members under the names, in some order: nothing else has one of the
names but null, and no name occurs twice. -/
structure Document.Presents (d : Document) (names : List String)
    (members : List (String × String)) : Prop where
  given : ∀ m ∈ d.members, m.name.text ∈ names → m.value.given?.isSome
  nodup : ((d.members.map (·.name.text)).filter (· ∈ names)).Nodup
  perm : ((d.members.filterMap Member.pair?).filter (·.1 ∈ names)).Perm members

-- ================================================================= tokens

variable {σ : Type} {gap rest : Bytes} {b : UInt8} {m : Member}

theorem dropGaps_blank (h : Blank gap) (rest : Bytes) : dropGaps (gap ++ rest) = dropGaps rest :=
  List.dropWhile_append_of_pos (isGap_of_blank h)

theorem dropGaps_cons (h : isGap b = false) (rest : Bytes) : dropGaps (b :: rest) = b :: rest :=
  List.dropWhile_cons_of_neg (by rw [h]; decide)

/-- A member follows, behind a comma unless it is the first. -/
theorem objectPoint_member (first : Bool) (hgap : Blank gap) (m : Member) (rest : Bytes) :
    objectPoint first (gap ++ ((if first then [] else [0x2C]) ++ m.bytes rest))
      = .ok (.key (m.name.bytes ++ 0x22 :: m.afterName rest)) := by
  have hname : dropGaps (m.bytes rest) = 0x22 :: (m.name.bytes ++ 0x22 :: m.afterName rest) := by
    rw [Member.bytes, dropGaps_blank m.before.blank, dropGaps_cons rfl]
  cases first with
  | true =>
    rw [objectPoint, dropGaps_blank hgap, if_pos rfl, List.nil_append, hname]
    rfl
  | false =>
    have hcomma : dropGaps (gap ++ ([0x2C] ++ m.bytes rest)) = 0x2C :: m.bytes rest := by
      rw [dropGaps_blank hgap]
      exact dropGaps_cons rfl _
    rw [objectPoint, if_neg Bool.false_ne_true, hcomma]
    simp only [hname]
    rfl

theorem objectPoint_close (first : Bool) (hgap : Blank gap) (rest : Bytes) :
    objectPoint first (gap ++ 0x7D :: rest) = .ok (.closed rest) := by
  rw [objectPoint, dropGaps_blank hgap, dropGaps_cons rfl]
  rfl

theorem readColon_afterName (m : Member) (rest : Bytes) :
    readColon (m.afterName rest)
      = .ok (m.other.bytes ++ (m.value.bytes ++ (m.after.bytes ++ rest))) := by
  rw [readColon, Member.afterName, dropGaps_blank m.middle.blank, dropGaps_cons rfl]
  rfl

-- ================================================================= values

/-- A value that is null or a text is read as such. -/
theorem readOptional_value {v : Value} {text : Option String} (h : v.given? = some text)
    (hgap : Blank gap) (rest : Bytes) :
    readOptional (gap ++ (v.bytes ++ rest)) = .ok (text, rest) := by
  cases v with
  | null =>
    cases h
    rw [readOptional, dropGaps_blank hgap]
    rfl
  | text spelling =>
    cases h
    have hdrop : dropGaps (gap ++ ((Value.text spelling).bytes ++ rest))
        = 0x22 :: (spelling.bytes ++ 0x22 :: rest) := by
      rw [dropGaps_blank hgap, Value.bytes, List.cons_append, List.append_assoc]
      exact dropGaps_cons rfl _
    rw [readOptional, hdrop]
    show (readText (spelling.bytes ++ 0x22 :: rest)).bind _ = _
    rw [readText_spells spelling.spells]
    rfl
  | any bytes hbytes => cases h

/-- Every value is passed over. -/
theorem skipValue_value (v : Value) (hgap : Blank gap) (hrest : Stops rest) :
    skipValue (gap ++ (v.bytes ++ rest)) = .ok rest := by
  cases v with
  | null => exact skipValue_of_readOptional (readOptional_value rfl hgap rest)
  | text spelling => exact skipValue_of_readOptional (readOptional_value rfl hgap rest)
  | any bytes hbytes => exact skipValue_spelled hgap hbytes hrest

-- ================================================================ members

variable {shape : Shape σ} {seen : List String} {s s' : σ}

/-- The names of the fields. -/
def Shape.names (shape : Shape σ) : List String :=
  shape.fields.map (·.name)

/-- A key names a field or none. -/
theorem find?_cases (shape : Shape σ) (key : String) :
    (shape.fields.find? (·.name == key) = none ∧ key ∉ shape.names)
      ∨ ∃ field, shape.fields.find? (·.name == key) = some field ∧ field.name = key
        ∧ key ∈ shape.names := by
  cases hfind : shape.fields.find? (·.name == key) with
  | none =>
    refine .inl ⟨rfl, fun hmem => ?_⟩
    obtain ⟨field, hfield, hname⟩ := List.mem_map.1 hmem
    exact List.find?_eq_none.1 hfind field hfield (beq_iff_eq.2 hname)
  | some field =>
    have hfound := List.find?_some hfind
    have hname : field.name = key := beq_iff_eq.1 hfound
    exact .inr ⟨field, rfl, hname, List.mem_map.2 ⟨field, List.mem_of_find?_eq_some hfind, hname⟩⟩

/-- What a value that is null or a text stores. -/
def storeGiven (field : Field σ) (text : Option String) (s : σ) : Except Fault σ :=
  match text with
  | none => .ok s
  | some text => field.store text s

/-- A member of another name is passed over. -/
theorem readMember_other (hname : m.name.text ∉ shape.names) (hrest : Stops rest) :
    readMember shape m.name.text seen s (m.afterName rest)
      = .ok (s, seen, m.after.bytes ++ rest) := by
  have hfind : shape.fields.find? (·.name == m.name.text) = none := by
    rcases find?_cases shape m.name.text with h | ⟨field, -, -, h⟩
    · exact h.1
    · exact absurd h hname
  have hskip := skipValue_value m.value m.other.blank (stops_blank m.after.blank hrest)
  simp only [readMember, hfind, readColon_afterName, bind, Except.bind, hskip]
  rfl

/-- A member with the name of a field is stored in it. -/
theorem readMember_field {field : Field σ} {text : Option String}
    (hfind : shape.fields.find? (·.name == m.name.text) = some field)
    (hseen : m.name.text ∉ seen) (hgiven : m.value.given? = some text)
    (hstore : storeGiven field text s = .ok s') (rest : Bytes) :
    readMember shape m.name.text seen s (m.afterName rest)
      = .ok (s', m.name.text :: seen, m.after.bytes ++ rest) := by
  have hcontains : seen.contains m.name.text = false := by
    rw [List.contains_eq_mem, decide_eq_false_iff_not]
    exact hseen
  have hvalue := readOptional_value hgiven m.other.blank (m.after.bytes ++ rest)
  simp only [readMember, hfind, hcontains, readColon_afterName, readField, hvalue, bind,
    Except.bind, Bool.false_eq_true, if_false]
  cases text with
  | none =>
    cases hstore
    rfl
  | some text =>
    have hstore : field.store text s = .ok s' := hstore
    simp only [hstore]
    rfl

/-- What follows a value is a comma or the brace that closes the object. -/
theorem stops_written (members : List Member) (rest : Bytes) :
    Stops (written false members (0x7D :: rest)) := by
  cases members with
  | nil => exact stops_cons (.inr (.inr rfl)) rest
  | cons m members => exact stops_cons (.inl rfl) _

/-- The texts for fields among texts under names. -/
def Shape.entries (shape : Shape σ) (pairs : List (String × String)) : List (Field σ × String) :=
  pairs.filterMap fun p => (shape.fields.find? (·.name == p.1)).map (·, p.2)

/-- The texts that members have. -/
def pairs (members : List Member) : List (String × String) :=
  members.filterMap Member.pair?

/-- A member that is not looked for adds no text. -/
theorem entries_other {members : List Member} (hname : m.name.text ∉ shape.names) :
    shape.entries (pairs (m :: members)) = shape.entries (pairs members) := by
  have hfind : shape.fields.find? (·.name == m.name.text) = none := by
    rcases find?_cases shape m.name.text with h | ⟨field, -, -, h⟩
    · exact h.1
    · exact absurd h hname
  rw [pairs, pairs, List.filterMap_cons, Member.pair?]
  cases m.value with
  | text spelling =>
    rw [Shape.entries, List.filterMap_cons]
    simp only [hfind]
    rfl
  | null => rfl
  | any bytes h => rfl

/-- A member that is looked for stores its text first, unless it is null. -/
theorem storeAll_field {members : List Member} {field : Field σ} {text : Option String}
    (hfind : shape.fields.find? (·.name == m.name.text) = some field)
    (hgiven : m.value.given? = some text) :
    storeAll (shape.entries (pairs (m :: members))) s
      = storeGiven field text s >>= storeAll (shape.entries (pairs members)) := by
  rw [pairs, pairs, List.filterMap_cons, Member.pair?]
  cases hvalue : m.value with
  | text spelling =>
    rw [hvalue] at hgiven
    cases hgiven
    rw [Shape.entries, List.filterMap_cons]
    simp only [hfind]
    rfl
  | null =>
    rw [hvalue] at hgiven
    cases hgiven
    rfl
  | any bytes h =>
    rw [hvalue] at hgiven
    cases hgiven

/-- Members are stored in their fields, one after the other, and the others are passed over. -/
theorem readMembers_written {members : List Member} {first : Bool}
    (hgiven : ∀ m ∈ members, m.name.text ∈ shape.names → m.value.given?.isSome)
    (hnodup : ((members.map (·.name.text)).filter (· ∈ shape.names)).Nodup)
    (hseen : ∀ m ∈ members, m.name.text ∈ shape.names → m.name.text ∉ seen)
    (hstore : storeAll (shape.entries (pairs members)) s = .ok s') (hgap : Blank gap)
    (rest : Bytes) :
    readMembers shape first seen s (gap ++ written first members (0x7D :: rest))
      = .ok (s', rest) := by
  -- on the members that are left, from any position between two of them
  induction members generalizing first seen s gap with
  | nil =>
    cases hstore
    exact readMembers_closed (objectPoint_close first hgap rest)
  | cons m members ih =>
    have hstops := stops_written members rest
    have hkey := readText_spells m.name.spells (m.afterName (written false members (0x7D :: rest)))
    have hpoint := objectPoint_member first hgap m (written false members (0x7D :: rest))
    have hgiven' := fun d hd => hgiven d (List.mem_cons_of_mem m hd)
    rw [List.map_cons, List.filter_cons] at hnodup
    rcases find?_cases shape m.name.text with ⟨-, hname⟩ | ⟨field, hfind, -, hname⟩
    · rw [if_neg (by simpa using hname)] at hnodup
      rw [entries_other hname] at hstore
      rw [written, readMembers_key hpoint hkey (readMember_other hname hstops)]
      exact ih hgiven' hnodup (fun d hd => hseen d (List.mem_cons_of_mem m hd)) hstore
        m.after.blank
    · rw [if_pos (by simpa using hname), List.nodup_cons] at hnodup
      obtain ⟨text, htext⟩ := Option.isSome_iff_exists.1 (hgiven m List.mem_cons_self hname)
      rw [storeAll_field hfind htext] at hstore
      obtain ⟨t, hone, hstore⟩ := bind_eq_ok hstore
      rw [written, readMembers_key hpoint hkey
        (readMember_field hfind (hseen m List.mem_cons_self hname) htext hone _)]
      refine ih hgiven' hnodup.2 (fun d hd hmem hmem' => ?_) hstore m.after.blank
      -- the field just stored is none of those to come, as no two have one name
      rcases List.mem_cons.1 hmem' with heq | hmem'
      · refine hnodup.1 (List.mem_filter.2 ⟨List.mem_map.2 ⟨d, hd, heq⟩, ?_⟩)
        exact decide_eq_true hname
      · exact hseen d (List.mem_cons_of_mem m hd) hmem hmem'

-- ================================================================== twice

/-- Members that are read go on behind the first of them. -/
theorem exists_of_readMembers {first : Bool} {bs inside value : Bytes} {key : String}
    {out : σ × Bytes} (hpoint : objectPoint first bs = .ok (.key inside))
    (hkey : readText inside = .ok (key, value))
    (h : readMembers shape first seen s bs = .ok out) :
    ∃ s' seen' rest, readMember shape key seen s value = .ok (s', seen', rest)
      ∧ readMembers shape false seen' s' rest = .ok out := by
  cases hmember : readMember shape key seen s value with
  | ok next =>
    obtain ⟨s', seen', rest⟩ := next
    exact ⟨s', seen', rest, rfl, (readMembers_key hpoint hkey hmember).symm.trans h⟩
  | error fault =>
    rw [readMembers] at h
    split at h
    · cases h
    · rename_i hclosed
      cases hpoint.symm.trans hclosed
    · rename_i hopen
      cases hpoint.symm.trans hopen
      split at h
      · cases h
      · rename_i hread
        cases hkey.symm.trans hread
        split at h
        · cases h
        · rename_i hok
          cases hmember.symm.trans hok

/-- A member of a field that is read was not read before, and ends where its value does. -/
theorem of_readMember_field {field : Field σ} {seen' : List String} {left : Bytes}
    (hfind : shape.fields.find? (·.name == m.name.text) = some field) (hrest : Stops rest)
    (h : readMember shape m.name.text seen s (m.afterName rest) = .ok (s', seen', left)) :
    m.name.text ∉ seen ∧ seen' = m.name.text :: seen ∧ left = m.after.bytes ++ rest := by
  simp only [readMember, hfind, readColon_afterName] at h
  split at h
  case isTrue => cases h
  case isFalse hseen =>
    obtain ⟨value, hvalue, h⟩ := bind_eq_ok h
    cases hvalue
    obtain ⟨⟨t, after⟩, hfield, h⟩ := bind_eq_ok h
    cases h
    obtain ⟨⟨text, after⟩, hread, hfield⟩ := bind_eq_ok hfield
    have hskip := skipValue_of_readOptional hread
    rw [skipValue_value m.value m.other.blank (stops_blank m.after.blank hrest)] at hskip
    cases hskip
    refine ⟨fun hmem => hseen (List.contains_iff_mem.2 hmem), rfl, ?_⟩
    cases text with
    | none =>
      cases hfield
      rfl
    | some text =>
      obtain ⟨u, -, hfield⟩ := bind_eq_ok hfield
      cases hfield
      rfl

/-- Of members that are read no two have the name of one field. -/
theorem nodup_of_readMembers {members : List Member} {first : Bool} {out : σ × Bytes}
    (hgap : Blank gap)
    (h : readMembers shape first seen s (gap ++ written first members (0x7D :: rest)) = .ok out) :
    ((members.map (·.name.text)).filter (· ∈ shape.names)).Nodup
      ∧ ∀ m ∈ members, m.name.text ∈ shape.names → m.name.text ∉ seen := by
  induction members generalizing first seen s gap with
  | nil => exact ⟨List.nodup_nil, fun _ hm => absurd hm List.not_mem_nil⟩
  | cons m members ih =>
    have hstops := stops_written members rest
    have hkey := readText_spells m.name.spells (m.afterName (written false members (0x7D :: rest)))
    have hpoint := objectPoint_member first hgap m (written false members (0x7D :: rest))
    obtain ⟨t, seen', left, hmember, hrest⟩ := exists_of_readMembers hpoint hkey h
    rw [List.map_cons, List.filter_cons]
    rcases find?_cases shape m.name.text with ⟨-, hname⟩ | ⟨field, hfind, -, hname⟩
    · rw [readMember_other hname hstops] at hmember
      cases hmember
      obtain ⟨hnodup, hseen⟩ := ih m.after.blank hrest
      rw [if_neg (by simpa using hname)]
      refine ⟨hnodup, fun d hd hmem => ?_⟩
      rcases List.mem_cons.1 hd with rfl | hd
      · exact absurd hmem hname
      · exact hseen d hd hmem
    · -- its name is among those that were seen from here on
      obtain ⟨hfirst, rfl, rfl⟩ := of_readMember_field hfind hstops hmember
      obtain ⟨hnodup, hseen⟩ := ih m.after.blank hrest
      rw [if_pos (by simpa using hname), List.nodup_cons]
      refine ⟨⟨fun hmem => ?_, hnodup⟩, fun d hd hmem => ?_⟩
      · obtain ⟨hmap, -⟩ := List.mem_filter.1 hmem
        obtain ⟨d, hd, hdname⟩ := List.mem_map.1 hmap
        exact hseen d hd (hdname ▸ hname) (hdname ▸ List.mem_cons_self)
      · rcases List.mem_cons.1 hd with rfl | hd
        · exact hfirst
        · exact fun hmem' => hseen d hd hmem (List.mem_cons_of_mem _ hmem')

-- ================================================================== order

/-- Texts for two fields can be stored in either order. -/
def Field.Commutes (f g : Field σ) : Prop :=
  ∀ a b s, (f.store a s >>= g.store b) = (g.store b s >>= f.store a)

theorem storeAll_cons (e : Field σ × String) (es : List (Field σ × String)) (s : σ) :
    storeAll (e :: es) s = e.1.store e.2 s >>= storeAll es := rfl

/-- Texts for fields that do not get in each other's way can be stored in any order. -/
theorem storeAll_perm {es fs : List (Field σ × String)} (h : es.Perm fs)
    (hcommutes : es.Pairwise fun e f => e.1.Commutes f.1) (s : σ) :
    storeAll es s = storeAll fs s := by
  induction h generalizing s with
  | nil => rfl
  | cons e _ ih =>
    rw [storeAll_cons, storeAll_cons]
    exact congrArg (_ >>= ·) (funext fun t => ih (List.pairwise_cons.1 hcommutes).2 t)
  | swap e f es =>
    have hpair := (List.pairwise_cons.1 hcommutes).1 e List.mem_cons_self
    have hassoc (x : Except Fault σ) (g : σ → Except Fault σ) :
        (x >>= fun t => g t >>= storeAll es) = (x >>= g) >>= storeAll es := by
      cases x <;> rfl
    show (f.1.store f.2 s >>= fun t => e.1.store e.2 t >>= storeAll es)
      = (e.1.store e.2 s >>= fun t => f.1.store f.2 t >>= storeAll es)
    rw [hassoc, hassoc, hpair]
  | trans hfirst _ ih ih' =>
    have hsymm {e f : Field σ × String} (h : e.1.Commutes f.1) : f.1.Commutes e.1 :=
      fun a b s => (h b a s).symm
    exact (ih hcommutes s).trans (ih' (hfirst.pairwise hcommutes hsymm) s)

-- ================================================================ reading

/-- A document is read by its members, and nothing but white space may follow. -/
theorem ofDocument_bytes (shape : Shape σ) (d : Document) :
    ofDocument shape d.bytes = (do
      let (s, rest) ← readMembers shape true [] shape.empty
        (d.inside.bytes ++ written true d.members (0x7D :: d.back.bytes))
      if (dropGaps rest).isEmpty then return s else throw .trailingCharacters) := by
  rw [ofDocument, readRecord, Document.bytes, dropGaps_blank d.front.blank, dropGaps_cons rfl]
  rfl

/-- Texts under other names are for no field. -/
theorem entries_filter (shape : Shape σ) (ps : List (String × String)) :
    shape.entries (ps.filter (·.1 ∈ shape.names)) = shape.entries ps := by
  induction ps with
  | nil => rfl
  | cons p ps ih =>
    rw [List.filter_cons]
    rcases find?_cases shape p.1 with ⟨hfind, hname⟩ | ⟨field, hfind, -, hname⟩
    · rw [if_neg (by simpa using hname), ih, Shape.entries, Shape.entries, List.filterMap_cons]
      simp only [hfind]
      rfl
    · rw [if_pos (by simpa using hname), Shape.entries, Shape.entries, List.filterMap_cons,
        List.filterMap_cons]
      simp only [hfind, Option.map_some]
      exact congrArg _ ih

/-- Texts under the names of their fields are for these. -/
theorem entries_map {es : List (Field σ × String)}
    (h : ∀ e ∈ es, shape.fields.find? (·.name == e.1.name) = some e.1) :
    shape.entries (es.map fun e => (e.1.name, e.2)) = es := by
  induction es with
  | nil => rfl
  | cons e es ih =>
    rw [List.map_cons, Shape.entries, List.filterMap_cons]
    simp only [h e List.mem_cons_self, Option.map_some]
    exact congrArg (e :: ·) (ih fun f hf => h f (List.mem_cons_of_mem e hf))

/-- A document is read as the members that it presents. -/
theorem ofDocument_presents {d : Document} {members : List (String × String)}
    (h : d.Presents shape.names members)
    (hcommutes : (shape.entries members).Pairwise fun e f => e.1.Commutes f.1)
    (hstore : storeAll (shape.entries members) shape.empty = .ok s) :
    ofDocument shape d.bytes = .ok s := by
  have hperm : (shape.entries members).Perm (shape.entries (pairs d.members)) := by
    rw [← entries_filter shape (pairs d.members)]
    exact (h.perm.filterMap _).symm
  rw [storeAll_perm hperm hcommutes] at hstore
  rw [ofDocument_bytes, readMembers_written h.given h.nodup (fun _ _ _ => List.not_mem_nil) hstore
    d.inside.blank]
  have hend : dropGaps d.back.bytes = [] := by
    have hdrop := dropGaps_blank d.back.blank []
    rwa [List.append_nil] at hdrop
  show (if (dropGaps d.back.bytes).isEmpty then _ else _) = _
  rw [hend]
  rfl

/-- In a document that is read no name of a field occurs twice. -/
theorem nodup_of_ofDocument {d : Document} (h : ofDocument shape d.bytes = .ok s) :
    ((d.members.map (·.name.text)).filter (· ∈ shape.names)).Nodup := by
  rw [ofDocument_bytes] at h
  obtain ⟨out, hread, -⟩ := bind_eq_ok h
  exact (nodup_of_readMembers d.inside.blank hread).1

-- ================================================================ writing

def Gap.none : Gap := ⟨[], fun _ h => absurd h List.not_mem_nil⟩

/-- The spelling that is written. -/
def Spelling.plain (text : String) : Spelling :=
  ⟨text, Utf8.encodeChars (text.toList.flatMap escapeChar), spells_escaped text.toList⟩

def Member.plain (p : String × String) : Member :=
  ⟨.none, .plain p.1, .none, .none, .text (.plain p.2), .none⟩

/-- The object that is written. -/
def Document.plain (members : List (String × String)) : Document :=
  ⟨.none, .none, members.map Member.plain, .none⟩

/-- Members that are written as usual are the text that is written for them. -/
theorem written_plain (first : Bool) (members : List (String × String)) (rest : Bytes) :
    written first (members.map Member.plain) (0x7D :: rest)
      = Utf8.encodeChars (tailText first members) ++ rest := by
  induction members generalizing first with
  | nil => rfl
  | cons p members ih =>
    rw [encodeChars_tailText, ← ih, List.map_cons, written]
    simp only [Member.bytes, Member.plain, Member.afterName, Value.bytes, Spelling.plain, Gap.none,
      List.nil_append, List.cons_append, List.append_assoc]

theorem Document.bytes_plain (members : List (String × String)) :
    (plain members).bytes = Utf8.encodeChars (writeObject members) := by
  have hopen (cs : List Char) : Utf8.encodeChars ('\x7b' :: cs) = 0x7B :: Utf8.encodeChars cs := rfl
  rw [writeObject_eq, hopen, ← List.append_nil (Utf8.encodeChars (tailText true members)),
    ← written_plain]
  rfl

theorem pairs_plain (members : List (String × String)) :
    pairs (members.map Member.plain) = members := by
  induction members with
  | nil => rfl
  | cons p members ih =>
    rw [List.map_cons, pairs, List.filterMap_cons]
    exact congrArg (p :: ·) ih

/-- What is written presents what it is made of. -/
theorem Document.presents_plain {names : List String} {members : List (String × String)}
    (hnames : ∀ p ∈ members, p.1 ∈ names) (hnodup : (members.map (·.1)).Nodup) :
    (plain members).Presents names members where
  given m hm _ := by
    obtain ⟨p, -, rfl⟩ := List.mem_map.1 hm
    rfl
  nodup := by
    have hall : (plain members).members.map (·.name.text) = members.map (·.1) := by
      rw [plain, List.map_map]
      rfl
    rw [hall]
    exact hnodup.filter _
  perm := by
    have hall : members.filter (·.1 ∈ names) = members :=
      List.filter_eq_self.2 fun p hp => decide_eq_true (hnames p hp)
    have hpairs : (plain members).members.filterMap Member.pair? = members := pairs_plain members
    rw [hpairs, hall]

end Enrollment.Json
