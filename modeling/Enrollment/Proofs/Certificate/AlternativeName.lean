/-
Alternative names: what is asked for and what is written.

`hosts?` says which of the names in an extension are host names and
addresses, in their order and with their repetitions, and says nothing of
the other kinds.  A name that was taken from a request and is of one of the
two kinds is written as an element that stands for it again (`read_written`),
so a list of them is read back from the value of an extension.
-/
import Enrollment.Certificate.AlternativeName
import Enrollment.Proofs.Der.Many
import Enrollment.Proofs.Except
import Enrollment.Proofs.Net.Address
import Enrollment.Proofs.Text.Utf8

namespace Enrollment

-- ============================================================== addresses

/-- A list is its slices of one length, put together. -/
theorem Bytes.flatMap_slices (bs : Bytes) (width count : Nat) :
    ((List.range count).flatMap fun i => (bs.drop (width * i)).take width)
      = bs.take (width * count) := by
  induction count with
  | zero => rfl
  | succ count ih =>
    rw [List.range_succ, List.flatMap_append, ih, Nat.mul_succ, List.take_add]
    simp

namespace AlternativeName

/-- An address has the octets it was read from. -/
theorem octets_of_addressOfOctets {octets : Bytes} {a : Net.Address}
    (h : addressOfOctets octets = .ok a) : a.octets = octets := by
  unfold addressOfOctets at h
  split at h
  case h_1 =>
    cases h
    rfl
  case h_2 hlen =>
    cases h
    have hslice : ∀ i ∈ List.range 8,
        Bytes.ofNat 2 (Bytes.toNat ((octets.drop (2 * i)).take 2))
          = (octets.drop (2 * i)).take 2 := by
      intro i hi
      have hi := List.mem_range.1 hi
      have htwo : ((octets.drop (2 * i)).take 2).length = 2 := by
        rw [List.length_take, List.length_drop]
        omega
      have h := Bytes.ofNat_toNat ((octets.drop (2 * i)).take 2)
      rw [htwo] at h
      exact h
    rw [Net.Address.octets, List.flatMap_map, List.flatMap_def, List.map_congr_left hslice,
      ← List.flatMap_def, Bytes.flatMap_slices, List.take_of_length_le (by omega)]
  case h_3 => cases h

-- ================================================================== names

/-- The name that an element stands for, where it may stand among names. -/
def ofName? (e : Der.Element) : Option AlternativeName :=
  if isName e then (ofElement e).toOption else none

/-- One name. -/
def read : Der.Reader AlternativeName := fun bs =>
  (Der.readElement bs).bind fun found => (ofName? found.1).map (·, found.2)

theorem read_readsOne : Der.ReadsOne read :=
  ⟨ofName?, fun _ => rfl⟩

/-- The bytes of a name; none of a kind that is not written. -/
def written (name : AlternativeName) : Bytes :=
  name.write?.getD []

theorem asciiText_eq_ok {text found : String} (h : asciiText text = .ok found) : found = text := by
  unfold asciiText at h
  split at h
  case isTrue =>
    cases h
    rfl
  case isFalse => cases h

/-- What text the contents of a name have is read from its encoding again. -/
theorem textOfContents_encode {contents : Bytes} {text : String}
    (h : textOfContents contents = .ok text) : textOfContents (Utf8.encode text) = .ok text := by
  unfold textOfContents at h ⊢
  split at h
  case h_1 found _ =>
    have hsame := asciiText_eq_ok h
    subst hsame
    rw [Utf8.encode, Utf8.decode?_encodeChars, String.ofList_toList]
    exact h
  case h_2 => cases h

/-- What is of another type is kept with its type and its text. -/
theorem otherOfContents_eq_ok {contents : Bytes} {name : AlternativeName}
    (h : otherOfContents contents = .ok name) : ∃ type text, name = .other type text := by
  unfold otherOfContents at h
  dsimp only at h
  split at h
  case h_1 found hfound =>
    cases h
    simp only [Option.bind_eq_bind] at hfound
    obtain ⟨_, -, hfound⟩ := Option.bind_eq_some_iff.1 hfound
    obtain ⟨arcs, -, hfound⟩ := Option.bind_eq_some_iff.1 hfound
    obtain ⟨_, -, hfound⟩ := Option.bind_eq_some_iff.1 hfound
    split at hfound
    case isTrue => cases hfound
    case isFalse =>
      obtain ⟨_, -, hfound⟩ := Option.bind_eq_some_iff.1 hfound
      split at hfound
      case isTrue => cases hfound
      case isFalse =>
        obtain ⟨text, -, hfound⟩ := Option.bind_eq_some_iff.1 hfound
        cases hfound
        exact ⟨arcs, text, rfl⟩
  case h_2 => cases h

variable {e : Der.Element} {name : AlternativeName}

/-- A host name is the text of its element, and an address has its octets. -/
theorem ofElement_eq_ok (h : ofElement e = .ok name) (hhost : name.isHost = true) :
    (∃ text, e.tag.number = dnsTag ∧ textOfContents e.contents = .ok text ∧ name = .dns text)
      ∨ ∃ a, e.tag.number = addressTag ∧ addressOfOctets e.contents = .ok a
        ∧ name = .address a := by
  unfold ofElement at h
  dsimp only at h
  split_ifs at h with h0 h1 h2 h6 h7
  · obtain ⟨type, text, rfl⟩ := otherOfContents_eq_ok h
    cases hhost
  · obtain ⟨text, -, rfl⟩ := map_eq_ok h
    cases hhost
  · obtain ⟨text, htext, rfl⟩ := map_eq_ok h
    exact .inl ⟨text, h2, htext, rfl⟩
  · obtain ⟨text, -, rfl⟩ := map_eq_ok h
    cases hhost
  · obtain ⟨a, ha, rfl⟩ := map_eq_ok h
    exact .inr ⟨a, h7, ha, rfl⟩

/-- A host name or an address that an element stands for is read back from its
own encoding. -/
theorem read_written (h : ofElement e = .ok name) (hhost : name.isHost = true)
    (hlen : name.written.length < 2 ^ 64) (rest : Bytes) :
    read (name.written ++ rest) = some (name, rest) := by
  obtain ⟨text, -, htext, rfl⟩ | ⟨a, -, ha, rfl⟩ := ofElement_eq_ok h hhost
  · have hread := Der.readElement_write (t := .context dnsTag false) (c := Utf8.encode text)
      (by decide) (Nat.lt_trans (Der.length_lt_write _ _) hlen) rest
    have hname := congrArg (Except.map AlternativeName.dns) (textOfContents_encode htext)
    have hwritten :
      written (.dns text) = Der.write (.context dnsTag false) (Utf8.encode text) := rfl
    unfold read
    rw [hwritten, hread, Option.bind_some, ofName?, if_pos (by rfl)]
    exact congrArg (fun found => (found.toOption).map (·, rest)) hname
  · have hread := Der.readElement_write (t := .context addressTag false) (c := a.octets)
      (by decide) (Nat.lt_trans (Der.length_lt_write _ _) hlen) rest
    have haddress : addressOfOctets a.octets = .ok a := by
      rw [octets_of_addressOfOctets ha]
      exact ha
    have hname := congrArg (Except.map AlternativeName.address) haddress
    have hwritten : written (.address a) = Der.write (.context addressTag false) a.octets := rfl
    unfold read
    rw [hwritten, hread, Option.bind_some, ofName?, if_pos (by rfl)]
    exact congrArg (fun found => (found.toOption).map (·, rest)) hname

/-- Host names and addresses are all written. -/
theorem filterMap_write? {names : List AlternativeName} (h : ∀ name ∈ names, name.isHost = true) :
    names.filterMap write? = names.map written := by
  induction names with
  | nil => rfl
  | cons name names ih =>
    have hrest := ih fun other hother => h other (List.mem_cons_of_mem _ hother)
    have hname := h name List.mem_cons_self
    rw [List.map_cons, ← hrest]
    cases name with
    | dns text => rfl
    | address a => rfl
    | email text => cases hname
    | uri text => cases hname
    | other type text => cases hname

-- ================================================================== hosts

/-- The host name or the address that an element holds, if it is either. -/
def host? (e : Der.Element) : Option AlternativeName :=
  if e.tag.number = dnsTag then (Utf8.decode? e.contents).map .dns
  else if e.tag.number = addressTag then (addressOfOctets e.contents).toOption.map .address
  else none

/-- An element that stands for a name holds that name, if it is a host name or an
address, and else holds neither. -/
theorem host?_of_ofElement (h : ofElement e = .ok name) :
    host? e = if name.isHost then some name else none := by
  by_cases hhost : name.isHost = true
  · rw [if_pos hhost]
    obtain ⟨text, htag, htext, rfl⟩ | ⟨a, htag, ha, rfl⟩ := ofElement_eq_ok h hhost
    · unfold textOfContents at htext
      split at htext
      case h_1 found hfound =>
        have hsame := asciiText_eq_ok htext
        subst hsame
        rw [host?, if_pos htag, hfound]
        rfl
      case h_2 => cases htext
    · rw [host?, if_neg (by rw [htag]; decide), if_pos htag, ha]
      rfl
  · rw [if_neg hhost]
    -- an element of either kind stands for a name of that kind
    have hdns : e.tag.number ≠ dnsTag := by
      intro htag
      unfold ofElement at h
      simp only [htag] at h
      obtain ⟨text, -, rfl⟩ := map_eq_ok (show (textOfContents e.contents).map dns = _ from h)
      exact hhost rfl
    have haddress : e.tag.number ≠ addressTag := by
      intro htag
      unfold ofElement at h
      simp only [htag] at h
      obtain ⟨a, -, rfl⟩ :=
        map_eq_ok (show (addressOfOctets e.contents).map address = _ from h)
      exact hhost rfl
    rw [host?, if_neg hdns, if_neg haddress]

/-- Of the names that elements stand for, the host names and addresses are those
that the elements hold. -/
theorem filter_isHost_of_mapM {es : List Der.Element} {names : List AlternativeName}
    (h : es.mapM ofElement = .ok names) : names.filter isHost = es.filterMap host? := by
  have hall := forall₂_of_mapM h
  clear h
  induction hall with
  | nil => rfl
  | @cons e name es names hname _ ih =>
    rw [List.filter_cons, List.filterMap_cons, host?_of_ofElement hname, ih]
    cases name.isHost <;> rfl

-- ================================================================== texts

/-- The name that a text stands for: an address if it is one, and else a host
name. -/
def meant (text : String) : AlternativeName :=
  match Net.Address.parse text with
  | some a => .address a
  | none => .dns text

/-- The text is an address or is made of ASCII characters. -/
def IsGivable (text : String) : Prop :=
  (Net.Address.parse text).isSome ∨ text.toList.all (StringKind.allows .ia5) = true

/-- A host name of ASCII characters or an address that is whole. -/
inductive IsPlain : AlternativeName → Prop
  | dns {text : String} (h : text.toList.all (StringKind.allows .ia5) = true) : IsPlain (.dns text)
  | address {a : Net.Address} (h : a.Whole) : IsPlain (.address a)

variable {text : String} {texts : List String} {names : List AlternativeName}

/-- A text that may be given stands for the name that is meant. -/
theorem ofText_eq (h : IsGivable text) : ofText text = .ok (meant text) := by
  unfold ofText meant
  cases haddress : Net.Address.parse text with
  | some a => rfl
  | none =>
    have hascii := h.resolve_left (by rw [haddress]; decide)
    show (asciiText text).map AlternativeName.dns = _
    rw [asciiText, if_pos hascii]
    rfl

/-- Texts that can be given as names all stand for one. -/
theorem ofTexts_eq (h : ∀ text ∈ texts, IsGivable text) :
    ofTexts texts = .ok (texts.map meant) := by
  have hall : (texts.map id).mapM ofText = .ok (texts.map meant) :=
    mapM_map_eq_pure fun text htext => ofText_eq (h text htext)
  rw [List.map_id] at hall
  exact hall

theorem isPlain_meant (h : IsGivable text) : (meant text).IsPlain := by
  unfold meant
  cases haddress : Net.Address.parse text with
  | some a => exact .address (Net.Address.whole_of_parse haddress)
  | none => exact .dns (h.resolve_left (by rw [haddress]; decide))

theorem IsPlain.isHost (h : name.IsPlain) : name.isHost = true := by
  cases h <;> rfl

-- ================================================================ elements

/-- An address that is whole is read back from its octets. -/
theorem addressOfOctets_octets {a : Net.Address} (h : a.Whole) :
    addressOfOctets a.octets = .ok a := by
  cases a with
  | v4 octets =>
    match octets, h with
    | [a, b, c, d], _ => rfl
  | v6 groups =>
    obtain ⟨hlength, hgroups⟩ := h
    have hgroup : ∀ g ∈ groups, Bytes.toNat (Bytes.ofNat 2 g) = g := by
      intro g hg
      rw [Bytes.toNat_ofNat]
      exact Nat.mod_eq_of_lt (hgroups g hg)
    have hall : groups.map (fun g => Bytes.toNat (Bytes.ofNat 2 g)) = groups := by
      rw [List.map_congr_left hgroup, List.map_id']
    match groups, hlength, hall with
    | [a, b, c, d, e, f, g, h], _, hall =>
      exact congrArg (fun found => Except.ok (Net.Address.v6 found)) hall

/-- The element that a plain name is written as. -/
def element (name : AlternativeName) : Der.Element :=
  match name with
  | .dns text => ⟨.context dnsTag false, Utf8.encode text, name.written⟩
  | .address a => ⟨.context addressTag false, a.octets, name.written⟩
  | _ => ⟨.context otherTag true, [], name.written⟩

theorem encoded_element (name : AlternativeName) : name.element.encoded = name.written := by
  cases name <;> rfl

theorem isName_element (name : AlternativeName) : isName name.element = true := by
  cases name <;> rfl

/-- A plain name is what its element stands for. -/
theorem ofElement_element (h : name.IsPlain) : ofElement name.element = .ok name := by
  cases h with
  | @dns text hascii =>
    have htext : textOfContents (Utf8.encode text) = .ok text := by
      unfold textOfContents asciiText
      rw [Utf8.encode, Utf8.decode?_encodeChars, String.ofList_toList]
      exact if_pos hascii
    exact congrArg (Except.map AlternativeName.dns) htext
  | address hwhole =>
    exact congrArg (Except.map AlternativeName.address) (addressOfOctets_octets hwhole)

/-- A plain name is read from its encoding as its element. -/
theorem readElement_written (h : name.IsPlain) (hlen : name.written.length < 2 ^ 64)
    (rest : Bytes) : Der.readElement (name.written ++ rest) = some (name.element, rest) := by
  cases h with
  | dns hascii =>
    exact Der.readElement_write (t := .context dnsTag false) (by decide)
      (Nat.lt_trans (Der.length_lt_write _ _) hlen) rest
  | address hwhole =>
    exact Der.readElement_write (t := .context addressTag false) (by decide)
      (Nat.lt_trans (Der.length_lt_write _ _) hlen) rest

/-- Plain names are read from the value of an extension, each as its element. -/
theorem readElements?_written (h : ∀ name ∈ names, name.IsPlain)
    (hlen : (Der.sequence (names.filterMap write?)).length < 2 ^ 64) :
    readElements? (Der.sequence (names.filterMap write?)) = some (names.map element) := by
  have hwritten : names.filterMap write? = (names.map element).map (·.encoded) := by
    rw [filterMap_write? fun name hname => (h name hname).isHost, List.map_map]
    exact List.map_congr_left fun name _ => (encoded_element name).symm
  rw [hwritten] at hlen ⊢
  have hread : ∀ e ∈ names.map element, ∀ rest,
      Der.readElement (e.encoded ++ rest) = some (e, rest) := by
    intro e he rest
    obtain ⟨name, hname, rfl⟩ := List.mem_map.1 he
    have hshort := Nat.lt_trans
      (Der.length_lt_sequence (List.mem_map_of_mem (f := (·.encoded)) he)) hlen
    rw [encoded_element] at hshort ⊢
    exact readElement_written (h name hname) hshort rest
  have hitems := Der.readNumbered_sequence (Nat.lt_trans (Der.length_lt_write _ _) hlen) []
  rw [List.append_nil] at hitems
  have hnames : (names.map element).all isName = true := by
    refine List.all_eq_true.2 fun e he => ?_
    obtain ⟨name, -, rfl⟩ := List.mem_map.1 he
    exact isName_element name
  have hall := Der.readAll_written (Der.readElement_readsOne).nil hread
  unfold readElements?
  simp only [hitems, Option.bind_eq_bind, Option.bind_some, hall, hnames, if_true]

/-- Elements of plain names stand for the names. -/
theorem mapM_ofElement_element (h : ∀ name ∈ names, name.IsPlain) :
    (names.map element).mapM ofElement = .ok names := by
  have hall : (names.map element).mapM ofElement = .ok (names.map id) :=
    mapM_map_eq_pure fun name hname => ofElement_element (h name hname)
  rw [hall, List.map_id]

end AlternativeName

end Enrollment
