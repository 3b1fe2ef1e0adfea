/-
Extensions: what is written is read back, and what it means.

An extension is read from its encoding (`read_encode`), so the extensions of
a certificate that was made from a template are those of the template
(`extensions_eq`).  That says which bytes are there.  What they say to
whoever reads the certificate is its `Meaning`, which is read from the value
alone and has to take all of it; `map_meaning?_extensions` gives the meanings
of the extensions of a template, one by one.
-/
import Enrollment.Der.Strict
import Enrollment.Proofs.Certificate.AlternativeName
import Enrollment.Proofs.Certificate.Template

namespace Enrollment

open Der

namespace Extension

-- ================================================================ reading

theorem read_readsOne : ReadsOne read :=
  readSequence_readsOne _

theorem readCritical_boolean (b : Bool) (rest : Bytes) :
    readCritical (boolean b ++ rest) = some (b, rest) := by
  have hread : readNumbered TagNumber.boolean (boolean b ++ rest) = some (_, rest) :=
    readNumbered_write (t := .primitive TagNumber.boolean) (by decide)
      (by rw [List.length_singleton]; omega) rest
  unfold readCritical
  rw [hread]
  cases b <;> rfl

/-- Where no truth value stands, none is taken. -/
theorem readCritical_of_ne {bs rest : Bytes} {e : Element} (h : readElement bs = some (e, rest))
    (hne : e.tag.number ≠ TagNumber.boolean) : readCritical bs = some (false, bs) := by
  unfold readCritical readNumbered
  simp only [h, Option.bind_eq_bind, Option.bind_some, if_neg hne]

/-- An extension is critical if its flag says so, and is not if there is none. -/
theorem readCritical_written (critical : Bool) {value : Bytes} (h : value.length < 2 ^ 64) :
    readCritical ((if critical then boolean true else []) ++ octets value)
      = some (critical, octets value) := by
  cases critical with
  | true => exact readCritical_boolean true _
  | false =>
    -- false is left out, and the value that stands in its place is no truth value
    have hread := readElement_write (t := .primitive TagNumber.octetString) (by decide) h []
    rw [List.append_nil] at hread
    exact readCritical_of_ne hread (show TagNumber.octetString ≠ TagNumber.boolean by decide)

theorem length_value_lt (e : Extension) : e.value.length < e.encode.length :=
  Nat.lt_trans (length_lt_write (.primitive TagNumber.octetString) e.value)
    (length_lt_sequence (List.mem_cons_of_mem _ (List.mem_cons_of_mem _ List.mem_cons_self)))

/-- An extension is read back from its encoding. -/
theorem read_encode {e : Extension} (h : e.encode.length < 2 ^ 64) (rest : Bytes) :
    read (e.encode ++ rest) = some (e, rest) := by
  -- no part is longer than the whole, so each of them is read back
  have hid := Nat.lt_trans (length_lt_write (.primitive TagNumber.objectId) e.id.contents)
    (Nat.lt_trans (length_lt_sequence List.mem_cons_self) h)
  have hvalue := Nat.lt_trans e.length_value_lt h
  have hcontents := Nat.lt_trans (length_lt_write _ _) h
  have hoctets := readOctets_octets hvalue []
  rw [List.append_nil] at hoctets
  unfold read encode
  rw [readSequence_sequence _ hcontents]
  simp only [List.flatten_cons, List.flatten_nil, List.append_nil, readObjectId_objectId hid,
    Option.bind_eq_bind, Option.bind_some, readCritical_written _ hvalue, hoctets]
  rfl

/-- A list of extensions is read back. -/
theorem readList_encode {es : List Extension}
    (h : (Der.sequence (es.map encode)).length < 2 ^ 64) (rest : Bytes) :
    readList (Der.sequence (es.map encode) ++ rest) = some (es, rest) :=
  readItems_sequence read_readsOne h (fun _ _ he => read_encode he) rest

end Extension

namespace Certificate.Fields.OfTemplate

variable {f : Certificate.Fields} {t : Template} {label : Bytes}

/-- The list of extensions is part of what is signed. -/
theorem length_extensions_lt (h : f.OfTemplate t label) :
    (Der.sequence (t.extensions.map Extension.encode)).length < 2 ^ 64 := by
  obtain ⟨issuer, subject, -, -, hfit⟩ := h.exists_parts
  exact Nat.lt_trans (length_lt_write _ _) hfit.extensions

theorem length_value_lt (h : f.OfTemplate t label) {e : Extension} (he : e ∈ t.extensions) :
    e.value.length < 2 ^ 64 :=
  Nat.lt_trans e.length_value_lt
    (Nat.lt_trans (length_lt_sequence (List.mem_map_of_mem he)) h.length_extensions_lt)

/-- A certificate that was made from a template has the template's extensions. -/
theorem extensions_eq (h : f.OfTemplate t label) : f.extensions = t.extensions := by
  have hread := Extension.readList_encode h.length_extensions_lt []
  rw [List.append_nil] at hread
  have hsame := h.extensions.symm.trans hread
  simp only [Option.some.injEq, Prod.mk.injEq, and_true] at hsame
  exact hsame

end Certificate.Fields.OfTemplate

-- =============================================================== meanings

namespace Extension

/-- What an extension says. -/
inductive Meaning where
  | names (names : List AlternativeName)
  /-- The places of the bits that are set. -/
  | usages (places : List Nat)
  | purposes (purposes : List ObjectId)
  | keyId (id : Bytes)
  | authority (isAuthority : Bool) (path : Option Nat)
  deriving DecidableEq

/-- The places of the bits that are set, counted from the highest bit of the
first byte. -/
def places (bits : Bytes) : List Nat :=
  (List.range (8 * bits.length)).filter fun i => (bits.getD (i / 8) 0).toNat.testBit (7 - i % 8)

/-- What an extension says, if it is of a kind that certificates are issued with. -/
def meaning? (e : Extension) : Option Meaning :=
  if e.id = ExtensionId.alternativeNames then
    (Strict.whole? (readItems AlternativeName.read) e.value).map .names
  else if e.id = ExtensionId.keyUsage then
    (Strict.whole? readBits e.value).map fun bits => .usages (places bits)
  else if e.id = ExtensionId.extendedKeyUsage then
    (Strict.whole? (readItems readObjectId) e.value).map .purposes
  else if e.id = ExtensionId.subjectKeyId then (Strict.whole? readOctets e.value).map .keyId
  else if e.id = ExtensionId.basicConstraints then
    (SigningRequest.Content.constraints? e.value).map fun found => .authority found.1 found.2
  else none

theorem whole?_written {α : Type} {item : Reader α} {a : α} {written : Bytes}
    (h : ∀ rest, item (written ++ rest) = some (a, rest)) :
    Strict.whole? item written = some a := by
  have hread := h []
  rw [List.append_nil] at hread
  rw [Strict.whole?, hread]

/-- Names that requests ask for are the meaning of the extension with them. -/
theorem meaning?_names {critical : Bool} {names : List AlternativeName}
    (hread : ∀ name ∈ names, ∃ e, AlternativeName.ofElement e = .ok name)
    (hhost : ∀ name ∈ names, name.isHost = true)
    (hlen : (Der.sequence (names.filterMap AlternativeName.write?)).length < 2 ^ 64) :
    meaning? ⟨ExtensionId.alternativeNames, critical,
      Der.sequence (names.filterMap AlternativeName.write?)⟩ = some (.names names) := by
  rw [AlternativeName.filterMap_write? hhost] at hlen ⊢
  have hitems := readItems_sequence AlternativeName.read_readsOne hlen fun name hname hshort => by
    obtain ⟨e, he⟩ := hread name hname
    exact AlternativeName.read_written he (hhost name hname) hshort
  unfold meaning?
  rw [if_pos rfl, whole?_written hitems]
  rfl

theorem meaning?_purposes {critical : Bool} {purposes : List ObjectId}
    (hlen : (Der.sequence (purposes.map objectId)).length < 2 ^ 64) :
    meaning? ⟨ExtensionId.extendedKeyUsage, critical, Der.sequence (purposes.map objectId)⟩
      = some (.purposes purposes) := by
  have hitems := readItems_sequence readObjectId_readsOne hlen fun purpose _ hshort =>
    readObjectId_objectId (Nat.lt_trans (length_lt_write _ _) hshort)
  unfold meaning?
  dsimp only
  rw [if_neg (by decide), if_neg (by decide), if_pos rfl, whole?_written hitems]
  rfl

/-- The identifier of a key is the front part of its hash. -/
theorem meaning?_ofKey (publicKey : Bytes) :
    (ofKey publicKey).meaning? = some (.keyId ((sha256 publicKey).take keyIdLength)) := by
  have hlen : ((sha256 publicKey).take keyIdLength).length < 2 ^ 64 :=
    Nat.lt_of_le_of_lt (List.length_take_le _ _) (by decide)
  unfold meaning? ofKey
  dsimp only
  rw [if_neg (by decide), if_neg (by decide), if_neg (by decide), if_pos rfl,
    whole?_written (readOctets_octets hlen)]
  rfl

/-- Whether a certificate is for an authority is read back. -/
theorem meaning?_ofAuthority (isAuthority : Bool) :
    (ofAuthority isAuthority).meaning? = some (.authority isAuthority none) := by
  cases isAuthority <;> decide +kernel

end Extension

-- ============================================================== templates

namespace Template

variable {t : Template} {places : List Nat}

/-- The meanings of the extensions of a template, and whether they are critical. -/
def meanings (t : Template) (places : List Nat) : List (Bool × Option Extension.Meaning) :=
  (if t.names.isEmpty then [] else [(t.subject.isEmpty, some (.names t.names))])
    ++ [(true, some (.usages places))]
    ++ (if t.purposes.isEmpty then [] else [(false, some (.purposes t.purposes))])
    ++ [(false, some (.keyId ((sha256 t.publicKey).take Extension.keyIdLength))),
      (true, some (.authority t.isAuthority none))]

/-- The extensions of a template mean what they were written for. -/
theorem map_meaning?_extensions
    (husage : Extension.meaning? ⟨ExtensionId.keyUsage, true, KeyUsage.encode t.usages⟩
      = some (.usages places))
    (hread : ∀ name ∈ t.names, ∃ e, AlternativeName.ofElement e = .ok name)
    (hhost : ∀ name ∈ t.names, name.isHost = true)
    (hlen : ∀ e ∈ t.extensions, e.value.length < 2 ^ 64) :
    t.extensions.map (fun e => (e.critical, e.meaning?)) = t.meanings places := by
  have hnames : (Extension.ofNames t.subject t.names).map (fun e => (e.critical, e.meaning?))
      = if t.names.isEmpty then [] else [(t.subject.isEmpty, some (.names t.names))] := by
    unfold extensions Extension.ofNames at hlen
    unfold Extension.ofNames
    split
    case isTrue => rfl
    case isFalse hsome =>
      rw [if_neg hsome] at hlen
      have hvalue := hlen _ (List.mem_append_left _ (List.mem_append_left _
        (List.mem_append_left _ (List.mem_singleton_self _))))
      rw [List.map_singleton, Extension.meaning?_names hread hhost hvalue]
  have hpurposes : (if t.purposes.isEmpty then [] else
        [(⟨ExtensionId.extendedKeyUsage, false,
          Der.sequence (t.purposes.map objectId)⟩ : Extension)]).map
          (fun e => (e.critical, e.meaning?))
      = if t.purposes.isEmpty then [] else [(false, some (.purposes t.purposes))] := by
    unfold extensions at hlen
    split
    case isTrue => rfl
    case isFalse hsome =>
      rw [if_neg hsome] at hlen
      have hvalue := hlen _ (List.mem_append_left _ (List.mem_append_right _
        (List.mem_singleton_self _)))
      rw [List.map_singleton, Extension.meaning?_purposes hvalue]
  unfold extensions meanings
  rw [List.map_append, List.map_append, List.map_append, hnames, hpurposes, List.map_singleton,
    husage, List.map_cons, List.map_singleton, Extension.meaning?_ofKey,
    Extension.meaning?_ofAuthority]
  rfl

/-- A template has its usages in one extension, and its names in one if it has any. -/
theorem filter_keyUsage (t : Template) : t.extensions.filter (·.id == ExtensionId.keyUsage)
    = [⟨ExtensionId.keyUsage, true, KeyUsage.encode t.usages⟩] := by
  unfold extensions Extension.ofNames
  split_ifs <;> rfl

/-- Alternative names stand in one extension, or in none. -/
theorem filter_alternativeNames (t : Template) :
    t.extensions.filter (·.id == ExtensionId.alternativeNames)
      = Extension.ofNames t.subject t.names := by
  unfold extensions Extension.ofNames
  split_ifs <;> rfl

end Template

end Enrollment
