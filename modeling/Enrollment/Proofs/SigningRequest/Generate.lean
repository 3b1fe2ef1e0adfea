/-
Requests that were made: what was asked for is read back.

The extension with the alternative names is wrapped in an attribute, which is
looked into again when the request is read (`readAttributes?_written`).  So the
fields of a request that was made are known one by one (`exists_read_sign`), what
is carried over from it is what it was made of (`Made.content`), and it is signed
with the key it carries (`verifySignature_of_made`).
-/
import Enrollment.Proofs.Authority.Basic
import Enrollment.Proofs.Certificate.Readable
import Enrollment.Proofs.Name.Written
import Enrollment.Proofs.SigningRequest.Basic
import Enrollment.Proofs.SigningRequest.Content
import Enrollment.SigningRequest.Generate

namespace Enrollment.SigningRequest

open Der

-- ============================================================= attributes

namespace Fields

/-- The attribute that asks for extensions. -/
def demand (es : List Extension) : Bytes :=
  Der.sequence [objectId extensionRequest, singleton (Der.sequence (es.map Extension.encode))]

theorem readAttribute_demand {es : List Extension} (hlen : (demand es).length < 2 ^ 64)
    (rest : Bytes) : readAttribute (demand es ++ rest) = some (some es, rest) := by
  have htype := Nat.lt_trans (length_lt_write (.primitive TagNumber.objectId)
    extensionRequest.contents) (Nat.lt_trans (length_lt_sequence List.mem_cons_self) hlen)
  have hset := Nat.lt_trans (length_lt_write (.compound TagNumber.set)
    (Der.sequence (es.map Extension.encode))) (Nat.lt_trans (length_lt_sequence
      (List.mem_cons_of_mem _ List.mem_cons_self)) hlen)
  have hheader : readHeader (Der.singleton (Der.sequence (es.map Extension.encode)))
      = some ((.compound TagNumber.set, _), Der.sequence (es.map Extension.encode)) :=
    readHeader_write (t := .compound TagNumber.set) (by decide) hset _
  have hlist := Extension.readList_encode hset []
  rw [List.append_nil] at hlist
  unfold readAttribute demand
  rw [readSequence_sequence _ (Nat.lt_trans (length_lt_write _ _) hlen)]
  simp only [List.flatten_cons, List.flatten_nil, List.append_nil, readObjectId_objectId htype,
    hheader, hlist, Option.bind_eq_bind, Option.bind_some]
  rfl

/-- Extensions are asked for if there are any. -/
theorem attributesOf_eq (entries : Entries) (names : List AlternativeName) :
    attributesOf entries names = if (Extension.ofNames entries names).isEmpty then []
      else demand (Extension.ofNames entries names) := by
  unfold attributesOf demand
  cases Extension.ofNames entries names <;> rfl

theorem length_value_lt {entries : Entries} {names : List AlternativeName} {e : Extension}
    (h : e ∈ Extension.ofNames entries names) :
    e.value.length < (attributesOf entries names).length := by
  have hsome : (Extension.ofNames entries names).isEmpty = false :=
    List.isEmpty_eq_false_iff.2 (List.ne_nil_of_mem h)
  rw [attributesOf_eq, hsome]
  calc e.value.length < e.encode.length := e.length_value_lt
    _ < (Der.sequence ((Extension.ofNames entries names).map Extension.encode)).length :=
      length_lt_sequence (List.mem_map_of_mem h)
    _ < (singleton (Der.sequence ((Extension.ofNames entries names).map Extension.encode))).length :=
      length_lt_write _ _
    _ < (demand (Extension.ofNames entries names)).length :=
      length_lt_sequence (List.mem_cons_of_mem _ List.mem_cons_self)

/-- The attributes are read, and the extensions that are asked for are found in them. -/
theorem readAttributes?_written (entries : Entries) (names : List AlternativeName)
    (hlen : (tagged 0 (attributesOf entries names)).length < 2 ^ 64) :
    ∃ attributes, readAttributes? (tagged 0 (attributesOf entries names)) = some attributes
      ∧ (attributes.filterMap id).head?.getD [] = Extension.ofNames entries names := by
  have hcontents := Nat.lt_trans (length_lt_write _ _) hlen
  have hheader : readHeader (tagged 0 (attributesOf entries names))
      = some ((.context 0 true, _), attributesOf entries names) :=
    readHeader_write (t := .context 0 true) (by decide) hcontents _
  unfold readAttributes?
  simp only [hheader, Option.bind_eq_bind, Option.bind_some]
  rw [attributesOf_eq] at hcontents ⊢
  cases hextensions : Extension.ofNames entries names with
  | nil => exact ⟨[], rfl, rfl⟩
  | cons e es =>
    rw [hextensions] at hcontents
    have hread : readAll readAttribute
        ([some (e :: es)].map fun found => demand (found.getD [])).flatten
          = some [some (e :: es)] := by
      refine readAll_written (readSequence_readsOne _).nil fun found hfound rest => ?_
      obtain rfl := List.mem_singleton.1 hfound
      exact readAttribute_demand hcontents rest
    rw [List.map_singleton, List.flatten_singleton] at hread
    exact ⟨[some (e :: es)], hread, rfl⟩

-- ================================================================= fields

/-- What is known of the fields of a request that was made. -/
structure Made (f : Fields) (entries : Entries) (names : List AlternativeName) (key : KeyPair) :
    Prop where
  subject : ∃ encoded, f.subject = ⟨entries.map fun e => [e.attribute], encoded⟩
  publicKey : f.publicKey = ⟨key.kind.keyAlgorithm, key.publicKey, key.encodedPublic⟩
  extensions : f.extensions = Extension.ofNames entries names
  length_value_lt : ∀ e ∈ f.extensions, e.value.length < 2 ^ 64

variable {entries : Entries} {names : List AlternativeName} {key : KeyPair}

theorem readSmallNat_zero (rest : Bytes) : readSmallNat (natural 0 ++ rest) = some (0, rest) := by
  have hread : readPrimitive TagNumber.integer (natural 0 ++ rest)
      = some (⟨.primitive TagNumber.integer, [0], natural 0⟩, rest) :=
    readPrimitive_write (by decide) (by decide) rest
  unfold readSmallNat
  rw [hread]
  rfl

/-- The part of a request that is signed is read as what it was made of. -/
theorem exists_readSignedPart {part : Bytes} (hpart : signedPart? entries names key = some part)
    (hlen : part.length < 2 ^ 64) :
    ∃ f : Fields, f.Made entries names key ∧ f.signed.content = part
      ∧ ∀ rest, readSignedPart (part ++ rest) = some (f, rest) := by
  simp only [signedPart?, Option.bind_eq_bind] at hpart
  obtain ⟨encoded, hsubject, hpart⟩ := Option.bind_eq_some_iff.1 hpart
  cases hpart
  -- each of the four parts is shorter than the whole, and so can be read
  have hparts : ∀ p ∈ [natural 0, encoded, key.encodedPublic, tagged 0 (attributesOf entries names)],
      p.length < 2 ^ 64 := fun p hp => Nat.lt_trans (length_lt_sequence hp) hlen
  simp only [List.mem_cons, List.not_mem_nil, or_false, forall_eq_or_imp, forall_eq] at hparts
  obtain ⟨-, hsubjectLen, hkeyLen, hattributesLen⟩ := hparts
  obtain ⟨attributes, hattributes, hextensions⟩ :=
    readAttributes?_written entries names hattributesLen
  have hpublic : ∀ rest, PublicKeyInfo.read (key.encodedPublic ++ rest)
      = some (⟨key.kind.keyAlgorithm, key.publicKey, key.encodedPublic⟩, rest) :=
    KeyKind.encodePublic_read hkeyLen
  refine ⟨{
    version := 0, subject := ⟨entries.map fun e => [e.attribute], encoded⟩,
    publicKey := ⟨key.kind.keyAlgorithm, key.publicKey, key.encodedPublic⟩,
    extensions := Extension.ofNames entries names,
    signed := ⟨Der.sequence [natural 0, encoded, key.encodedPublic,
      tagged 0 (attributesOf entries names)], key.kind.keyAlgorithm, []⟩ },
    ⟨⟨encoded, rfl⟩, rfl, rfl, ?_⟩, rfl, fun rest => ?_⟩
  · intro e he
    exact Nat.lt_trans (length_value_lt he) (Nat.lt_trans (length_lt_write _ _) hattributesLen)
  · unfold readSignedPart
    rw [readNumbered_sequence (Nat.lt_trans (length_lt_write _ _) hlen)]
    simp only [List.flatten_cons, List.flatten_nil, List.append_nil, readSmallNat_zero,
      Entries.read_of_write? hsubject hsubjectLen, hpublic, hattributes, hextensions,
      Option.bind_eq_bind, Option.bind_some]
    rfl

def withSignature (f : Fields) (algorithm : AlgorithmId) (signature : Bytes) : Fields :=
  { f with signed := { f.signed with algorithm, signature } }

/-- A request that was made is read as what it was made of, with a signature of its own
key. -/
theorem exists_read_sign [Signatures] {der : Bytes} (hsign : sign? entries names key = some der)
    (hlen : der.length < 2 ^ 64) :
    ∃ f : Fields, f.Made entries names key ∧ read der = some (f, [])
      ∧ f.signed = ⟨f.signed.content, key.kind.signatureAlgorithm, key.sign f.signed.content⟩ := by
  simp only [sign?, Option.bind_eq_bind] at hsign
  obtain ⟨part, hpart, hder⟩ := Option.bind_eq_some_iff.1 hsign
  cases hder
  obtain ⟨f, hmade, hcontent, hread⟩ := exists_readSignedPart hpart
    (Nat.lt_trans (length_lt_sequence List.mem_cons_self) hlen)
  refine ⟨f.withSignature key.kind.signatureAlgorithm (key.sign part),
    ⟨hmade.subject, hmade.publicKey, hmade.extensions, hmade.length_value_lt⟩,
    Signed.read_sequence withSignature hread hlen, ?_⟩
  unfold withSignature
  dsimp only
  rw [hcontent]

-- ================================================================ content

variable {f : Fields}

/-- The extension for plain names is granted, and the names are what it asks for. -/
theorem mapM_namesOf_ofNames (h : ∀ name ∈ names, name.IsPlain)
    (hlen : ∀ e ∈ Extension.ofNames entries names, e.value.length < 2 ^ 64) :
    ∃ parts, (Extension.ofNames entries names).mapM Content.namesOf = .ok parts
      ∧ parts.flatten = names := by
  unfold Extension.ofNames at hlen ⊢
  split
  case isTrue hempty =>
    rw [List.isEmpty_iff.1 hempty]
    exact ⟨[], rfl, rfl⟩
  case isFalse hsome =>
    rw [if_neg hsome] at hlen
    have hread := AlternativeName.readElements?_written h (hlen _ List.mem_cons_self)
    have hgranted : Content.namesOf ⟨ExtensionId.alternativeNames, entries.isEmpty,
        Der.sequence (names.filterMap AlternativeName.write?)⟩ = .ok names := by
      unfold Content.namesOf
      dsimp only
      rw [if_pos rfl, hread]
      exact AlternativeName.mapM_ofElement_element h
    refine ⟨[names], ?_, List.append_nil names⟩
    rw [List.mapM_cons, hgranted]
    rfl

theorem keyKindOf_signatureAlgorithm (kind : KeyKind) :
    Content.keyKindOf kind.signatureAlgorithm.algorithm = .ok kind := by
  cases kind with
  | ec curve => cases curve <;> decide +kernel
  | ed25519 => decide +kernel
  | rsa => decide +kernel

/-- What is carried over from a request is what it was made of. -/
theorem Made.content (h : f.Made entries names key)
    (halgorithm : f.signed.algorithm = key.kind.signatureAlgorithm)
    (hentries : entries.OfTexts) (hnames : ∀ name ∈ names, name.IsPlain) :
    Content.ofFields f = .ok ⟨entries, names, key.kind, key.publicKey⟩ := by
  obtain ⟨encoded, hsubject⟩ := h.subject
  have hlen := h.length_value_lt
  rw [h.extensions] at hlen
  obtain ⟨parts, hparts, hflatten⟩ := mapM_namesOf_ofNames hnames hlen
  unfold Content.ofFields
  rw [halgorithm, keyKindOf_signatureAlgorithm, hsubject,
    (hentries.spells encoded).entries, h.extensions, hparts, h.publicKey]
  rw [← hflatten]
  rfl

end Fields

-- ================================================================= making

variable [Signatures] {entries : Entries} {names : List AlternativeName} {key : KeyPair}

/-- The text of a request that is made; none when a type in its name cannot be
written. -/
def text? (entries : Entries) (names : List AlternativeName) (key : KeyPair) : Option String :=
  (sign? entries names key).map fun der => Pem.encode .lf ⟨blockTag, der⟩

/-- The text is not too large if the bytes in it are not. -/
theorem size_text?_le
    (hlength : (sign? entries names key).all (fun der => 4 * der.length + 82 ≤ 16384) = true)
    (text : String) (h : text? entries names key = some text) :
    Utf8.size text ≤ Limits.certificateSize := by
  obtain ⟨der, hder, rfl⟩ := Option.map_eq_some_iff.1 h
  rw [hder] at hlength
  exact size_block_le (of_decide_eq_true hlength)

/-- A request whose name can be written can be signed. -/
theorem exists_sign? (h : ∀ e ∈ entries, e.Spelled) (names : List AlternativeName)
    (key : KeyPair) : ∃ der, sign? entries names key = some der := by
  obtain ⟨encoded, hencoded⟩ := Entries.exists_write? h
  unfold sign? signedPart?
  rw [hencoded]
  exact ⟨_, rfl⟩

/-- What goes into a request that is made from texts. -/
theorem generate_eq_ok_iff {dn : String} {texts : List String} {r : SigningRequest} :
    generate dn texts key = .ok r
      ↔ ∃ names entries der, AlternativeName.ofTexts texts = .ok names
        ∧ Name.Written.parse dn = .ok entries ∧ sign? entries names key = some der
        ∧ ofPem (Pem.encode .lf ⟨blockTag, der⟩) = .ok r := by
  unfold generate
  constructor
  · intro h
    obtain ⟨names, hnames, h⟩ := bind_eq_ok h
    obtain ⟨entries, hentries, h⟩ := bind_eq_ok h
    split at h
    case h_1 der hsign =>
      exact ⟨names, entries, der, mapError_eq_ok (Halt.lift_eq_ok hnames),
        Halt.lift_eq_ok hentries, hsign, Halt.lift_eq_ok h⟩
    case h_2 => cases h
  · rintro ⟨names, entries, der, hnames, hentries, hsign, hread⟩
    rw [hnames, hentries]
    simp only [Except.mapError, Halt.lift, bind, Except.bind, hsign]
    rw [← blockTag, hread]

/-- The text of a request that was signed is read as the request it was made to be, if it
is not too large. -/
theorem exists_ofPem_sign {der : Bytes} (hsign : sign? entries names key = some der)
    (hsize : Utf8.size (Pem.encode .lf ⟨blockTag, der⟩) ≤ Limits.certificateSize) :
    ∃ r : SigningRequest, ofPem (Pem.encode .lf ⟨blockTag, der⟩) = .ok r
      ∧ r.fields.Made entries names key
      ∧ r.fields.signed = ⟨r.fields.signed.content, key.kind.signatureAlgorithm,
          key.sign r.fields.signed.content⟩ := by
  have htag : ∀ c ∈ blockTag.toList, c.toNat < 0x80 := Utf8.ascii_of_all (by decide +kernel)
  have hlen : der.length ≤ Limits.certificateSize :=
    Nat.le_trans (Pem.length_contents_le (p := ⟨blockTag, der⟩) htag .lf) hsize
  obtain ⟨f, hmade, hread, hsigned⟩ :=
    Fields.exists_read_sign hsign (Nat.lt_of_le_of_lt hlen (by decide))
  have hfields : (Fields.read der).map (·.1) = some f := by
    rw [hread]
    rfl
  exact ⟨_, ofPem_block hfields hsize, hmade, hsigned⟩

/-- A request is made of a written name and of texts that can be given as names, if its
text is not too large. -/
theorem exists_generate {dn : String} {texts : List String}
    (hdn : Name.Written.parse dn = .ok entries)
    (htexts : ∀ text ∈ texts, AlternativeName.IsGivable text)
    (hsize : ∀ text, text? entries (texts.map AlternativeName.meant) key = some text →
      Utf8.size text ≤ Limits.certificateSize) :
    ∃ r : SigningRequest, generate dn texts key = .ok r
      ∧ r.fields.Made entries (texts.map AlternativeName.meant) key
      ∧ r.fields.signed = ⟨r.fields.signed.content, key.kind.signatureAlgorithm,
          key.sign r.fields.signed.content⟩ := by
  obtain ⟨der, hsign⟩ := exists_sign? (Name.Written.ofTexts_of_parse hdn).spelled
    (texts.map AlternativeName.meant) key
  obtain ⟨r, hread, hmade⟩ := exists_ofPem_sign hsign (hsize _ (by rw [text?, hsign]; rfl))
  exact ⟨r, generate_eq_ok_iff.2
    ⟨_, entries, der, AlternativeName.ofTexts_eq htexts, hdn, hsign, hread⟩, hmade⟩

/-- What comes of making a request carries the key it was made with. -/
theorem publicKey_of_generate {dn : String} {texts : List String} {r : SigningRequest}
    (h : generate dn texts key = .ok r) : r.publicKey = key.encodedPublic := by
  obtain ⟨names, entries, der, -, -, hsign, hread⟩ := generate_eq_ok_iff.1 h
  have hsize : Utf8.size (Pem.encode .lf ⟨blockTag, der⟩) ≤ Limits.certificateSize := by
    rw [← pem_of_ofPem hread]
    exact r.pem_size_le
  obtain ⟨made, hmade, hfields, -⟩ := exists_ofPem_sign hsign hsize
  rw [← Except.ok.inj (hmade.symm.trans hread)]
  show made.fields.publicKey.encoded = _
  rw [hfields.publicKey]

/-- A request that was made is signed with the key it carries. -/
theorem verifySignature_of_made {r : SigningRequest} (hmade : r.fields.Made entries names key)
    (hsigned : r.fields.signed = ⟨r.fields.signed.content, key.kind.signatureAlgorithm,
      key.sign r.fields.signed.content⟩)
    (hsound : key.secret.Sound) (hpair : key.IsPair) : r.verifySignature = .ok () := by
  have hverified := Signed.verify_sign (k := r.fields.publicKey) hsound hpair
    (by rw [hmade.publicKey]) (by rw [hmade.publicKey]) r.fields.signed.content
  rw [verifySignature, hsigned, hverified]
  rfl

end Enrollment.SigningRequest
