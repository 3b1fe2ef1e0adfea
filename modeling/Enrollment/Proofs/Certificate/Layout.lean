/-
How certificates and requests are laid out in their bytes.

Both are a sequence of a part that is signed, an algorithm and a signature, and both are
read from the front of some bytes (`Signed.Format.read`).  What is read so has one layout
(`Signed.Layout.Reads.unique`): a header, the three elements, what is left of the sequence
and what comes behind it; and whatever is laid out so is read (`Signed.Format.read_eq_some_iff`).
Neither of the last two counts for what is read (`Signed.Layout.Reads.refill`), so they may
be any bytes.
-/
import Enrollment.Proofs.Certificate.Readable
import Enrollment.Proofs.SigningRequest.Generate

namespace Enrollment

namespace Der

variable {α β : Type} {read : Reader α} {bs rest : Bytes} {a : α}

-- ================================================================ readers

/-- What is read from some bytes alone is read in front of anything. -/
theorem FindsEnd.append (h : FindsEnd read) {w : Bytes} (hread : read w = some (a, []))
    (other : Bytes) : read (w ++ other) = some (a, other) := by
  obtain ⟨front, hfront, hw⟩ := h w a [] hread
  rw [List.append_nil] at hfront
  subst hfront
  exact hw other

/-- A reader that finds its end reads some bytes alone, and leaves what is behind them. -/
theorem FindsEnd.eq_some_iff (h : FindsEnd read) :
    read bs = some (a, rest) ↔ ∃ w, bs = w ++ rest ∧ read w = some (a, []) := by
  constructor
  · intro hread
    obtain ⟨w, rfl, hw⟩ := h bs a rest hread
    have hnil := hw []
    rw [List.append_nil] at hnil
    exact ⟨w, rfl, hnil⟩
  · rintro ⟨w, rfl, hread⟩
    exact h.append hread rest

/-- What two such readers take off the same bytes is the same. -/
theorem FindsEnd.append_inj (h : FindsEnd read) {w w' rest' : Bytes} {a' : α}
    (hw : read w = some (a, [])) (hw' : read w' = some (a', []))
    (heq : w ++ rest = w' ++ rest') : w = w' ∧ rest = rest' := by
  have hread := h.append hw rest
  rw [heq, h.append hw' rest'] at hread
  cases hread
  exact ⟨List.append_cancel_right heq, rfl⟩

theorem readBits_findsEnd : FindsEnd readBits := readBits_readsOne.findsEnd

-- ================================================================ headers

/-- Bytes that open an element with some tag number and so many bytes of contents. -/
def Opens (number length : Nat) (header : Bytes) : Prop :=
  ∃ tag : Tag, tag.number = number
    ∧ ∀ other, readHeader (header ++ other) = some ((tag, length), other)

variable {number length : Nat} {header contents : Bytes}

/-- An element with a number is a header that opens it and the contents. -/
theorem readNumbered_contents_iff :
    (∃ e, readNumbered number bs = some (e, rest) ∧ e.contents = contents)
      ↔ ∃ header, Opens number contents.length header ∧ bs = header ++ (contents ++ rest) := by
  constructor
  · rintro ⟨e, hread, rfl⟩
    obtain ⟨helement, hnumber⟩ := readNumbered_eq_some hread
    obtain ⟨header, hbytes, -, hheader⟩ := readElement_parts helement
    exact ⟨header, ⟨e.tag, hnumber, hheader⟩, by rw [hbytes, List.append_assoc]⟩
  · rintro ⟨header, ⟨tag, hnumber, hheader⟩, rfl⟩
    refine ⟨⟨tag, contents, taken (header ++ (contents ++ rest)) rest⟩, ?_, rfl⟩
    unfold readNumbered readElement
    simp only [hheader, Option.bind_eq_bind, Option.bind_some, List.take_left, List.drop_left,
      Nat.lt_irrefl, if_false]
    exact if_pos hnumber

/-- An element with a number takes just the bytes that are kept of it. -/
theorem readNumbered_encoded {e : Element} (h : readNumbered number bs = some (e, rest)) :
    bs = e.encoded ++ rest
      ∧ ∀ other, readNumbered number (e.encoded ++ other) = some (e, other) := by
  obtain ⟨header, hbytes, hencoded, -⟩ := readElement_parts (readNumbered_eq_some h).1
  obtain ⟨front, hfront, hread⟩ := (readNumbered_readsOne number).findsEnd _ _ _ h
  have heq : bs = e.encoded ++ rest := by rw [hbytes, hencoded]
  rw [heq] at hfront
  obtain rfl := List.append_cancel_right hfront
  exact ⟨heq, hread⟩

/-- A header is known from the bytes that it stands in front of. -/
theorem Opens.unique {number' length' : Nat} {header' other other' : Bytes}
    (h : Opens number length header) (h' : Opens number' length' header')
    (heq : header ++ other = header' ++ other') :
    header = header' ∧ other = other' ∧ length = length' := by
  obtain ⟨tag, -, hheader⟩ := h
  obtain ⟨tag', -, hheader'⟩ := h'
  have hboth := hheader other
  rw [heq, hheader'] at hboth
  cases hboth
  exact ⟨List.append_cancel_right heq, rfl, rfl⟩

/-- The header that is written opens an element of its length. -/
theorem opens_write (tag : Tag) (htag : tag.number < 31) (hlength : length < 2 ^ 64) :
    Opens tag.number length (tag.byte :: writeLength length) :=
  ⟨tag, rfl, fun other => readHeader_write htag hlength other⟩

end Der

open Der

theorem AlgorithmId.read_findsEnd : FindsEnd AlgorithmId.read := read_readsOne.findsEnd

namespace Signed

-- ================================================================= layout

/-- A kind of thing that is signed: how its signed part is read, and how what was read
takes up the algorithm and the signature. -/
structure Format (α : Type) where
  readPart : Reader α
  signed : α → Signed
  withSignature : α → AlgorithmId → Bytes → α
  /-- What is kept as signed are just the bytes that were read. -/
  content : ∀ {bs a rest}, readPart bs = some (a, rest) →
    bs = (signed a).content ++ rest
      ∧ ∀ other, readPart ((signed a).content ++ other) = some (a, other)
  signed_withSignature : ∀ a algorithm signature,
    signed (withSignature a algorithm signature) = ⟨(signed a).content, algorithm, signature⟩

theorem Format.findsEnd {α : Type} (F : Format α) : FindsEnd F.readPart := by
  intro bs a rest h
  obtain ⟨hbytes, hread⟩ := F.content h
  exact ⟨_, hbytes, hread⟩

/-- How some bytes are laid out. -/
structure Layout where
  header : Bytes
  /-- The element that is signed. -/
  part : Bytes
  algorithm : Bytes
  signature : Bytes
  /-- What is left inside the sequence. -/
  inside : Bytes
  /-- What comes behind the sequence. -/
  behind : Bytes

namespace Layout

def contents (l : Layout) : Bytes := l.part ++ (l.algorithm ++ (l.signature ++ l.inside))

def bytes (l : Layout) : Bytes := l.header ++ (l.contents ++ l.behind)

/-- The layout of the same three elements in a sequence with other bytes left inside it,
and with other bytes behind it. -/
def refill (l : Layout) (inside behind : Bytes) : Layout :=
  { l with
    header :=
      (Tag.compound TagNumber.sequence).byte :: writeLength { l with inside }.contents.length
    inside
    behind }

/-- Nothing is left inside the sequence, and nothing comes behind it. -/
def Exact (l : Layout) : Prop := l.inside = [] ∧ l.behind = []

/-- Something is read from what is laid out: the header opens the sequence, and each of the
three elements is read as a whole. -/
structure Reads {α : Type} (F : Format α) (a : α) (l : Layout) : Prop where
  opens : Opens TagNumber.sequence l.contents.length l.header
  parts : ∃ b id bits, F.readPart l.part = some (b, [])
    ∧ AlgorithmId.read l.algorithm = some (id, []) ∧ readBits l.signature = some (bits, [])
    ∧ F.withSignature b id bits = a

end Layout

namespace Format

variable {α : Type} (F : Format α) {bs rest : Bytes} {a : α}

/-- The three elements in a row. -/
def readParts : Reader α := fun bs => do
  let (b, bs) ← F.readPart bs
  let (algorithm, bs) ← AlgorithmId.read bs
  let (signature, bs) ← readBits bs
  return (F.withSignature b algorithm signature, bs)

/-- A thing of the kind at the front of a byte string. -/
def read : Reader α := readSequence F.readParts

/-- The three elements are read in a row, each as a whole. -/
theorem readParts_eq_some_iff :
    F.readParts bs = some (a, rest)
      ↔ ∃ part algorithm signature, bs = part ++ (algorithm ++ (signature ++ rest))
          ∧ ∃ b id bits, F.readPart part = some (b, []) ∧ AlgorithmId.read algorithm = some (id, [])
            ∧ readBits signature = some (bits, []) ∧ F.withSignature b id bits = a := by
  simp only [readParts, Option.bind_eq_bind]
  constructor
  · intro h
    obtain ⟨⟨b, bs1⟩, hpart, h⟩ := Option.bind_eq_some_iff.1 h
    obtain ⟨⟨id, bs2⟩, halgorithm, h⟩ := Option.bind_eq_some_iff.1 h
    obtain ⟨⟨bits, bs3⟩, hsignature, h⟩ := Option.bind_eq_some_iff.1 h
    cases h
    obtain ⟨part, rfl, hpart'⟩ := F.findsEnd.eq_some_iff.1 hpart
    obtain ⟨algorithm, rfl, halgorithm'⟩ := AlgorithmId.read_findsEnd.eq_some_iff.1 halgorithm
    obtain ⟨signature, rfl, hsignature'⟩ := readBits_findsEnd.eq_some_iff.1 hsignature
    exact ⟨part, algorithm, signature, rfl, b, id, bits, hpart', halgorithm', hsignature', rfl⟩
  · rintro ⟨part, algorithm, signature, rfl, b, id, bits, hpart, halgorithm, hsignature, rfl⟩
    rw [F.findsEnd.append hpart, Option.bind_some, AlgorithmId.read_findsEnd.append halgorithm,
      Option.bind_some, readBits_findsEnd.append hsignature]
    rfl

/-- What is read is what is laid out, and what is behind it is left. -/
theorem read_eq_some_iff :
    F.read bs = some (a, rest) ↔ ∃ l : Layout, l.Reads F a ∧ l.bytes = bs ∧ l.behind = rest := by
  simp only [read, readSequence, readInside, Option.bind_eq_bind]
  constructor
  · intro h
    obtain ⟨⟨e, rest⟩, hsequence, h⟩ := Option.bind_eq_some_iff.1 h
    obtain ⟨⟨a, inside⟩, hparts, h⟩ := Option.bind_eq_some_iff.1 h
    cases h
    obtain ⟨header, hopens, hbytes⟩ := readNumbered_contents_iff.1 ⟨e, hsequence, rfl⟩
    obtain ⟨part, algorithm, signature, hcontents, hreads⟩ := F.readParts_eq_some_iff.1 hparts
    rw [hcontents] at hopens hbytes
    exact ⟨⟨header, part, algorithm, signature, inside, rest⟩, ⟨hopens, hreads⟩, hbytes.symm, rfl⟩
  · rintro ⟨l, ⟨hopens, hreads⟩, rfl, rfl⟩
    obtain ⟨e, hsequence, hcontents⟩ := readNumbered_contents_iff.2 ⟨l.header, hopens, rfl⟩
    have hparts := F.readParts_eq_some_iff.2 ⟨_, _, _, hcontents, hreads⟩
    show (readNumbered TagNumber.sequence l.bytes).bind _ = _
    rw [Layout.bytes, hsequence, Option.bind_some, hparts]
    rfl

end Format

namespace Layout.Reads

variable {α : Type} {F : Format α} {a a' : α} {l l' : Layout}

/-- Some bytes are laid out in one way. -/
theorem unique (h : l.Reads F a) (h' : l'.Reads F a') (heq : l.bytes = l'.bytes) : l = l' := by
  obtain ⟨header, part, algorithm, signature, inside, behind⟩ := l
  obtain ⟨header', part', algorithm', signature', inside', behind'⟩ := l'
  obtain ⟨hopens, b, id, bits, hpart, halgorithm, hsignature, -⟩ := h
  obtain ⟨hopens', b', id', bits', hpart', halgorithm', hsignature', -⟩ := h'
  obtain ⟨rfl, hrest, hlength⟩ := hopens.unique hopens' heq
  obtain ⟨hcontents, rfl⟩ := List.append_inj hrest hlength
  obtain ⟨rfl, hcontents⟩ := F.findsEnd.append_inj hpart hpart' hcontents
  obtain ⟨rfl, hcontents⟩ := AlgorithmId.read_findsEnd.append_inj halgorithm halgorithm' hcontents
  obtain ⟨rfl, rfl⟩ := readBits_findsEnd.append_inj hsignature hsignature' hcontents
  rfl

/-- What is left inside the sequence and what comes behind it do not count. -/
theorem refill (h : l.Reads F a) {inside behind : Bytes}
    (hlength : (l.refill inside behind).contents.length < 2 ^ 64) :
    (l.refill inside behind).Reads F a :=
  ⟨opens_write (.compound TagNumber.sequence) (by decide) hlength, h.parts⟩

/-- What is signed is the first of the three elements, with what the others say. -/
theorem signed (h : l.Reads F a) : (F.signed a).content = l.part
    ∧ AlgorithmId.read l.algorithm = some ((F.signed a).algorithm, [])
    ∧ readBits l.signature = some ((F.signed a).signature, []) := by
  obtain ⟨b, id, bits, hpart, halgorithm, hsignature, rfl⟩ := h.parts
  have hcontent : l.part = (F.signed b).content := by
    rw [(F.content hpart).1, List.append_nil]
  rw [F.signed_withSignature]
  exact ⟨hcontent.symm, halgorithm, hsignature⟩

/-- What is laid out is read. -/
theorem map_read (h : l.Reads F a) : (F.read l.bytes).map (·.1) = some a := by
  rw [F.read_eq_some_iff.2 ⟨l, h, rfl, rfl⟩]
  rfl

end Layout.Reads

/-- Some bytes are laid out in some way, with what is read from them in it. -/
structure Layout.IsOf {α : Type} (F : Format α) (a : α) (der : Bytes) (l : Layout) : Prop where
  reads : l.Reads F a
  bytes : l.bytes = der

theorem Layout.IsOf.read_eq {α : Type} {F : Format α} {a : α} {der : Bytes} {l : Layout}
    (h : l.IsOf F a der) : F.read der = some (a, l.behind) :=
  F.read_eq_some_iff.2 ⟨l, h.reads, h.bytes, rfl⟩

/-- What reading leaves is what comes behind. -/
theorem Layout.IsOf.behind_eq {α : Type} {F : Format α} {a : α} {der rest : Bytes} {l : Layout}
    (h : l.IsOf F a der) (hrest : (F.read der).map (·.2) = some rest) : l.behind = rest := by
  rw [h.read_eq] at hrest
  exact Option.some.inj hrest

/-- Bytes from which something is read are laid out in one way. -/
theorem Format.existsUnique_isOf {α : Type} (F : Format α) {a : α} {der : Bytes}
    (h : (F.read der).map (·.1) = some a) : ∃! l : Layout, l.IsOf F a der := by
  obtain ⟨⟨a, rest⟩, hread, rfl⟩ := Option.map_eq_some_iff.1 h
  obtain ⟨l, hreads, hbytes, -⟩ := F.read_eq_some_iff.1 hread
  refine ⟨l, ⟨hreads, hbytes⟩, fun l' hl' => ?_⟩
  exact hl'.reads.unique hreads (hl'.bytes.trans hbytes.symm)

end Signed

-- ============================================================ certificates

namespace Certificate

/-- The signed part of a certificate is what it keeps as signed, whatever follows. -/
theorem Fields.content_of_readSignedPart {bs rest : Bytes} {f : Fields}
    (h : readSignedPart bs = some (f, rest)) :
    bs = f.signed.content ++ rest
      ∧ ∀ other, readSignedPart (f.signed.content ++ other) = some (f, other) := by
  obtain ⟨part, hpart, hin⟩ := readSignedPart_eq_some_iff.1 h
  obtain ⟨hbytes, hread⟩ := readNumbered_encoded hpart
  rw [hin.signed]
  -- the fields were read inside the part, so what comes behind it does not matter
  exact ⟨hbytes, fun other => readSignedPart_eq_some_iff.2 ⟨part, hread other, hin⟩⟩

/-- Certificates, as a kind of thing that is signed. -/
def format : Signed.Format Fields where
  readPart := Fields.readSignedPart
  signed := Fields.signed
  withSignature := Fields.withSignature
  content := Fields.content_of_readSignedPart
  signed_withSignature _ _ _ := rfl

/-- The bytes of a certificate are laid out in some way. -/
def Laid (c : Certificate) (l : Signed.Layout) : Prop := l.IsOf format c.fields c.der

/-- A certificate is laid out in one way. -/
theorem existsUnique_laid (c : Certificate) : ∃! l, c.Laid l :=
  format.existsUnique_isOf c.read_der

/-- Whatever is laid out as a certificate and is not too large is one. -/
theorem exists_laid {l : Signed.Layout} {f : Fields} (h : l.Reads format f)
    (hlength : l.bytes.length ≤ Limits.certificateSize) :
    ∃ c, ofDer l.bytes = .ok c ∧ c.fields = f ∧ c.Laid l := by
  let c : Certificate := ⟨l.bytes, f, hlength, h.map_read⟩
  exact ⟨c, ofDer_der c, rfl, h, rfl⟩

end Certificate

-- ================================================================ requests

namespace SigningRequest

theorem Fields.content_of_readSignedPart {bs rest : Bytes} {f : Fields}
    (h : readSignedPart bs = some (f, rest)) :
    bs = f.signed.content ++ rest
      ∧ ∀ other, readSignedPart (f.signed.content ++ other) = some (f, other) := by
  obtain ⟨part, hpart, hin⟩ := readSignedPart_eq_some_iff.1 h
  obtain ⟨hbytes, hread⟩ := readNumbered_encoded hpart
  rw [hin.signed]
  exact ⟨hbytes, fun other => readSignedPart_eq_some_iff.2 ⟨part, hread other, hin⟩⟩

/-- Requests for certificates, as a kind of thing that is signed. -/
def format : Signed.Format Fields where
  readPart := Fields.readSignedPart
  signed := Fields.signed
  withSignature := Fields.withSignature
  content := Fields.content_of_readSignedPart
  signed_withSignature _ _ _ := rfl

/-- The bytes of a request are laid out in some way. -/
def Laid (r : SigningRequest) (l : Signed.Layout) : Prop := l.IsOf format r.fields r.der

theorem existsUnique_laid (r : SigningRequest) : ∃! l, r.Laid l :=
  format.existsUnique_isOf r.read_der

/-- Whatever is laid out as a request is read from its block, if that is not too large. -/
theorem exists_laid {l : Signed.Layout} {f : Fields} (h : l.Reads format f)
    (hlength : 4 * l.bytes.length + 82 ≤ Limits.certificateSize) :
    ∃ r, ofPem (Pem.encode .lf ⟨blockTag, l.bytes⟩) = .ok r ∧ r.fields = f ∧ r.Laid l :=
  ⟨_, ofPem_block h.map_read (size_block_le hlength), rfl, h, rfl⟩

end SigningRequest

end Enrollment
