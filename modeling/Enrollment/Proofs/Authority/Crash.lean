/-
Crashes: when making a certificate breaks down instead of failing.

Two things are not looked at before they are too late: that a time of validity ends by the
year 9999, and that a type of attribute can be written as it was read.  Nothing else
breaks down, so it can be said in terms of what is given when a certificate is made, when
it is refused with a failure, and when there is no answer at all (`crashed_iff`).  Any
number of days but zero is accepted for a signer, and with most of them it answers no
request that is in order (`crash_of_long_validity`).
-/
import Enrollment.Proofs.Authority.Coherence
import Enrollment.Proofs.Authority.Period
import Enrollment.Proofs.Name.Remaining

namespace Enrollment

open Der

-- ================================================================== types

namespace Der.ObjectId

/-- An identifier that is read and cannot be written: it is empty, a zero byte alone, or
begins with arcs that no identifier has. -/
def IsStray (id : ObjectId) : Prop :=
  id.contents = [] ∨ id.contents = [0] ∨ ∃ b ∈ id.contents.head?, 120 ≤ b.toNat

instance (id : ObjectId) : Decidable id.IsStray :=
  inferInstanceAs (Decidable (_ ∨ _ ∨ _))

/-- A type can be written if its first two arcs are within their bounds. -/
theorem isSome_ofArcs?_cons (first second : Nat) (rest : List Nat) :
    (ofArcs? (first :: second :: rest)).isSome ↔ first ≤ 2 ∧ (first < 2 → second < 40) := by
  by_cases h : 2 < first ∨ (first < 2 ∧ 40 ≤ second)
  · have hnone : ofArcs? (first :: second :: rest) = none := if_pos h
    rw [hnone]
    exact ⟨fun h => (nomatch h), fun h' => absurd h (by omega)⟩
  · have hsome : ofArcs? (first :: second :: rest) = some _ := if_neg h
    rw [hsome]
    exact ⟨fun _ => by omega, fun _ => rfl⟩

/-- An identifier whose first arc is that of its first byte. -/
theorem isSome_ofArcs?_byte (b : UInt8) (rest : List Nat) :
    (ofArcs? (b.toNat / 40 :: b.toNat % 40 :: rest)).isSome ↔ b.toNat < 120 := by
  rw [isSome_ofArcs?_cons]
  omega

/-- Whatever is read and not stray can be written. -/
theorem isSome_ofArcs?_iff {id : ObjectId} {arcs : List Nat} (h : id.arcs? = some arcs) :
    (ofArcs? arcs).isSome ↔ ¬id.IsStray := by
  obtain ⟨contents⟩ := id
  unfold IsStray
  cases contents with
  | nil =>
    cases h
    have hnone : ofArcs? [] = none := rfl
    rw [hnone]
    simp
  | cons b rest =>
    have hstray : (b :: rest = [] ∨ b :: rest = [0] ∨ ∃ c ∈ (b :: rest).head?, 120 ≤ c.toNat)
        ↔ b :: rest = [0] ∨ 120 ≤ b.toNat := by
      simp
    dsimp only
    rw [hstray]
    -- one byte alone is read in another way than the first of several
    cases rest with
    | nil =>
      simp only [arcs?] at h
      split at h
      case isTrue hzero =>
        cases h
        have hnone : ofArcs? [0] = none := rfl
        rw [hnone, hzero]
        simp
      case isFalse hpos =>
        cases h
        rw [isSome_ofArcs?_byte]
        simp [hpos]
    | cons c rest =>
      simp only [arcs?] at h
      obtain ⟨numbers, -, h⟩ := Option.bind_eq_some_iff.1 h
      cases h
      rw [isSome_ofArcs?_byte]
      simp

end Der.ObjectId

-- ================================================================= names

namespace Entries

theorem isSome_writeSet?_iff {e : Entry} :
    (writeSet? e).isSome ↔ (ObjectId.ofArcs? e.type).isSome := by
  unfold writeSet?
  cases ObjectId.ofArcs? e.type <;> rfl

/-- A name can be written if all its types can. -/
theorem isSome_write?_iff {es : Entries} :
    es.write?.isSome ↔ ∀ type ∈ es.map (·.type), (ObjectId.ofArcs? type).isSome := by
  have hall : es.write?.isSome ↔ (es.mapM writeSet?).isSome := by
    rw [write?]
    cases es.mapM writeSet? <;> rfl
  rw [hall, isSome_mapM_iff, List.forall_mem_map]
  exact forall₂_congr fun e _ => isSome_writeSet?_iff

/-- A name that was taken apart can be written if none of its types is stray. -/
theorem isSome_write?_iff_of_ofName {n : Name} {es : Entries} (h : ofName n = .ok es) :
    es.write?.isSome ↔ ∀ a ∈ n.attributes, ¬a.type.IsStray := by
  obtain ⟨sets, encoded⟩ := n
  obtain ⟨as, found, rfl, hall, rfl⟩ := ofSets_eq_ok h
  rw [Name.attributes_singletons, isSome_write?_iff, types_putAll]
  simp only [List.mem_eraseDups]
  rw [List.forall_mem_map]
  clear h
  induction hall with
  | nil => simp
  | cons hgives _ ih =>
    rw [List.forall_mem_cons, List.forall_mem_cons, ih, ObjectId.isSome_ofArcs?_iff hgives.type]

end Entries

-- ================================================================ failing

/-- What fails does not break down. -/
theorem Halt.lift_ne_crashed {α : Type} {x : Except Failure α} {crash : Crash} :
    Halt.lift x ≠ .error (.crashed crash) := by
  cases x with
  | error failure => exact fun h => (nomatch h)
  | ok a => exact fun h => (nomatch h)

/-- Behind a step that can only fail, what breaks down is the next one. -/
theorem Halt.lift_bind_eq_crashed {α β : Type} {x : Except Failure α} {f : α → Except Halt β}
    {crash : Crash} (h : (Halt.lift x >>= f) = .error (.crashed crash)) :
    ∃ a, x = .ok a ∧ f a = .error (.crashed crash) := by
  rcases bind_eq_error h with hfailed | ⟨a, ha, h⟩
  · exact absurd hfailed Halt.lift_ne_crashed
  · exact ⟨a, Halt.lift_eq_ok ha, h⟩

-- ================================================================ issuing

namespace Signer

variable [Signatures] {s : Signer} {request : SigningRequest} {now : Time.Instant}
  {serial : Bytes} {crash : Crash}

/-- Some type of attribute in the subject of the request or of the authority is stray. -/
def HasStray (s : Signer) (request : SigningRequest) : Prop :=
  ∃ a ∈ s.authority.certificate.fields.subject.attributes ++ request.fields.subject.attributes,
    a.type.IsStray

/-- When a signer breaks down: the request is in order, and either its time of validity
does not end by the year 9999, or it does and a name cannot be written. -/
inductive Breaks (s : Signer) (request : SigningRequest) (now : Time.Instant) : Crash → Prop
  | late {content : SigningRequest.Content} (hsignature : request.verifySignature = .ok ())
      (hcontent : SigningRequest.Content.ofFields request.fields = .ok content)
      (hlate : Time.lastSecond < now.seconds + 86400 * s.days) :
      Breaks s request now .dateOutOfRange
  | stray {content : SigningRequest.Content} {issuer : Entries}
      (hsignature : request.verifySignature = .ok ())
      (hcontent : SigningRequest.Content.ofFields request.fields = .ok content)
      (hdate : now.seconds + 86400 * s.days ≤ Time.lastSecond)
      (hissuer : issuerEntries s.authority.certificate = .ok issuer)
      (hstray : s.HasStray request) :
      Breaks s request now .objectIdOutOfRange

/-- A certificate cannot be signed only for a stray type. -/
theorem sign?_eq_none_iff {content : SigningRequest.Content} {issuer : Entries}
    (hcontent : SigningRequest.Content.ofFields request.fields = .ok content)
    (hissuer : issuerEntries s.authority.certificate = .ok issuer) (serial : Bytes)
    (window : Int × Int) :
    (template issuer content serial window).sign? s.authority.key = none
      ↔ s.HasStray request := by
  have hname : Entries.ofName s.authority.certificate.fields.subject = .ok issuer :=
    (issuerEntries_eq_ok_iff.1 hissuer).2
  have hsubject : Entries.ofName request.fields.subject = .ok content.subject :=
    (SigningRequest.Content.ofFields_eq_ok hcontent).2.1
  have hwritten : ((template issuer content serial window).sign? s.authority.key).isSome
      ↔ issuer.write?.isSome ∧ content.subject.write?.isSome := Template.isSome_sign?_iff
  rw [← Option.not_isSome_iff_eq_none, hwritten, Entries.isSome_write?_iff_of_ofName hname,
    Entries.isSome_write?_iff_of_ofName hsubject, ← List.forall_mem_append, HasStray]
  push Not
  rfl

/-- What a signer breaks down at. -/
theorem issue_eq_crashed_iff :
    s.issue request now serial = .error (.crashed crash) ↔ s.Breaks request now crash := by
  constructor
  · intro h
    obtain ⟨⟨⟩, hsignature, h⟩ := Halt.lift_bind_eq_crashed h
    obtain ⟨content, hcontent, h⟩ := Halt.lift_bind_eq_crashed h
    replace hcontent := mapError_eq_ok hcontent
    cases hwindow : Validity.window? now s.days with
    | none =>
      rw [hwindow] at h
      cases h
      exact .late hsignature hcontent (Validity.window?_eq_none_iff.1 hwindow)
    | some window =>
      have hdate := (Validity.window?_eq_some_iff.1 hwindow).1
      rw [hwindow] at h
      obtain ⟨issuer, hissuer, h⟩ := Halt.lift_bind_eq_crashed h
      replace hissuer := mapError_eq_ok hissuer
      cases hsign : (template issuer content serial window).sign? s.authority.key with
      | none =>
        rw [hsign] at h
        cases h
        exact .stray hsignature hcontent hdate hissuer
          ((sign?_eq_none_iff hcontent hissuer serial window).1 hsign)
      | some der =>
        -- with the certificate signed, what is left can only fail
        rw [hsign] at h
        obtain ⟨leaf, -, h⟩ := Halt.lift_bind_eq_crashed h
        exact absurd h Halt.lift_ne_crashed
  · intro h
    cases h with
    | late hsignature hcontent hlate =>
      simp only [issue, hsignature, hcontent, Validity.window?_eq_none_iff.2 hlate]
      rfl
    | stray hsignature hcontent hdate hissuer hstray =>
      have hwindow := Validity.window?_eq_some_iff.2 ⟨hdate, rfl⟩
      have hsign := (sign?_eq_none_iff hcontent hissuer serial
        (now.seconds, now.seconds + 86400 * s.days)).2 hstray
      simp only [issue, hsignature, hcontent, hwindow, hissuer, hsign, bind, Except.bind,
        Halt.lift, Except.mapError]
      rfl

end Signer

-- ============================================================= generating

namespace Authority

/-- A new authority breaks down at its time of validity alone, if its name is in order. -/
theorem generate_eq_crashed_iff [Signatures] {hostname : String} {algorithm : KeyAlgorithm}
    {days : Nat} {now : Time.Instant} {draw : Draw} {crash : Crash} :
    generate hostname algorithm days now draw = .error (.crashed crash)
      ↔ crash = .dateOutOfRange ∧ (∃ names, AlternativeName.ofTexts [hostname] = .ok names)
        ∧ Time.lastSecond < now.seconds + 86400 * days := by
  constructor
  · intro h
    obtain ⟨names, hnames, h⟩ := Halt.lift_bind_eq_crashed h
    replace hnames := mapError_eq_ok hnames
    cases hwindow : Validity.window? now days with
    | none =>
      rw [hwindow] at h
      cases h
      exact ⟨rfl, ⟨names, hnames⟩, Validity.window?_eq_none_iff.1 hwindow⟩
    | some window =>
      -- the name is one of texts, so it can be written
      have hspelled := (ofTexts_nameOf hostname).spelled
      obtain ⟨der, hder⟩ := Template.exists_sign?
        (t := templateOf hostname names (.generate algorithm draw.key) draw.serial window)
        hspelled hspelled (.generate algorithm draw.key)
      simp only [hwindow, hder] at h
      obtain ⟨chain, -, h⟩ := Halt.lift_bind_eq_crashed h
      cases h
  · rintro ⟨rfl, ⟨names, hnames⟩, hlate⟩
    simp only [generate, hnames, Validity.window?_eq_none_iff.2 hlate]
    rfl

end Authority

/-- When there is no answer: a signer breaks down in the two ways above and in no other, and
a new authority only where its name is in order and its time of validity does not end by the
year 9999. -/
theorem crashed_iff [Signatures] :
    (∀ (s : Signer) request now serial crash,
        s.issue request now serial = .error (.crashed crash) ↔ s.Breaks request now crash)
      ∧ ∀ hostname algorithm days now draw crash,
        Authority.generate hostname algorithm days now draw = .error (.crashed crash)
          ↔ crash = .dateOutOfRange
            ∧ (∃ names, AlternativeName.ofTexts [hostname] = .ok names)
            ∧ Time.lastSecond < now.seconds + 86400 * days :=
  ⟨fun _ _ _ _ _ => Signer.issue_eq_crashed_iff,
    fun _ _ _ _ _ _ => Authority.generate_eq_crashed_iff⟩

-- ============================================================ small samples

/-- The small certificate with an attribute in its subject that begins with arc three. -/
def Certificate.stray : Certificate :=
  .ofBytes (smallDer.set 94 0x78) (by decide +kernel) (by decide +kernel)

def Authority.stray : Authority :=
  ⟨⟨.stray, [], Chain.small.length_le⟩, Authority.small.key, .ed25519⟩

theorem Authority.ofPem_stray :
    ofPem Authority.stray.chain.pem Authority.stray.keyPem = .ok .stray := by
  have hbuilt : Authority.small.Built := .generated generate_small
  have hkey := hbuilt.ofDocument? Standard.sized
  exact ofPem_pem (a := .stray) hkey ⟨hbuilt.coherent.1, by decide +kernel⟩

theorem Signer.breaks_small :
    Signer.Breaks ⟨.small, 4294967295, by decide⟩ .edwards ⟨1767225600, 0⟩ .dateOutOfRange :=
  .late SigningRequest.verifySignature_edwards SigningRequest.content_edwards (by decide)

/-- The type that cannot be written breaks a signer of one day. -/
theorem Signer.breaks_stray :
    Signer.Breaks ⟨.stray, 1, by decide⟩ .edwards ⟨1767225600, 0⟩ .objectIdOutOfRange := by
  obtain ⟨entries, hentries⟩ : ∃ es, issuerEntries Certificate.stray = .ok es :=
    exists_eq_ok (by decide +kernel)
  have hstray : ∃ a ∈ Certificate.stray.fields.subject.attributes, a.type.IsStray := by
    decide +kernel
  obtain ⟨a, ha, hstray⟩ := hstray
  exact .stray SigningRequest.verifySignature_edwards SigningRequest.content_edwards (by decide)
    hentries ⟨a, List.mem_append_left _ ha, hstray⟩

/-- Of the days that are accepted, the most make the small signer and a new authority break
down in 2026; and with a stray type in its own name an authority that is loaded breaks
down at one day. -/
theorem crash_of_long_validity :
    (∃ s, Signer.ofAuthority .small .ed25519 4294967295 = .ok s
        ∧ s.issue .edwards ⟨1767225600, 0⟩ [1] = .error (.crashed .dateOutOfRange))
      ∧ Authority.generate "h" .ed25519 4294967295 ⟨1767225600, 0⟩ ⟨[7], [1]⟩
        = .error (.crashed .dateOutOfRange)
      ∧ Authority.ofPem Authority.stray.chain.pem Authority.stray.keyPem = .ok .stray
      ∧ ∃ s, Signer.ofAuthority .stray .ed25519 1 = .ok s
        ∧ s.issue .edwards ⟨1767225600, 0⟩ [1] = .error (.crashed .objectIdOutOfRange) := by
  have hnames : ∃ names, AlternativeName.ofTexts ["h"] = .ok names :=
    exists_eq_ok (by decide +kernel)
  have hlate : Time.lastSecond < (1767225600 : Int) + 86400 * (4294967295 : Nat) := by decide
  exact ⟨⟨_, rfl, Signer.issue_eq_crashed_iff.2 Signer.breaks_small⟩,
    Authority.generate_eq_crashed_iff.2 ⟨rfl, hnames, hlate⟩, Authority.ofPem_stray,
    ⟨_, rfl, Signer.issue_eq_crashed_iff.2 Signer.breaks_stray⟩⟩

end Enrollment
