/-
Chains whose links were checked: what that tells of the names along them.

A chain is accepted if every certificate verifies under the next one, and its issuer's
name has the text of the next one's subject (`validateLinks_eq_ok_iff`).  How far these are
the same name is for the texts to tell: they are if both are plain, or if the subject is
lone (`links_by_text`).  Otherwise they need not be, and a chain is accepted whose first
certificate names nobody in it (`validateLinks_double`).
-/
import Enrollment.Proofs.Authority.Signer
import Enrollment.Proofs.Name.Alike

namespace Enrollment

-- =========================================================== certificates

namespace Certificate

/-- No set in the issuer of a certificate is empty, as it was read. -/
theorem proper_issuer (c : Certificate) : c.fields.issuer.Proper := by
  obtain ⟨rest, hread⟩ := c.read_eq_some
  obtain ⟨⟨bs, left, hissuer⟩, -⟩ := Fields.names_of_read hread
  exact Name.proper_of_read hissuer

/-- Nor is one in the subject. -/
theorem proper_subject (c : Certificate) : c.fields.subject.Proper := by
  obtain ⟨rest, hread⟩ := c.read_eq_some
  obtain ⟨-, bs, left, hsubject⟩ := Fields.names_of_read hread
  exact Name.proper_of_read hsubject

end Certificate

-- ================================================================== links

namespace Chain

/-- Each certificate with the one that follows it. -/
def links (c : Chain) : List (Certificate × Certificate) :=
  c.toList.zip c.issuers

/-- The last certificate. -/
def last (c : Chain) : Certificate :=
  c.issuers.getLastD c.leaf

variable [Signatures]

/-- A link holds when the issuer is shown as the subject is and the signature is good. -/
theorem checkLink_eq_ok_iff {child parent : Certificate} :
    checkLink child parent = .ok ()
      ↔ child.issuer = parent.subject ∧ child.verifySignedBy parent = .ok () := by
  by_cases hname : child.issuer = parent.subject
  · rw [checkLink_of_eq hname]
    exact ⟨fun h => ⟨hname, h⟩, fun h => h.2⟩
  · rw [checkLink_of_ne hname]
    exact ⟨fun h => (nomatch h), fun h => absurd h.1 hname⟩

/-- A chain is linked when each of its links holds, and the last certificate is signed with
its own key if it names itself as its issuer. -/
theorem checkFrom_eq_ok_iff {first : Certificate} {others : List Certificate} :
    checkFrom first others = .ok ()
      ↔ (∀ link ∈ (first :: others).zip others, checkLink link.1 link.2 = .ok ())
        ∧ ((others.getLastD first).isSelfIssued = true →
          (others.getLastD first).verifySelfSigned = .ok ()) := by
  induction others generalizing first with
  | nil =>
    rw [checkFrom, List.getLastD_nil]
    by_cases hself : first.isSelfIssued = true <;> simp [hself]
  | cons parent rest ih =>
    rw [checkFrom, List.zip_cons_cons, List.forall_mem_cons, List.getLastD_cons, and_assoc, ← ih]
    constructor
    · intro h
      obtain ⟨⟨⟩, hlink, hrest⟩ := bind_eq_ok h
      exact ⟨hlink, hrest⟩
    · rintro ⟨hlink, hrest⟩
      rw [hlink]
      exact hrest

/-- The chains whose links are valid. -/
theorem validateLinks_eq_ok_iff {c : Chain} :
    c.validateLinks = .ok ()
      ↔ (∀ link ∈ c.links, link.1.issuer = link.2.subject
          ∧ link.1.verifySignedBy link.2 = .ok ())
        ∧ (c.last.isSelfIssued = true → c.last.verifySelfSigned = .ok ()) := by
  rw [validateLinks, checkFrom_eq_ok_iff]
  exact and_congr_left' (forall₂_congr fun link _ => checkLink_eq_ok_iff)

end Chain

/-- What the texts of two names tell of them, and what they do not. -/
structure Name.Comparison (n m : Name) : Prop where
  decodes : n.text = m.text → (n.Decodes ↔ m.Decodes)
  plain : n.text = m.text → n.Plain → m.Plain → n.Same m
  lone : n.text = m.text → m.Lone → n.Same m
  /-- Any two names that cannot be decoded are taken for one. -/
  undecodable : ¬n.Decodes → ¬m.Decodes → n.text = m.text
  /-- Any name that is not lone can be taken for another one. -/
  double : m.Decodes → ¬m.Lone → ∃ other : Name, other.IsDouble m

/-- What the texts of names tell of the names, where both were read. -/
theorem Name.comparison {n m : Name} (hn : n.Proper) (hm : m.Proper) : n.Comparison m where
  decodes h := by
    rw [← not_iff_not, ← text_eq_undecodable_iff hn, ← text_eq_undecodable_iff hm, h]
  plain h hplain hplain' := same_of_text_eq hn hm hplain hplain' h
  lone h hlone := same_of_lone hn hm hlone h
  undecodable hnone hnone' := by
    rw [(text_eq_undecodable_iff hn).2 hnone, (text_eq_undecodable_iff hm).2 hnone']
  double hdecodes hlone := exists_double hm hdecodes hlone

/-- The links of a chain are valid exactly if each certificate verifies under the next and
its issuer has the text of the next one's subject, and the last verifies itself if its two
names are one.  How much the texts tell of the names is said for each link. -/
theorem Chain.links_by_text [Signatures] (c : Chain) :
    (c.validateLinks = .ok ()
        ↔ (∀ link ∈ c.links, link.1.issuer = link.2.subject
            ∧ link.1.verifySignedBy link.2 = .ok ())
          ∧ (c.last.isSelfIssued = true → c.last.verifySelfSigned = .ok ()))
      ∧ ∀ link ∈ c.links, link.1.fields.issuer.Comparison link.2.fields.subject :=
  ⟨validateLinks_eq_ok_iff, fun link _ =>
    Name.comparison link.1.proper_issuer link.2.proper_subject⟩

-- ============================================================ small samples

/-- A certificate with the one-attribute name `CN=h, O=keygate` for its issuer, signed with
the small key. -/
def Certificate.doubleDer : Bytes :=
  Bytes.ofNat 36 0x308201103081c3a003020102020102300506032b657030173115301306035504030c0c68
    ++ Bytes.ofNat 36 0x2c204f3d6b657967617465301e170d3730303130313030303030305a170d373030313032
    ++ Bytes.ofNat 36 0x3030303030305a300c310a300806035504030c0167302a300506032b65700321003ee2a8
    ++ Bytes.ofNat 36 0xa7283cb2fd728943daa127ef09e483071a8b4bc699ba4522f09b14cfdea33f303d300e06
    ++ Bytes.ofNat 36 0x03551d0f0101ff040403020700301d0603551d0e041604146fbccd82e5310548f9b7b918
    ++ Bytes.ofNat 36 0x95f3b54df64e9ade300c0603551d130101ff04023000300506032b6570034100f777337f
    ++ Bytes.ofNat 36 0xb159f98b0b27e68051fcec1096eadfadd15fb1f49a8ac8d4122ae4c71a151b8a7c6da127
    ++ Bytes.ofNat 24 0xafb3c3b5819fe7f3ee3950beaeb7df5a844b441a746f1407

def Certificate.double : Certificate :=
  .ofBytes doubleDer (by decide +kernel) (by decide +kernel)

theorem Chain.length_pair_le (c : Certificate) : [c].length + 1 ≤ Limits.chainLength :=
  Nat.le_of_ble_eq_true rfl

def Chain.double : Chain := ⟨.double, [.small], length_pair_le .small⟩

theorem Certificate.verifySignedBy_double :
    Certificate.double.verifySignedBy .small = .ok () := by
  decide +kernel

theorem Certificate.verifySelfSigned_small : Certificate.small.verifySelfSigned = .ok () := by
  decide +kernel

/-- The links are valid of a chain in which the issuer of the first certificate has one
attribute and the subject of the second has two. -/
theorem Chain.validateLinks_double :
    Chain.double.validateLinks = .ok ()
      ∧ Chain.double.links = [(.double, .small)]
      ∧ Certificate.double.fields.issuer.Decodes ∧ Certificate.small.fields.subject.Decodes
      ∧ ¬Certificate.double.fields.issuer.Same Certificate.small.fields.subject := by
  have hname : Certificate.double.issuer = Certificate.small.subject := by decide +kernel
  refine ⟨validateLinks_eq_ok_iff.2 ⟨?_, fun _ => Certificate.verifySelfSigned_small⟩, rfl, ?_, ?_,
    fun hsame => ?_⟩
  · exact List.forall_mem_singleton.2 ⟨hname, Certificate.verifySignedBy_double⟩
  · unfold Name.Decodes
    decide +kernel
  · unfold Name.Decodes
    decide +kernel
  · have hlength : Certificate.double.fields.issuer.sets.length
        ≠ Certificate.small.fields.subject.sets.length := by decide +kernel
    exact hlength hsame.length_eq

end Enrollment
