/-
Bundles: the certificates in a text that holds other blocks as well.

A text is read block by block, and of the blocks only those of certificates
count (`Chain.ofPem_document`).  So a chain comes out of a bundle as it would
come out of the contents of its blocks alone, whatever stands before, between
or after them, and in whichever way lines end.
-/
import Enrollment.Proofs.Authority.Signer

namespace Enrollment

/-- A tag that can be found again: it is not empty and has no dash. -/
structure Pem.Tagged (p : Pem) : Prop where
  ne_empty : p.tag ≠ ""
  no_dash : '-' ∉ p.tag.toList

namespace Chain

/-- The contents of the blocks of certificates, in order. -/
def contentsIn (blocks : List (Pem.LineEnd × Pem)) : List Bytes :=
  blocks.filterMap fun b => if b.2.tag = "CERTIFICATE" then some b.2.contents else none

theorem contentsIn_eq (blocks : List (Pem.LineEnd × Pem)) :
    ((blocks.map (·.2)).filter (·.tag == Certificate.blockTag)).map (·.contents)
      = contentsIn blocks := by
  induction blocks with
  | nil => rfl
  | cons b blocks ih =>
    have hiff : (b.2.tag == Certificate.blockTag) = true ↔ b.2.tag = "CERTIFICATE" := beq_iff_eq
    rw [contentsIn, List.filterMap_cons, List.map_cons, List.filter_cons]
    by_cases htag : b.2.tag = "CERTIFICATE"
    · rw [if_pos htag, if_pos (hiff.2 htag), List.map_cons, ih]
      rfl
    · rw [if_neg htag, if_neg fun h => htag (hiff.1 h), ih]
      rfl

/-- Byte strings that are each read as a certificate are those of certificates. -/
theorem exists_certificates {ders : List Bytes}
    (h : ∀ der ∈ ders, ∃ c, Certificate.ofDer der = .ok c) :
    ∃ certificates : List Certificate, ders = certificates.map (·.der) := by
  rcases exists_unreadable ders with hall | ⟨front, der, rest, failure, rfl, hread⟩
  · exact hall
  · obtain ⟨c, hc⟩ := h der (List.mem_append_right _ List.mem_cons_self)
    cases hread.symm.trans hc

/-- Certificates are read as a chain when there are one to eight of them. -/
theorem ofDers_of_length {ders : List Bytes}
    (h : ∀ der ∈ ders, ∃ c, Certificate.ofDer der = .ok c) (hpos : 1 ≤ ders.length)
    (hle : ders.length ≤ 8) : ∃ c : Chain, ofDers ders = .ok c ∧ c.toList.map (·.der) = ders := by
  obtain ⟨certificates, rfl⟩ := exists_certificates h
  rw [List.length_map] at hpos hle
  obtain ⟨c, rfl⟩ := exists_toList_eq (List.length_pos_iff.1 hpos) hle
  exact ⟨c, ofDers_toList c, rfl⟩

/-- None and more than eight certificates are no chain. -/
theorem ofDers_of_not_length {ders : List Bytes}
    (h : ∀ der ∈ ders, ∃ c, Certificate.ofDer der = .ok c)
    (hlength : ders.length = 0 ∨ 8 < ders.length) :
    ∃ failure, ofDers ders = .error failure ∧ failure.kind = .protocol := by
  obtain ⟨certificates, rfl⟩ := exists_certificates h
  rw [List.length_map] at hlength
  rcases hlength with hnone | hlong
  · rw [List.length_eq_zero_iff.1 hnone]
    exact ⟨_, rfl, rfl⟩
  · exact ⟨_, ofDers_of_length_lt hlong, rfl⟩

/-- A chain is read from the blocks of its certificates wherever they stand in a
text of blocks: what is read are their contents in order, if there are one to
eight of them, and other blocks change nothing. -/
theorem ofPem_bundle :
    (∀ blocks : List (Pem.LineEnd × Pem), (∀ b ∈ blocks, b.2.Tagged) →
      ofPem (Pem.document blocks) = ofDers (contentsIn blocks)
        ∧ ((∀ der ∈ contentsIn blocks, ∃ c, Certificate.ofDer der = .ok c) →
          (1 ≤ (contentsIn blocks).length ∧ (contentsIn blocks).length ≤ 8 →
            ∃ c : Chain, ofPem (Pem.document blocks) = .ok c
              ∧ c.toList.map (·.der) = contentsIn blocks)
          ∧ ((contentsIn blocks).length = 0 ∨ 8 < (contentsIn blocks).length →
            ∃ failure, ofPem (Pem.document blocks) = .error failure
              ∧ failure.kind = .protocol)))
      ∧ (∀ (front back : List (Pem.LineEnd × Pem)) (other : Pem.LineEnd × Pem),
        (∀ b ∈ front ++ other :: back, b.2.Tagged) → other.2.tag ≠ "CERTIFICATE" →
          ofPem (Pem.document (front ++ other :: back)) = ofPem (Pem.document (front ++ back)))
      ∧ (∀ c : Chain, ofPem c.pem = .ok c)
      ∧ ∀ x : Certificate, Certificate.ofPem x.pem = .ok x := by
  have hread {blocks : List (Pem.LineEnd × Pem)} (h : ∀ b ∈ blocks, b.2.Tagged) :
      ofPem (Pem.document blocks) = ofDers (contentsIn blocks) := by
    rw [ofPem_document (fun b hb => (h b hb).ne_empty) (fun b hb => (h b hb).no_dash),
      contentsIn_eq]
  refine ⟨fun blocks h => ⟨hread h, fun hders => ⟨fun hlength => ?_, fun hlength => ?_⟩⟩,
    fun front back other h hother => ?_, ofPem_pem, Certificate.ofPem_pem⟩
  · rw [hread h]
    exact ofDers_of_length hders hlength.1 hlength.2
  · rw [hread h]
    exact ofDers_of_not_length hders hlength
  · have hrest : ∀ b ∈ front ++ back, b.2.Tagged := fun b hb =>
      h b ((List.sublist_cons_self other back).append_left front |>.mem hb)
    rw [hread h, hread hrest, contentsIn, contentsIn, List.filterMap_append,
      List.filterMap_append, List.filterMap_cons, if_neg hother]

/-- A certificate with lines that end in line feeds, after its key, and once more
with the other line ends. -/
def smallBundle : List (Pem.LineEnd × Pem) :=
  [(.lf, ⟨KeyPair.blockTag, Authority.small.key.document⟩),
    (.lf, ⟨Certificate.blockTag, Certificate.small.der⟩),
    (.crlf, ⟨Certificate.blockTag, Certificate.small.der⟩)]

/-- It is read as two certificates, and so it is without the key. -/
theorem ofPem_smallBundle :
    ∃ c : Chain, ofPem (Pem.document smallBundle) = .ok c
      ∧ c.toList = [Certificate.small, Certificate.small]
      ∧ ofPem (Pem.document smallBundle.tail) = .ok c := by
  have htagged : ∀ b ∈ smallBundle, b.2.Tagged := by
    intro b hb
    simp only [smallBundle, List.mem_cons, List.not_mem_nil, or_false] at hb
    rcases hb with rfl | rfl | rfl <;> exact ⟨by decide, by decide⟩
  have hcontents : contentsIn smallBundle = [Certificate.small.der, Certificate.small.der] := rfl
  obtain ⟨-, hparts⟩ := ofPem_bundle.1 smallBundle htagged
  have hders : ∀ der ∈ contentsIn smallBundle, ∃ c, Certificate.ofDer der = .ok c := by
    intro der hder
    simp only [hcontents, List.mem_cons, List.not_mem_nil, or_false, or_self] at hder
    exact ⟨.small, hder ▸ Certificate.small.ofDer_der⟩
  obtain ⟨c, hread, hc⟩ := (hparts hders).1 (by rw [hcontents]; decide)
  have hboth := ofDers_eq_ok_iff.2 (hc.trans hcontents)
  have hlist : ofDers ([Certificate.small, Certificate.small].map (·.der))
      = .ok ⟨.small, [.small], by decide⟩ := ofDers_toList ⟨.small, [.small], by decide⟩
  cases hboth.symm.trans hlist
  have hkey := ofPem_bundle.2.1 [] smallBundle.tail _ htagged (by decide)
  exact ⟨_, hread, rfl, hkey.symm.trans hread⟩

end Chain

end Enrollment
