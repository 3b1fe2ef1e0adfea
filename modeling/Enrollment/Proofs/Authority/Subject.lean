/-
Subjects: what becomes of the subject that a request asks for.

The subject is taken apart into entries and written again of these, so it
goes the way of every name that does (`subject_of_issue`).  A certificate has
the subject that was asked for exactly if that is canonical, and otherwise it
has what is `remaining` of it (`carried_of_issue`): of `CN=h, OU=a, OU=b` it
has `CN=h, OU=b` (`unit_lost_of_two`).
-/
import Enrollment.Proofs.Authority.Signer
import Enrollment.Proofs.Name.Remaining

namespace Enrollment

-- ================================================================ issuing

namespace Signer

variable [Signatures] {s : Signer} {request : SigningRequest} {now : Time.Instant} {serial : Bytes}
  {chain : Chain}

/-- The subject of a new certificate is written of the entries that the subject of the
request is taken apart into. -/
theorem subject_of_issue (h : s.issue request now serial = .ok chain) :
    ∃ es encoded, Entries.ofName request.fields.subject = .ok es
      ∧ chain.leaf.fields.subject = ⟨es.map fun e => [e.attribute], encoded⟩ := by
  obtain ⟨content, window, issuer, der, -, hcontent, -, -, hsign, hleaf, -⟩ := issue_eq_ok h
  obtain ⟨encoded, hname⟩ := (Certificate.ofTemplate hsign rfl hleaf).1.names_eq.2
  exact ⟨content.subject, encoded, (SigningRequest.Content.ofFields_eq_ok hcontent).2.1, hname⟩

/-- A new certificate has what remains of the subject that was asked for, and that is
the whole of it exactly if it is canonical. -/
theorem carried_of_issue (h : s.issue request now serial = .ok chain) :
    Name.Carried request.fields.subject chain.leaf.fields.subject := by
  obtain ⟨es, encoded, hentries, hname⟩ := subject_of_issue h
  rw [hname]
  exact Name.carried_of_ofName hentries encoded

end Signer

-- ============================================================ small samples

/-- A request for the small key and the subject `CN=h, OU=a, OU=b`, signed with the key. -/
def SigningRequest.unitsDer : Bytes :=
  Bytes.ofNat 36 0x3081a330570201003024310a300806035504030c0168310a3008060355040b0c0161310a
    ++ Bytes.ofNat 36 0x3008060355040b0c0162302a300506032b65700321003ee2a8a7283cb2fd728943daa127
    ++ Bytes.ofNat 36 0xef09e483071a8b4bc699ba4522f09b14cfdea000300506032b657003410038907daa8d7d
    ++ Bytes.ofNat 36 0xb054b8f725c53061973a617f619896a6349c16940f43e63d3ac6d737ddadf9283f6672a1
    ++ Bytes.ofNat 22 0xfd719f86ac0aa446906b211a1b37e3595c5d45c1a807

def SigningRequest.units : SigningRequest :=
  ofDer unitsDer (by decide +kernel) (by decide +kernel)

namespace Signer

/-- The small request gets the subject that it asks for. -/
theorem carried_edwards :
    ∃ chain, small.issue .edwards ⟨0, 0⟩ [1] = .ok chain
      ∧ Name.Carried SigningRequest.edwards.fields.subject chain.leaf.fields.subject := by
  obtain ⟨chain, hissue⟩ := issue_small_edwards
  exact ⟨chain, hissue, carried_of_issue hissue⟩

theorem issue_small_units : ∃ chain, small.issue .units ⟨0, 0⟩ [1] = .ok chain := by
  have hsignature : SigningRequest.units.verifySignature = .ok () := by decide +kernel
  have hcontent : SigningRequest.Content.ofFields SigningRequest.units.fields
      = .ok ⟨[Entries.ofText [2, 5, 4, 3] "h", Entries.ofText [2, 5, 4, 11] "b"], [], .ed25519,
          SigningRequest.units.fields.publicKey.key⟩ := by decide +kernel
  have hwindow : Validity.window? ⟨0, 0⟩ small.days = some (0, 86400) := rfl
  exact exists_issue hsignature hcontent hwindow issuerEntries_small (by decide +kernel) (by decide)

/-- Of two units that a request asks for, the certificate that it gets has only the last. -/
theorem unit_lost_of_two :
    ∃ chain, SigningRequest.ofPem SigningRequest.units.pem = .ok .units
      ∧ small.issue .units ⟨0, 0⟩ [1] = .ok chain
      ∧ SigningRequest.units.fields.subject.text = "CN=h, OU=a, OU=b"
      ∧ chain.leaf.subject = "CN=h, OU=b"
      ∧ chain.leaf.fields.subject.sets ≠ SigningRequest.units.fields.subject.sets := by
  obtain ⟨chain, hissue⟩ := issue_small_units
  obtain ⟨es, encoded, hgiven, hname⟩ := subject_of_issue hissue
  have hentries : Entries.ofName SigningRequest.units.fields.subject
      = .ok [Entries.ofText [2, 5, 4, 3] "h", Entries.ofText [2, 5, 4, 11] "b"] := by
    decide +kernel
  cases hentries.symm.trans hgiven
  refine ⟨chain, SigningRequest.ofPem_ofDer _ _, hissue, by decide +kernel, ?_, ?_⟩
  · rw [Certificate.subject, hname]
    -- the encoding has no part in the text
    unfold Name.text
    dsimp only
    decide +kernel
  · have hthree : SigningRequest.units.fields.subject.sets.length = 3 := by decide +kernel
    intro hsets
    rw [← hsets, hname] at hthree
    cases hthree

end Signer

end Enrollment
