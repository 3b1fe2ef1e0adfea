/-
Links: how a certificate that a client accepts hangs on the chain it captured.

A client verifies one signature, that of the certificate it was sent, and
compares no names; of the chain that was presented it looks at the first
certificate only.  So what it hands out is as well linked as the captured
chain where the names agree, and broken at its first link where they do not
(`links_of_sign`), and there are peers for which either is so
(`broken_link_of_captured`).
-/
import Enrollment.Proofs.Client.Acceptance
import Enrollment.Proofs.Links

namespace Enrollment.Client

section

variable [Signatures] {c : Client} {csr : SigningRequest}

/-- A chain that is handed out has a captured one behind its first certificate. -/
structure Behind (P chain : Chain) : Prop where
  issuers : chain.issuers = P.toList
  signed : chain.leaf.verifySignedBy P.leaf = .ok ()
  linked : chain.leaf.issuer = P.leaf.subject → chain.validateLinks = P.validateLinks
  broken : chain.leaf.issuer ≠ P.leaf.subject →
    chain.validateLinks = .error (.security (.brokenLink chain.leaf.issuer P.leaf.subject))

/-- A chain that was put together has the captured one behind its leaf. -/
theorem behind_of_prepend {P chain : Chain} {L : Certificate} (h : P.prepend L = .ok chain)
    (hsigned : L.verifySignedBy P.leaf = .ok ()) : Behind P chain := by
  obtain ⟨-, rfl, hissuers⟩ := Chain.prepend_eq_ok_iff.1 h
  exact {
    issuers := hissuers
    signed := hsigned
    linked := fun hissuer => Chain.validateLinks_of_linked h hissuer hsigned
    broken := fun hissuer => Chain.validateLinks_of_issuer_ne h hissuer }

/-- Such a chain is linked exactly when the first link and the captured chain are. -/
theorem Behind.validateLinks_eq_ok_iff {P chain : Chain} (h : Behind P chain) :
    chain.validateLinks = .ok ()
      ↔ chain.leaf.issuer = P.leaf.subject ∧ P.validateLinks = .ok () := by
  by_cases hissuer : chain.leaf.issuer = P.leaf.subject
  · rw [h.linked hissuer]
    exact ⟨fun hvalid => ⟨hissuer, hvalid⟩, fun hvalid => hvalid.2⟩
  · rw [h.broken hissuer]
    constructor
    · intro hvalid
      cases hvalid
    · intro hvalid
      exact absurd hvalid.1 hissuer

/-- A chain that a client hands out is linked exactly when the names agree at its first
link and the captured chain is linked, and neither is checked: whatever chain bears the
name of the host, some peer gets a certificate handed out in front of it. -/
theorem links_of_sign (hserver : Net.HostName.isServer c.settings.host = true) :
    (∀ network chain, (c.sign network csr).result = .ok chain →
      ∃ presented answer P,
        network c.settings.host c.settings.port = .connected presented answer
          ∧ Chain.ofDers presented = .ok P ∧ Behind P chain
          ∧ (chain.validateLinks = .ok ()
            ↔ chain.leaf.issuer = P.leaf.subject ∧ P.validateLinks = .ok ()))
      ∧ ∀ (P : Chain) (L : Certificate) (hroom : P.length + 1 ≤ Limits.chainLength),
        P.leaf.commonName = some c.settings.host → L.verifySignedBy P.leaf = .ok () →
          L.publicKey = csr.publicKey →
            ∃ network, (c.sign network csr).result = .ok ⟨L, P.toList, hroom⟩ := by
  refine ⟨fun network chain h => ?_, fun P L hroom hname hsigned hkey => ?_⟩
  · obtain ⟨presented, answer, P, response, body, -, hnetwork, hcapture, -, -, hjudge⟩ :=
      sign_eq_ok h
    obtain ⟨hpresented, -⟩ := capture_eq_ok hcapture
    obtain ⟨-, -, L, -, -, -, -, hsigned, -, hprepend⟩ := judge_eq_ok hjudge
    have hbehind := behind_of_prepend hprepend hsigned
    exact ⟨presented, answer, P, hnetwork, Chain.ofDers_eq_ok_iff.2 hpresented, hbehind,
      hbehind.validateLinks_eq_ok_iff⟩
  · exact ⟨_, sign_holder hserver hname hsigned hkey hroom⟩

end

theorem validateLinks_small : Chain.small.validateLinks = .ok () := by
  decide +kernel

/-- A chain of the small certificate behind itself is handed out, and linked. -/
theorem links_of_sign_small :
    Net.HostName.isServer Client.small.settings.host = true
      ∧ ∃ network chain, (Client.small.sign network .edwards).result = .ok chain
        ∧ chain.toList = [.small, .small] ∧ ∃ P, Behind P chain ∧ chain.validateLinks = .ok () := by
  obtain ⟨hlinks, hany⟩ := @links_of_sign _ small .edwards isServer_small
  obtain ⟨network, hsign⟩ := hany .small .small (by decide) Certificate.commonName_small
    Certificate.verifySignedBy_small Certificate.publicKey_small
  obtain ⟨-, -, P, -, -, hbehind, -⟩ := hlinks network _ hsign
  refine ⟨isServer_small, network, _, hsign, rfl, P, hbehind, ?_⟩
  rw [← validateLinks_small]
  exact Chain.validateLinks_of_linked rfl (by decide +kernel) Certificate.verifySignedBy_small

/-- The small certificate with one behind it that did not issue it. -/
def strayChain : Chain := ⟨.small, [.domain], by decide⟩

/-- The stray one is not, and it is the second link that is broken. -/
theorem validateLinks_stray :
    strayChain.validateLinks
      = .error (.security (.brokenLink Certificate.small.issuer Certificate.domain.subject)) :=
  Chain.validateLinks_of_issuer_ne (c := Chain.domain) rfl (by decide +kernel)

/-- A client hands out a chain that is broken behind the certificate it was issued. -/
theorem broken_link_of_captured :
    ∃ network chain, (Client.small.sign network .edwards).result = .ok chain
      ∧ chain.toList = [.small, .small, .domain]
      ∧ Certificate.small.verifySignedBy .small = .ok ()
      ∧ chain.validateLinks
        = .error (.security (.brokenLink Certificate.small.issuer Certificate.domain.subject)) := by
  have hsign := @sign_holder _ small .edwards strayChain .small isServer_small
    Certificate.commonName_small Certificate.verifySignedBy_small Certificate.publicKey_small
    (by decide)
  refine ⟨_, _, hsign, rfl, Certificate.verifySignedBy_small, ?_⟩
  rw [← validateLinks_stray]
  exact Chain.validateLinks_of_linked rfl (by decide +kernel) Certificate.verifySignedBy_small

end Enrollment.Client
