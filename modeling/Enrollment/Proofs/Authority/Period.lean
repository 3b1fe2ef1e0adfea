/-
Validity: how long what is made here is valid.

Both a new authority's certificate and one that is issued start with the second they are
made in, and end so many days of 86400 seconds later, whatever leap years and changes of
form lie in between (`validFor_of_made`).
-/
import Enrollment.Proofs.Authority.Signer
import Enrollment.Proofs.Certificate.Period

namespace Enrollment

-- ================================================================ windows

namespace Validity

variable {now : Time.Instant} {days : Nat} {window : Int × Int}

/-- There is a time of validity if it ends by the year 9999. -/
theorem window?_eq_some_iff :
    window? now days = some window
      ↔ now.seconds + 86400 * days ≤ Time.lastSecond
        ∧ window = (now.seconds, now.seconds + 86400 * days) := by
  unfold window?
  dsimp only
  split
  case isTrue hle => exact ⟨fun h => ⟨hle, (Option.some.inj h).symm⟩, fun h => by rw [h.2]⟩
  case isFalse hlt => exact ⟨fun h => (nomatch h), fun h => absurd h.1 hlt⟩

theorem window?_eq_none_iff :
    window? now days = none ↔ Time.lastSecond < now.seconds + 86400 * days := by
  unfold window?
  dsimp only
  split
  case isTrue hle => exact ⟨fun h => (nomatch h), fun h => absurd hle (Int.not_le.2 h)⟩
  case isFalse hlt => exact ⟨fun _ => Int.not_le.1 hlt, fun _ => rfl⟩

end Validity

/-- A certificate from a template with such a time of validity is valid for it. -/
theorem Certificate.Fields.OfTemplate.validFor {c : Certificate} {t : Template} {label : Bytes}
    {now : Time.Instant} {days : Nat} (h : c.fields.OfTemplate t label)
    (hnow : 0 ≤ now.seconds)
    (hwindow : Validity.window? now days = some (t.notBefore, t.notAfter)) :
    c.ValidFor now.seconds (now.seconds + 86400 * days) := by
  obtain ⟨hstop, heq⟩ := Validity.window?_eq_some_iff.1 hwindow
  obtain ⟨hstart, hend⟩ := Prod.mk.inj heq
  have hle : t.notBefore ≤ t.notAfter := by omega
  obtain ⟨hbefore, hafter⟩ := h.period_eq (by omega) hle (by omega)
  rw [hstart] at hbefore
  rw [hend] at hafter
  exact Certificate.validFor_of_eq hbefore hafter (by omega)

-- ================================================================= making

/-- What is made from 1970 on is valid from the second it was made in, and for as many days
as it was made for: the certificate of a new authority, and whatever a signer issues. -/
theorem validFor_of_made [Signatures] {now : Time.Instant} (hnow : 0 ≤ now.seconds) :
    (∀ hostname algorithm days draw a,
        Authority.generate hostname algorithm days now draw = .ok a →
          a.certificate.ValidFor now.seconds (now.seconds + 86400 * days))
      ∧ ∀ (s : Signer) request serial chain, s.issue request now serial = .ok chain →
          chain.leaf.ValidFor now.seconds (now.seconds + 86400 * s.days) := by
  constructor
  · intro hostname algorithm days draw a h
    obtain ⟨names, window, hfields, -, -, hwindow⟩ := Authority.ofTemplate_of_generate h
    exact hfields.validFor hnow hwindow
  · intro s request serial chain h
    obtain ⟨content, window, issuer, der, -, -, hwindow, -, hsign, hleaf, -⟩ :=
      Signer.issue_eq_ok h
    exact (Certificate.ofTemplate hsign rfl hleaf).1.validFor hnow hwindow

-- ============================================================ small samples

/-- A little before the end of the last year that is written with two digits. -/
def Time.Instant.small : Time.Instant := ⟨2524607999, 999999999⟩

/-- The small authority is valid for the first day of 1970, and what it issues in the last
second before the year 2050 for a day of that year. -/
theorem validFor_of_made_small :
    0 ≤ Time.Instant.small.seconds
      ∧ Authority.generate "h" .ed25519 1 ⟨0, 0⟩ ⟨[7], [1]⟩ = .ok .small
      ∧ Certificate.small.ValidFor 0 86400
      ∧ ∃ chain, Signer.small.issue .edwards .small [1] = .ok chain
        ∧ chain.leaf.ValidFor 2524607999 2524694399 := by
  have hnow : 0 ≤ Time.Instant.small.seconds := by decide
  have hstart : 0 ≤ (⟨0, 0⟩ : Time.Instant).seconds := Int.le_refl 0
  obtain ⟨hgenerated, -⟩ := validFor_of_made hstart
  obtain ⟨-, hissued⟩ := validFor_of_made hnow
  have hwindow : Validity.window? .small Signer.small.days = some (2524607999, 2524694399) := rfl
  obtain ⟨chain, hchain⟩ : ∃ chain, Signer.small.issue .edwards .small [1] = .ok chain :=
    Signer.exists_issue SigningRequest.verifySignature_edwards SigningRequest.content_edwards
      hwindow Signer.issuerEntries_small (by decide +kernel) (by decide)
  exact ⟨hnow, Authority.generate_small, hgenerated _ _ _ _ _ Authority.generate_small,
    chain, hchain, hissued _ _ _ _ hchain⟩

end Enrollment
