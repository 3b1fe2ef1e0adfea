/-
Times of validity: a certificate that is made for the seconds from one to another is
valid from the one to the other.

Both ends are read back from the certificate as they went into its template
(`OfTemplate.period_eq`), in the form that their years need.  So no two points in time
that are compared differ in form alone, and a point in time lies in front of the time
of validity, in it or behind it as its seconds do (`positionAt_eq`).
-/
import Enrollment.Certificate.Period
import Enrollment.Proofs.Certificate.Readable

namespace Enrollment

open Der

namespace Certificate

variable {c : Certificate} {start stop : Int}

/-- The position of a point in time, when both ends are whole seconds. -/
theorem positionAt_eq (hstart : c.fields.notBefore = .ofSeconds start)
    (hstop : c.fields.notAfter = .ofSeconds stop) (p : Time.Instant) :
    c.positionAt p
      = if p.seconds < start then .notYetValid (.ofSeconds start)
        else if stop < p.seconds ∨ (stop = p.seconds ∧ 0 < p.nanos) then .expired (.ofSeconds stop)
        else .current := by
  rw [positionAt, hstart, hstop]
  simp only [ZonedTime.follows_ofSeconds, ZonedTime.precedes_ofSeconds]

/-- Before, after or within: where a second lies, for a period of whole seconds. -/
theorem positionAt_second (hstart : c.fields.notBefore = .ofSeconds start)
    (hstop : c.fields.notAfter = .ofSeconds stop) (x : Int) :
    c.positionAt ⟨x, 0⟩
      = if x < start then .notYetValid (.ofSeconds start)
        else if stop < x then .expired (.ofSeconds stop)
        else .current := by
  rw [positionAt_eq hstart hstop]
  simp only [Nat.lt_irrefl, and_false, or_false]

/-- The certificate is valid from one second to another.  Its fields are those that its
bytes are read as. -/
structure ValidFor (c : Certificate) (start stop : Int) : Prop where
  notBefore : c.fields.notBefore = .ofSeconds start
  notAfter : c.fields.notAfter = .ofSeconds stop
  current : ∀ x, c.positionAt ⟨x, 0⟩ = .current ↔ start ≤ x ∧ x ≤ stop
  notYetValid : ∀ x, c.positionAt ⟨x, 0⟩ = .notYetValid (.ofSeconds start) ↔ x < start
  expired : ∀ x, c.positionAt ⟨x, 0⟩ = .expired (.ofSeconds stop) ↔ stop < x
  /-- A point within a second lies where the second does, and behind the last one. -/
  within : ∀ p, c.positionAt p
    = if p.seconds = stop ∧ 0 < p.nanos then .expired (.ofSeconds stop)
      else c.positionAt ⟨p.seconds, 0⟩

/-- A certificate is valid for the period that is written in it. -/
theorem validFor_of_eq (hstart : c.fields.notBefore = .ofSeconds start)
    (hstop : c.fields.notAfter = .ofSeconds stop) (hle : start ≤ stop) :
    c.ValidFor start stop where
  notBefore := hstart
  notAfter := hstop
  current := by
    intro x
    rw [positionAt_second hstart hstop]
    split
    case isTrue hbefore => exact ⟨fun h => (nomatch h), fun h => absurd hbefore (by omega)⟩
    case isFalse hbegun =>
      split
      case isTrue hover => exact ⟨fun h => (nomatch h), fun h => absurd hover (by omega)⟩
      case isFalse hnot => exact ⟨fun _ => by omega, fun _ => rfl⟩
  notYetValid := by
    intro x
    rw [positionAt_second hstart hstop]
    split
    case isTrue hbefore => exact ⟨fun _ => hbefore, fun _ => rfl⟩
    case isFalse hbegun =>
      split
      case isTrue hover => exact ⟨fun h => (nomatch h), fun h => absurd h hbegun⟩
      case isFalse hnot => exact ⟨fun h => (nomatch h), fun h => absurd h hbegun⟩
  expired := by
    intro x
    rw [positionAt_second hstart hstop]
    split
    case isTrue hbefore => exact ⟨fun h => (nomatch h), fun h => absurd hbefore (by omega)⟩
    case isFalse hbegun =>
      split
      case isTrue hover => exact ⟨fun _ => hover, fun _ => rfl⟩
      case isFalse hnot => exact ⟨fun h => (nomatch h), fun h => absurd h hnot⟩
  within := by
    intro p
    rw [positionAt_eq hstart hstop, positionAt_second hstart hstop]
    split_ifs <;> first | rfl | omega

/-- A certificate is valid for the time that its template says. -/
theorem Fields.OfTemplate.period_eq {t : Template} {label : Bytes} {f : Fields}
    (h : f.OfTemplate t label) (h0 : 0 ≤ t.notBefore) (hle : t.notBefore ≤ t.notAfter)
    (hstop : t.notAfter ≤ Time.lastSecond) :
    f.notBefore = .ofSeconds t.notBefore ∧ f.notAfter = .ofSeconds t.notAfter := by
  obtain ⟨issuer, subject, -, -, hfit⟩ := h.exists_parts
  have hread := readValidity_write (Int.le_trans hle hstop) hstop hfit.validity []
  rw [List.append_nil, ZonedTime.readBack_eq h0, ZonedTime.readBack_eq (Int.le_trans h0 hle)]
    at hread
  have hsame := h.validity.symm.trans hread
  simp only [Option.some.injEq, Prod.mk.injEq, and_true] at hsame
  exact hsame

end Certificate

end Enrollment
