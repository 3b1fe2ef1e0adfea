/-
Serial numbers: what a certificate has of the sixteen bytes that were drawn for it.

The number of a draw is that of its bytes with the highest bit cleared, so it has room in
sixteen bytes with the sign bit clear, and two draws share it only if they differ in no
other bit (`Serial.ofDraw_eq_iff`).  Nothing of this is lost on the way into a certificate
and back: its serial number is read back as the contents that are written for the number
of the draw (`MadeWith.serial_eq`), whoever made it.
-/
import Enrollment.Proofs.Authority.Signer
import Enrollment.Proofs.Der.Integer

namespace Enrollment

open Der

/-- The serial number of a certificate has the contents of its template's number. -/
theorem Certificate.Fields.OfTemplate.serial_eq {f : Certificate.Fields} {t : Template}
    {label : Bytes} (h : f.OfTemplate t label) : f.serial = contentsOf t.serial := by
  obtain ⟨issuer, subject, -, -, hfit⟩ := h.exists_parts
  have hserialLen := hfit.serial
  have hwritten := h.serial
  have hreadLen := hserialLen
  rw [hwritten] at hreadLen
  rw [natural_eq] at hserialLen hwritten
  exact (contents_eq_of_write_eq (by decide) (Nat.lt_trans (length_lt_write _ _) hserialLen)
    (Nat.lt_trans (length_lt_write _ _) hreadLen) hwritten).symm

-- ================================================================== draws

namespace Serial

/-- The bytes of a draw with the highest bit of the first one cleared. -/
def clearHighest : Bytes → Bytes
  | [] => []
  | b :: bs => (b &&& 0x7F) :: bs

variable {draw draw' : Bytes}

/-- The number of a draw is that of its bytes, without the highest bit. -/
theorem ofDraw_eq (h : draw.length = 16) : ofDraw draw = Bytes.toNat (clearHighest draw) := by
  cases draw with
  | nil => cases h
  | cons b bs =>
    have hlength : bs.length = 15 := Nat.succ.inj h
    have hrest := Bytes.toNat_lt bs
    have hand : (b &&& 0x7F).toNat = b.toNat % 128 := by
      rw [UInt8.toNat_and]
      exact Nat.and_two_pow_sub_one_eq_mod b.toNat 7
    rw [hlength] at hrest
    rw [ofDraw, drawLength, clearHighest, Bytes.toNat_cons, Bytes.toNat_cons, hand, hlength]
    omega

theorem ofDraw_lt (draw : Bytes) : ofDraw draw < 2 ^ 127 := Nat.mod_lt _ (by decide)

/-- The number of a draw has the bits of the draw below the highest. -/
theorem ofDraw_eq_iff :
    ofDraw draw = ofDraw draw'
      ↔ ∀ i < 127, (Bytes.toNat draw).testBit i = (Bytes.toNat draw').testBit i := by
  have hbit : ∀ (d : Bytes) (i : Nat),
      (ofDraw d).testBit i = (decide (i < 127) && (Bytes.toNat d).testBit i) := fun d i =>
    Nat.testBit_mod_two_pow (Bytes.toNat d) 127 i
  constructor
  · intro h i hi
    have heq := (hbit draw i).symm.trans ((congrArg (Nat.testBit · i) h).trans (hbit draw' i))
    rwa [decide_eq_true hi, Bool.true_and, Bool.true_and] at heq
  · intro h
    refine Nat.eq_of_testBit_eq fun i => ?_
    rw [hbit, hbit]
    by_cases hi : i < 127
    · rw [h i hi]
    · rw [decide_eq_false hi, Bool.false_and, Bool.false_and]

end Serial

-- ================================================================= making

/-- Certificates that are made with a draw: that of a new authority, and what is issued. -/
inductive Certificate.MadeWith [Signatures] (draw : Bytes) : Certificate → Prop
  | authority {hostname : String} {algorithm : KeyAlgorithm} {days : Nat} {now : Time.Instant}
      {key : Bytes} {a : Authority}
      (h : Authority.generate hostname algorithm days now ⟨key, draw⟩ = .ok a) :
      MadeWith draw a.certificate
  | issued {s : Signer} {request : SigningRequest} {now : Time.Instant} {chain : Chain}
      (h : s.issue request now draw = .ok chain) : MadeWith draw chain.leaf

section

variable [Signatures] {draw draw' : Bytes} {c : Certificate}

/-- The serial number is written as the number of the draw. -/
theorem Certificate.MadeWith.serial_eq (h : c.MadeWith draw) :
    c.fields.serial = contentsOf (Serial.ofDraw draw) := by
  cases h with
  | authority h =>
    obtain ⟨names, window, hfields, -⟩ := Authority.ofTemplate_of_generate h
    exact hfields.serial_eq
  | issued h =>
    obtain ⟨content, window, issuer, der, -, -, -, -, hsign, hleaf, -⟩ := Signer.issue_eq_ok h
    exact (Certificate.ofTemplate hsign rfl hleaf).1.serial_eq

/-- Of a draw nothing counts but its number. -/
theorem Authority.generate_congr (h : Serial.ofDraw draw = Serial.ofDraw draw')
    (hostname : String) (algorithm : KeyAlgorithm) (days : Nat) (now : Time.Instant)
    (key : Bytes) :
    generate hostname algorithm days now ⟨key, draw⟩
      = generate hostname algorithm days now ⟨key, draw'⟩ := by
  simp only [generate, templateOf, h]

/-- Whatever sixteen bytes are drawn, the certificate that is made with them has a serial
number of one to sixteen bytes in the shortest form, which is positive or zero and spells
the draw with its highest bit cleared.  Two certificates have different serial numbers, as
these are shown, exactly if their draws differ in a bit below the highest. -/
theorem serial_of_made (hlength : draw.length = 16) (h : c.MadeWith draw) :
    (∃ f rest, Certificate.Fields.read c.der = some (f, rest)
        ∧ 1 ≤ f.serial.length ∧ f.serial.length ≤ 16
        ∧ Encodes f.serial (Bytes.toNat (Serial.clearHighest draw))
        ∧ c.serial = f.serial.toHex)
      ∧ ∀ draw' c', Certificate.MadeWith draw' c' →
        (c.serial ≠ c'.serial
          ↔ ∃ i < 127, (Bytes.toNat draw).testBit i ≠ (Bytes.toNat draw').testBit i) := by
  constructor
  · obtain ⟨rest, hread⟩ := c.read_eq_some
    have hencodes := encodes_contentsOf (Serial.ofDraw draw)
    have hle : (contentsOf (Serial.ofDraw draw)).length ≤ 15 + 1 :=
      length_contentsOf_le (Serial.ofDraw_lt draw)
    rw [← h.serial_eq] at hencodes hle
    rw [Serial.ofDraw_eq hlength] at hencodes
    exact ⟨c.fields, rest, hread, hencodes.length_pos, hle, hencodes, rfl⟩
  · intro draw' c' h'
    have hsame : c.serial = c'.serial ↔ Serial.ofDraw draw = Serial.ofDraw draw' := by
      rw [Certificate.serial, Certificate.serial, Bytes.toHex_injective.eq_iff, h.serial_eq,
        h'.serial_eq]
      exact ⟨contentsOf_injective, congrArg contentsOf⟩
    rw [ne_eq, hsame, Serial.ofDraw_eq_iff]
    simp only [not_forall, exists_prop, ne_eq]

end

-- =========================================================== small samples

/-- A draw whose highest bit is lost on its number. -/
def Serial.highDraw : Bytes := 0x80 :: List.replicate 14 0 ++ [1]

/-- A draw whose number needs a byte of zeros in front. -/
def Serial.lowDraw : Bytes := List.replicate 15 0 ++ [0x80]

/-- The one draw gives the small authority its number, which is one, and the other a
certificate that is issued a number of two bytes. -/
theorem serial_of_made_small :
    Serial.highDraw.length = 16 ∧ Serial.lowDraw.length = 16
      ∧ Certificate.small.MadeWith Serial.highDraw
      ∧ ∃ chain, Signer.small.issue .edwards ⟨0, 0⟩ Serial.lowDraw = .ok chain
        ∧ chain.leaf.MadeWith Serial.lowDraw ∧ chain.leaf.fields.serial = [0, 0x80]
        ∧ Certificate.small.serial ≠ chain.leaf.serial := by
  have hdraw : Serial.ofDraw Serial.highDraw = Serial.ofDraw [1] := by decide +kernel
  have hsmall : Certificate.small.MadeWith Serial.highDraw :=
    .authority ((Authority.generate_congr hdraw _ _ _ _ _).trans Authority.generate_small)
  have hwindow : Validity.window? ⟨0, 0⟩ Signer.small.days = some (0, 86400) := rfl
  obtain ⟨chain, hissue⟩ : ∃ chain, Signer.small.issue .edwards ⟨0, 0⟩ Serial.lowDraw = .ok chain :=
    Signer.exists_issue SigningRequest.verifySignature_edwards SigningRequest.content_edwards
      hwindow Signer.issuerEntries_small (by decide +kernel) (by decide)
  have hissued : chain.leaf.MadeWith Serial.lowDraw := .issued hissue
  obtain ⟨-, hdiffer⟩ := serial_of_made rfl hsmall
  refine ⟨rfl, rfl, hsmall, chain, hissue, hissued, ?_, ?_⟩
  · rw [hissued.serial_eq]
    decide +kernel
  · exact (hdiffer _ _ hissued).2 ⟨0, by decide, by decide +kernel⟩

end Enrollment
