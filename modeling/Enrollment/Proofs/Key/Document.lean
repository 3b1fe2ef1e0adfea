/-
Key documents: a key pair that was made is read back from its document.

A document states the public key, and it is accepted only if the secret key
has just that one; so reading gives back the pair and not only its secret
part (`read?_writeCurve`, `read?_writeEdwards`).  All that is asked of the
library of signatures is that public keys are no longer than their forms
are (`Signatures.Sized`).
-/
import Enrollment.Crypto.Standard
import Enrollment.Proofs.Authority.Basic
import Enrollment.Proofs.Der.Strict

namespace Enrollment

/-- Public keys have the lengths of their forms: uncompressed points, and thirty-two
bytes on the Edwards curve. -/
structure Signatures.Sized [Signatures] : Prop where
  ecdsa : ∀ curve scalar, (Signatures.publicKey (.ecdsa curve scalar)).length
    = 1 + 2 * (Weierstrass.params curve).size
  ed25519 : ∀ seed, (Signatures.publicKey (.ed25519 seed)).length = 32

/-- The public keys of the curves have these lengths. -/
theorem Standard.sized : @Signatures.Sized signatures where
  ecdsa curve scalar := by
    show (Weierstrass.publicKey (Weierstrass.params curve) scalar).length = _
    simp only [Weierstrass.publicKey, List.cons_append, List.length_cons, List.length_append,
      Bytes.length_ofNat]
    omega
  ed25519 seed := by
    show (Edwards.publicKey seed).length = _
    simp only [Edwards.publicKey, Edwards.encode, Bytes.ofNatLE, List.length_reverse,
      Bytes.length_ofNat]

namespace KeyDocument

open Der

-- =============================================================== envelope

/-- A document of the first version is read as what it was made of. -/
theorem readEnvelope_first (parts : List Bytes) (secret : Bytes)
    (hparts : parts.flatten.length < 65536) (hsecret : secret.length < 65536)
    (hlen : [natural 0, Der.sequence parts, octets secret].flatten.length < 65536) :
    Strict.whole? readEnvelope (Der.sequence [natural 0, Der.sequence parts, octets secret])
      = some ⟨0, parts.flatten, secret, none⟩ := by
  have hoctets := Strict.readOctets_octets hsecret []
  rw [List.append_nil] at hoctets
  refine Strict.whole?_of_read (Strict.readNested_write (t := .compound TagNumber.sequence)
    (by decide) hlen ?_ [])
  simp only [Strict.whole?, List.flatten_cons, List.flatten_nil, List.append_nil,
    Strict.readNatural_zero, Strict.readSequence_sequence hparts, hoctets, Strict.readIf,
    List.head?_nil, Option.bind_eq_bind, Option.bind_some]
  rfl

/-- A document of the second version states the public key at its end. -/
theorem readEnvelope_second (parts : List Bytes) (secret key : Bytes)
    (hparts : parts.flatten.length < 65536) (hsecret : secret.length < 65536)
    (hkey : key.length + 1 < 65536)
    (hlen : [natural 1, Der.sequence parts, octets secret,
      Der.write (.context 1 false) (0 :: key)].flatten.length < 65536) :
    Strict.whole? readEnvelope (Der.sequence [natural 1, Der.sequence parts, octets secret,
        Der.write (.context 1 false) (0 :: key)])
      = some ⟨1, parts.flatten, secret, some key⟩ := by
  have hstated := Strict.read_write (t := .context 1 false) (c := 0 :: key) (by decide) hkey []
  have hattributes := Strict.readIf_write_ne (t := .context 1 false) (c := 0 :: key)
    (show (Tag.context 1 false).byte ≠ attributesTag by decide) []
  have hown : readOwnPublic (Der.write (.context 1 false) (0 :: key)) = some (key, []) := by
    have hhead : (Der.write (.context 1 false) (0 :: key)).head? ≠ some oldPublicTag := by
      show some (Tag.context 1 false).byte ≠ _
      decide
    rw [List.append_nil] at hstated
    have htag : (Tag.context 1 false).byte = ownPublicTag := by decide
    rw [htag] at hstated
    simp only [readOwnPublic, if_neg hhead, hstated, Option.bind_eq_bind, Option.bind_some]
    rfl
  rw [List.append_nil] at hattributes
  refine Strict.whole?_of_read (Strict.readNested_write (t := .compound TagNumber.sequence)
    (by decide) hlen ?_ [])
  simp only [Strict.whole?, List.flatten_cons, List.flatten_nil, List.append_nil,
    Strict.readNatural_one, Strict.readSequence_sequence hparts,
    Strict.readOctets_octets hsecret, hattributes, hown, Option.bind_eq_bind, Option.bind_some]
  rfl

-- ================================================================= curves

/-- The secret part of a document of a key on a curve. -/
def curveSecret (curve : Curve) (scalar : Nat) (key : Bytes) : Bytes :=
  Der.sequence [natural 1, octets (Bytes.ofNat (Weierstrass.params curve).size scalar),
    tagged 1 (bits key)]

theorem order_lt (curve : Curve) :
    (Weierstrass.params curve).order < 256 ^ (Weierstrass.params curve).size := by
  cases curve <;> decide

theorem size_le (curve : Curve) : (Weierstrass.params curve).size ≤ 48 := by
  cases curve <;> decide

/-- The parts of a secret part are short, and so is it. -/
theorem length_curveSecret {curve : Curve} {scalar : Nat} {key : Bytes} (hkey : key.length ≤ 97) :
    (bits key).length ≤ 102
      ∧ [natural 1, octets (Bytes.ofNat (Weierstrass.params curve).size scalar),
        tagged 1 (bits key)].flatten.length ≤ 200
      ∧ (curveSecret curve scalar key).length ≤ 204 := by
  have hsize := size_le curve
  have hbits : (bits key).length ≤ key.length + 1 + 4 :=
    Strict.length_write_le (.primitive TagNumber.bitString) (by rw [List.length_cons]; omega)
  have hscalar := Strict.length_write_le (.primitive TagNumber.octetString)
    (c := Bytes.ofNat (Weierstrass.params curve).size scalar)
    (by rw [Bytes.length_ofNat]; omega)
  have htagged := Strict.length_write_le (.context 1 true) (c := bits key) (by omega)
  have hone : (natural 1).length = 3 := by decide
  rw [Bytes.length_ofNat] at hscalar
  have hparts : [natural 1, octets (Bytes.ofNat (Weierstrass.params curve).size scalar),
      tagged 1 (bits key)].flatten.length ≤ 200 := by
    simp only [List.flatten_cons, List.flatten_nil, List.append_nil, List.length_append, hone,
      octets, tagged]
    omega
  have hwhole := Strict.length_write_le (.compound TagNumber.sequence)
    (Nat.lt_of_le_of_lt hparts (by decide))
  refine ⟨by omega, hparts, ?_⟩
  rw [curveSecret, Der.sequence]
  omega

-- ================================================================== kinds

variable [Signatures]

/-- The public key that is stated is the secret key's own. -/
theorem withPublic_own (secret : SecretKey) :
    withPublic secret (some (Signatures.publicKey secret))
      = some (secret, Signatures.publicKey secret) := by
  simp only [withPublic, if_true]

/-- A key on the Edwards curve is read from the parts that are written for it. -/
theorem edwards?_written {label seed : Bytes} (hseed : seed.length = 32) :
    edwards? ⟨1, label, octets seed, some (Signatures.publicKey (.ed25519 seed))⟩
      = some (.ed25519 seed, Signatures.publicKey (.ed25519 seed)) := by
  have hread : Strict.whole? (Strict.read Strict.octetStringTag) (octets seed) = some seed :=
    Strict.whole?_of_read (Strict.readOctets_octets (by omega) [])
  simp only [edwards?, hread, hseed, withPublic_own, Option.bind_eq_bind, Option.bind_some]
  rfl

theorem curve?_written {curve : Curve} {scalar : Nat} {key : Bytes} (label : Bytes)
    (hpos : 0 < scalar) (hlt : scalar < (Weierstrass.params curve).order)
    (hkey : key = Signatures.publicKey (.ecdsa curve scalar)) (hlen : key.length ≤ 97) :
    curve? curve ⟨0, label, curveSecret curve scalar key, none⟩
      = some (.ecdsa curve scalar, key) := by
  obtain ⟨hbits, hparts, -⟩ := @length_curveSecret curve scalar key hlen
  have hsize := size_le curve
  have hscalar : Bytes.toNat (Bytes.ofNat (Weierstrass.params curve).size scalar) = scalar := by
    rw [Bytes.toNat_ofNat, Nat.mod_eq_of_lt (Nat.lt_trans hlt (order_lt curve))]
  have hpoint := Strict.readNested_write (t := .context 1 true) (by decide)
    (Nat.lt_of_le_of_lt hbits (by decide))
    (Strict.whole?_of_read (Strict.readBits_bits (by omega) [])) []
  have hnamed := Strict.readIf_write_ne (t := .context 1 true) (c := bits key)
    (show (Tag.context 1 true).byte ≠ curveTag by decide) []
  have htag : (Tag.context 1 true).byte = pointTag := by decide
  rw [List.append_nil, htag] at hpoint
  rw [List.append_nil] at hnamed
  -- the secret is read first, and then it is asked whether it is one of the curve
  unfold curve?
  rw [if_neg (not_not.2 rfl)]
  refine Option.bind_eq_some_iff.2 ⟨(Bytes.ofNat (Weierstrass.params curve).size scalar, key),
    Strict.whole?_of_read (Strict.readNested_write (t := .compound TagNumber.sequence) (by decide)
      (Nat.lt_of_le_of_lt hparts (by decide)) ?_ []), ?_⟩
  · have hoctets := Strict.readOctets_octets
      (c := Bytes.ofNat (Weierstrass.params curve).size scalar) (by rw [Bytes.length_ofNat]; omega)
    simp only [Strict.whole?, List.flatten_cons, List.flatten_nil, List.append_nil,
      Strict.readNatural_one, hoctets, tagged, hnamed, hpoint, Option.bind_eq_bind,
      Option.bind_some]
    rfl
  · have hsmall : ¬((Bytes.ofNat (Weierstrass.params curve).size scalar).length
        ≠ (Weierstrass.params curve).size ∨ scalar = 0
        ∨ (Weierstrass.params curve).order ≤ scalar) := by
      rw [Bytes.length_ofNat]
      omega
    simp only [hscalar]
    rw [if_neg hsmall, hkey]
    exact withPublic_own _

-- ============================================================== documents

/-- A document of a key on the Edwards curve is read back as the key. -/
theorem read?_writeEdwards {seed : Bytes} (hseed : seed.length = 32)
    (hkey : (Signatures.publicKey (.ed25519 seed)).length = 32) :
    read? (writeEdwards seed (Signatures.publicKey (.ed25519 seed)))
      = some (.ed25519 seed, Signatures.publicKey (.ed25519 seed)) := by
  have hlabel : KeyKind.ed25519.labelParts.flatten.length = 5 := by decide
  have hinner := Strict.length_write_le (.primitive TagNumber.octetString)
    (c := seed) (by omega)
  have hsecret := Strict.length_write_le (.primitive TagNumber.octetString)
    (c := octets seed) (by rw [octets]; omega)
  have hstated := Strict.length_write_le (.context 1 false)
    (c := 0 :: Signatures.publicKey (.ed25519 seed)) (by rw [List.length_cons]; omega)
  have hnamed := Strict.length_write_le (.compound TagNumber.sequence)
    (c := KeyKind.ed25519.labelParts.flatten) (by omega)
  have hone : (natural 1).length = 3 := by decide
  rw [List.length_cons] at hstated
  have henvelope := readEnvelope_second KeyKind.ed25519.labelParts (octets seed)
    (Signatures.publicKey (.ed25519 seed)) (by omega) (by rw [octets]; omega) (by omega) (by
      simp only [List.flatten_cons, List.flatten_nil, List.append_nil, List.length_append, hone,
        Der.sequence, octets] at hinner hsecret ⊢
      omega)
  rw [read?, writeEdwards, henvelope]
  exact edwards?_written hseed

theorem read?_writeCurve {curve : Curve} {scalar : Nat} (hpos : 0 < scalar)
    (hlt : scalar < (Weierstrass.params curve).order)
    (hkey : (Signatures.publicKey (.ecdsa curve scalar)).length ≤ 97) :
    read? (writeCurve curve scalar (Signatures.publicKey (.ecdsa curve scalar)))
      = some (.ecdsa curve scalar, Signatures.publicKey (.ecdsa curve scalar)) := by
  obtain ⟨-, -, hsecret⟩ := @length_curveSecret curve scalar _ hkey
  have hlabel : (KeyKind.ec curve).labelParts.flatten.length ≤ 20 := by cases curve <;> decide
  have hnamed := Strict.length_write_le (.compound TagNumber.sequence)
    (c := (KeyKind.ec curve).labelParts.flatten) (by omega)
  have hoctets := Strict.length_write_le (.primitive TagNumber.octetString)
    (c := curveSecret curve scalar (Signatures.publicKey (.ecdsa curve scalar))) (by omega)
  have hzero : (natural 0).length = 3 := by decide
  have henvelope := readEnvelope_first (KeyKind.ec curve).labelParts
    (curveSecret curve scalar (Signatures.publicKey (.ecdsa curve scalar))) (by omega) (by omega) (by
      simp only [List.flatten_cons, List.flatten_nil, List.append_nil, List.length_append, hzero,
        Der.sequence, octets] at hnamed hoctets ⊢
      omega)
  have hwritten : writeCurve curve scalar (Signatures.publicKey (.ecdsa curve scalar))
      = Der.sequence [natural 0, Der.sequence (KeyKind.ec curve).labelParts,
        octets (curveSecret curve scalar (Signatures.publicKey (.ecdsa curve scalar)))] := rfl
  have hcurve := curve?_written (KeyKind.ec curve).labelParts.flatten hpos hlt rfl hkey
  rw [read?, hwritten, henvelope]
  simp only [Option.bind_eq_bind, Option.bind_some]
  -- the label tells the curve
  have hown : ∀ kind : KeyKind, kind.labelParts.flatten = labelOf kind := fun _ => rfl
  cases curve with
  | p256 => rw [if_neg (by decide), if_pos (hown (.ec .p256)), hcurve]
  | p384 => rw [if_neg (by decide), if_neg (by decide), if_pos (hown (.ec .p384)), hcurve]

end KeyDocument

namespace KeyPair

/-- No draw leads to the scalar zero. -/
theorem scalarOf_pos (curve : Curve) (draw : Bytes) : 0 < scalarOf curve draw := by
  unfold scalarOf
  omega

theorem scalarOf_lt (curve : Curve) (draw : Bytes) :
    scalarOf curve draw < (Weierstrass.params curve).order := by
  have hone : 1 < (Weierstrass.params curve).order := by cases curve <;> decide
  have hmod : Bytes.toNat draw % ((Weierstrass.params curve).order - 1)
      < (Weierstrass.params curve).order - 1 := Nat.mod_lt _ (by omega)
  unfold scalarOf
  omega

variable [Signatures]

/-- A fresh key pair is read back from its document. -/
theorem ofDocument?_generate (hsized : Signatures.Sized) (algorithm : KeyAlgorithm) (draw : Bytes) :
    ofDocument? (generate algorithm draw).document = some (generate algorithm draw) := by
  have hcurve : ∀ curve, ofDocument? (generateCurve curve draw).document
      = some (generateCurve curve draw) := by
    intro curve
    have hlen := hsized.ecdsa curve (scalarOf curve draw)
    have hsize := KeyDocument.size_le curve
    have hread := KeyDocument.read?_writeCurve (scalarOf_pos curve draw) (scalarOf_lt curve draw)
      (by omega)
    simp only [ofDocument?, generateCurve, hread, Option.map_some]
  cases algorithm with
  | ecdsaP256 => exact hcurve .p256
  | ecdsaP384 => exact hcurve .p384
  | ed25519 =>
    have hread := KeyDocument.read?_writeEdwards (Bytes.length_ofNat 32 (Bytes.toNat draw))
      (hsized.ed25519 _)
    simp only [ofDocument?, generate, hread, Option.map_some]

/-- A key that is made is one for the algorithm that was asked for. -/
theorem algorithm?_generate (algorithm : KeyAlgorithm) (draw : Bytes) :
    (generate algorithm draw).algorithm? = some algorithm := by
  cases algorithm <;> rfl

end KeyPair

end Enrollment
