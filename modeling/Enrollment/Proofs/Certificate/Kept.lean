/-
Chains as they are kept: every answer comes, and it is that of the chain.

The bytes of a certificate were read when it was made, so they are read whenever they are
asked (`Kept.fields_kept`), and of what is asked for nothing fails but a signature
(`answers`).  A chain has a first certificate, and no place is looked at behind its last
(`Kept.validateLinks_kept`).

Both rest on how chains are made.  Whatever was made before, a chain is made exactly of one
to eight byte strings in the order that they are given in, each of a size that is allowed
and read as a certificate (`Making.perform_eq_ok_iff`); and so are all chains that were made one
after the other (`run_sound`).
-/
import Enrollment.Certificate.Kept
import Enrollment.Proofs.Authority.Readiness
import Enrollment.Proofs.Certificate.Conditions
import Mathlib.Data.Set.List

namespace Enrollment

-- =========================================================== certificates

namespace Certificate

/-- The bytes of a certificate that was made can be read again, as what they were read as. -/
theorem Kept.fields_kept (c : Certificate) : c.kept.fields = .ok c.fields := by
  obtain ⟨rest, hread⟩ := c.read_eq_some
  have hkept : c.kept.der = c.der := rfl
  rw [Kept.fields, hkept, hread]

theorem kept_injective : Function.Injective kept := fun _ _ h =>
  ext_der (congrArg Kept.der h)

/-- Bytes of a size that is allowed which can be read are those of a certificate. -/
theorem exists_kept {k : Kept} {fields : Fields} (hsize : k.der.length ≤ 16384)
    (h : k.fields = .ok fields) : ∃ c : Certificate, c.kept = k := by
  unfold Kept.fields at h
  split at h
  case h_1 found rest hread =>
    have hfound : (Fields.read k.der).map (·.1) = some found := by rw [hread]; rfl
    exact ⟨⟨k.der, found, hsize, hfound⟩, rfl⟩
  case h_2 => cases h

/-- What is asked of a certificate has an answer, and only a signature can be wrong. -/
structure Answers [Signatures] (c : Certificate) : Prop where
  subject : c.kept.subject = .ok c.subject
  issuer : c.kept.issuer = .ok c.issuer
  commonName : c.kept.commonName = .ok c.commonName
  publicKey : c.kept.publicKey = .ok c.publicKey
  serial : c.kept.serial = .ok c.serial
  verifySignedBy : ∀ issuer : Certificate,
    c.kept.verifySignedBy issuer.kept = c.verifySignedBy issuer
  security : ∀ (issuer : Certificate) (failure : Failure),
    c.kept.verifySignedBy issuer.kept = .error failure → failure.kind = .security

variable [Signatures]

/-- Verifying the bytes of two certificates comes to the same as verifying the two. -/
theorem Kept.verifySignedBy_kept (c issuer : Certificate) :
    c.kept.verifySignedBy issuer.kept = c.verifySignedBy issuer := by
  rw [Kept.verifySignedBy, fields_kept, fields_kept]
  rfl

theorem Kept.verifySelfSigned_kept (c : Certificate) :
    c.kept.verifySelfSigned = c.verifySelfSigned := by
  rw [Kept.verifySelfSigned, fields_kept]
  rfl

/-- Whatever a certificate that was made is asked, there is an answer. -/
theorem answers (c : Certificate) : c.Answers where
  subject := by rw [Kept.subject, Kept.fields_kept]; rfl
  issuer := by rw [Kept.issuer, Kept.fields_kept]; rfl
  commonName := by rw [Kept.commonName, Kept.fields_kept]; rfl
  publicKey := by rw [Kept.publicKey, Kept.fields_kept]; rfl
  serial := by rw [Kept.serial, Kept.fields_kept]; rfl
  verifySignedBy := Kept.verifySignedBy_kept c
  security := by
    intro issuer failure h
    rw [Kept.verifySignedBy_kept] at h
    obtain ⟨fault, -, rfl⟩ := mapError_eq_error h
    rfl

end Certificate

-- ================================================================= chains

namespace Chain

namespace Kept

variable {α β : Type}

theorem Stop.lift_bind (x : Except Failure α) (f : α → Except Failure β) :
    lift (x >>= f) = lift x >>= fun a => lift (f a) := by
  cases x <;> rfl

theorem Stop.lift_ok (a : α) : lift (.ok a) = .ok a := rfl

/-- No place within a chain is missing. -/
theorem certificate_map (front : List Certificate) (x : Certificate) (back : List Certificate) :
    (⟨(front ++ x :: back).map Certificate.kept⟩ : Kept).certificate front.length
      = .ok x.kept := by
  simp [certificate]

variable [Signatures]

/-- A link is checked at its place as it is between its two certificates. -/
theorem checkLink_map {front back : List Certificate} {child parent : Certificate} :
    (⟨(front ++ child :: parent :: back).map Certificate.kept⟩ : Kept).checkLink front.length
      = Stop.lift (Chain.checkLink child parent) := by
  have hchild := certificate_map front child (parent :: back)
  have hparent := certificate_map (front ++ [child]) parent back
  rw [List.append_assoc, List.singleton_append, List.length_append, List.length_singleton]
    at hparent
  have hissuer := (Certificate.answers child).issuer
  have hsubject := (Certificate.answers parent).subject
  have hverify := (Certificate.answers child).verifySignedBy parent
  simp only [checkLink, hchild, hparent, hissuer, hsubject, hverify, Stop.lift_ok, ok_bind]
  by_cases hname : child.issuer = parent.subject
  · rw [if_neg (not_not.2 hname), Chain.checkLink_of_eq hname]
  · rw [if_pos hname, Chain.checkLink_of_ne hname]
    rfl

/-- So is the last certificate. -/
theorem checkLast_map {front : List Certificate} {last : Certificate} :
    (⟨(front ++ [last]).map Certificate.kept⟩ : Kept).checkLast
      = Stop.lift (if last.isSelfIssued then last.verifySelfSigned else .ok ()) := by
  have hlast := certificate_map front last []
  have hplace : ((front ++ [last]).map Certificate.kept).length - 1 = front.length := by
    rw [List.length_map, List.length_append, List.length_singleton, Nat.add_sub_cancel]
  have hself : last.kept.isSelfIssued = .ok last.isSelfIssued := by
    rw [Certificate.Kept.isSelfIssued, Certificate.Kept.fields_kept]
    rfl
  have hverify := Certificate.Kept.verifySelfSigned_kept last
  simp only [checkLast, hplace, hlast, hself, hverify, Stop.lift_ok, ok_bind]
  cases last.isSelfIssued <;> rfl

/-- The links from a place on are checked as they are from the certificate that is there.
The induction is on what follows; what is in front only moves the place. -/
theorem checkFrom_map (front : List Certificate) (first : Certificate)
    (others : List Certificate) :
    (forM (List.range' front.length others.length)
        (⟨(front ++ first :: others).map Certificate.kept⟩ : Kept).checkLink
      >>= fun _ => (⟨(front ++ first :: others).map Certificate.kept⟩ : Kept).checkLast)
      = Stop.lift (checkFrom first others) := by
  induction others generalizing front first with
  | nil =>
    rw [checkFrom, ← checkLast_map]
    rfl
  | cons parent rest ih =>
    have hrest := ih (front ++ [first]) parent
    rw [List.length_append, List.length_singleton, List.append_assoc, List.singleton_append]
      at hrest
    rw [List.length_cons, List.range'_succ, List.forM_cons, checkLink_map, bind_assoc, hrest,
      checkFrom, Stop.lift_bind]

end Kept

section

variable [Signatures]

/-- Validating a chain in its bytes and places comes to the same as validating its links. -/
theorem Kept.validateLinks_kept (c : Chain) :
    c.kept.validateLinks = Stop.lift c.validateLinks := by
  have hlength : c.kept.certificates.length - 1 = c.issuers.length := by
    rw [kept, toList, List.length_map, List.length_cons, Nat.add_sub_cancel]
  have hfrom := checkFrom_map [] c.leaf c.issuers
  rw [validateLinks, hlength, List.range_eq_range']
  exact hfrom

/-- What is asked of a chain has an answer, which no missing place and no bytes keep from
coming. -/
structure Answers (c : Chain) : Prop where
  leaf : c.kept.leaf = .ok c.leaf.kept
  issuers : c.kept.issuers = .ok (c.issuers.map Certificate.kept)
  validateLinks : c.kept.validateLinks = Kept.Stop.lift c.validateLinks
  security : ∀ stop, c.kept.validateLinks = .error stop →
    ∃ failure, stop = .failed failure ∧ failure.kind = .security
  certificates : ∀ x ∈ c.toList, x.Answers

/-- Whatever a chain that was made is asked, there is an answer. -/
theorem answers (c : Chain) : c.Answers where
  leaf := rfl
  issuers := rfl
  validateLinks := Kept.validateLinks_kept c
  security := by
    intro stop h
    rw [Kept.validateLinks_kept] at h
    obtain ⟨failure, hfailure, rfl⟩ := mapError_eq_error h
    have ⟨_, _, _, _, _, hreports⟩ := validateLinks_eq_error_iff.1 hfailure
    exact ⟨failure, rfl, hreports.kind_eq⟩
  certificates := fun x _ => x.answers

end

-- ============================================================ well-formed

/-- One to eight certificates, each of a size that is allowed and read as one. -/
structure Kept.WellFormed (k : Kept) : Prop where
  length_pos : 1 ≤ k.certificates.length
  length_le : k.certificates.length ≤ 8
  size_le : ∀ x ∈ k.certificates, x.der.length ≤ 16384
  readable : ∀ x ∈ k.certificates, ∃ fields, x.fields = .ok fields

/-- A chain is kept in a form in which it was allowed to be made. -/
theorem wellFormed_kept (c : Chain) : c.kept.WellFormed where
  length_pos := Nat.le_add_left 1 _
  length_le := by
    have hlength : c.kept.certificates.length = c.issuers.length + 1 := List.length_map _
    rw [hlength]
    exact c.length_le
  size_le := List.forall_mem_map.2 fun x _ => x.der_length_le
  readable := List.forall_mem_map.2 fun x _ => ⟨x.fields, Certificate.Kept.fields_kept x⟩

/-- What is kept is a chain if it is well-formed. -/
theorem exists_kept_iff {k : Kept} : (∃ c : Chain, c.kept = k) ↔ k.WellFormed := by
  constructor
  · rintro ⟨c, rfl⟩
    exact c.wellFormed_kept
  · intro h
    have hrange : ∀ x ∈ k.certificates, x ∈ Set.range Certificate.kept := fun x hx => by
      obtain ⟨fields, hfields⟩ := h.readable x hx
      exact Certificate.exists_kept (h.size_le x hx) hfields
    obtain ⟨certificates, hlist⟩ := (Set.range_list_map Certificate.kept).ge hrange
    have hlength := congrArg List.length hlist
    rw [List.length_map] at hlength
    have hpos : certificates ≠ [] := List.length_pos_iff.1 (hlength ▸ h.length_pos)
    obtain ⟨c, rfl⟩ := exists_toList_eq hpos (hlength ▸ h.length_le)
    exact ⟨c, congrArg Kept.mk hlist⟩

-- ================================================================= making

/-- A source gives the bytes that a certificate is to be kept as. -/
def Source.Gives (k : Certificate.Kept) : Source → Prop
  | der bytes => k.der = bytes
  | pem text => ∃ block, Pem.parse text = .ok block ∧ block.tag = "CERTIFICATE"
      ∧ k.der = block.contents

/-- A certificate is made of a source exactly when the source gives its bytes. -/
theorem Source.certificate_eq_ok_iff {s : Source} {c : Certificate} :
    s.certificate = .ok c ↔ s.Gives c.kept := by
  cases s with
  | der bytes => exact Certificate.ofDer_eq_ok_iff
  | pem text => exact Certificate.ofPem_eq_ok_iff

namespace Making

/-- What is given to make a chain of, in its order, where some chains were made before. -/
def Gives (made : List Chain) (k : Kept) : Making → Prop
  | ofList certificates => List.Forall₂ (fun s x => s.Gives x) certificates k.certificates
  | ofPem text => ∃ blocks, Pem.parseMany text = .ok blocks
      ∧ k.certificates
        = (blocks.filter (·.tag == "CERTIFICATE")).map fun block => ⟨block.contents⟩
  | ofDers ders => k.certificates = ders.map Certificate.Kept.mk
  | prepend place leaf => ∃ c x, made[place]? = some c ∧ leaf.Gives x
      ∧ k.certificates = x :: c.kept.certificates

variable {made : List Chain} {c : Chain} {m : Making}

/-- A chain is kept as the bytes of its certificates. -/
theorem certificates_kept_eq_iff {ders : List Bytes} :
    c.kept.certificates = ders.map Certificate.Kept.mk ↔ c.toList.map (·.der) = ders := by
  have hkept : c.kept.certificates = (c.toList.map (·.der)).map Certificate.Kept.mk :=
    (List.map_map ..).symm
  have hinjective : Function.Injective Certificate.Kept.mk := fun _ _ h =>
    Certificate.Kept.mk.inj h
  rw [hkept, hinjective.list_map.eq_iff]

/-- A chain is made exactly of what is given. -/
theorem perform_eq_ok_iff : m.perform made = some (.ok c) ↔ m.Gives made c.kept := by
  cases m with
  | ofList certificates =>
    have hgives : Gives made c.kept (.ofList certificates)
        ↔ certificates.mapM Source.certificate = .ok c.toList := by
      simp only [mapM_eq_ok_iff, Source.certificate_eq_ok_iff]
      exact List.forall₂_map_right_iff
    rw [hgives, perform, Option.some.injEq]
    constructor
    · intro h
      obtain ⟨read, hread, hlist⟩ := bind_eq_ok h
      rw [hread, ofList_eq_ok_iff.1 hlist]
    · intro h
      rw [h]
      exact ofList_toList c
  | ofPem text =>
    rw [perform, Option.some.injEq, Gives, Chain.ofPem_eq_ok_iff]
    refine exists_congr fun blocks => and_congr_right fun _ => ?_
    rw [← certificates_kept_eq_iff, List.map_map]
    rfl
  | ofDers ders =>
    rw [perform, Option.some.injEq, Gives, Chain.ofDers_eq_ok_iff, certificates_kept_eq_iff]
  | prepend place leaf =>
    -- the chain in front of which it comes may be missing, and the leaf may not be read
    rw [perform, Gives]
    constructor
    · intro h
      obtain ⟨d, hd, h⟩ := Option.map_eq_some_iff.1 h
      obtain ⟨x, hx, hprepend⟩ := bind_eq_ok h
      exact ⟨d, x.kept, hd, Source.certificate_eq_ok_iff.1 hx,
        congrArg (List.map Certificate.kept) (ofList_eq_ok_iff.1 hprepend)⟩
    · rintro ⟨d, x, hd, hx, hkept⟩
      obtain ⟨hleaf, hissuers⟩ := List.cons.inj hkept
      rw [← hleaf, ← Source.certificate_eq_ok_iff] at hx
      have hlist : c.toList = c.leaf :: d.toList :=
        congrArg (c.leaf :: ·) (Certificate.kept_injective.list_map hissuers)
      rw [hd, Option.map_some, hx]
      exact congrArg some (ofList_eq_ok_iff.2 hlist)

-- ================================================================ whole runs

theorem run_append_singleton (makings : List Making) (m : Making) :
    run (makings ++ [m]) = step (run makings) m := by
  rw [run, List.foldl_append]
  rfl

theorem step_of_made (h : m.perform made = some (.ok c)) : step made m = made ++ [c] := by
  rw [step, h]

theorem step_of_not_made (h : ∀ c, m.perform made ≠ some (.ok c)) : step made m = made := by
  unfold step
  split
  case h_1 c hc => exact absurd hc (h c)
  case h_2 => rfl

/-- A chain that there is was made by one of the makings, after those before it. -/
theorem exists_of_mem_run {makings : List Making} (h : c ∈ run makings) :
    ∃ front m, front ++ [m] <+: makings ∧ m.perform (run front) = some (.ok c) := by
  induction makings using List.reverseRecOn with
  | nil => cases h
  | append_singleton makings m ih =>
    rw [run_append_singleton] at h
    by_cases hmade : ∃ d, m.perform (run makings) = some (.ok d)
    · obtain ⟨d, hd⟩ := hmade
      rw [step_of_made hd] at h
      rcases List.mem_append.1 h with hbefore | hlast
      · obtain ⟨front, earlier, hprefix, hearlier⟩ := ih hbefore
        exact ⟨front, earlier, hprefix.trans (List.prefix_append makings [m]), hearlier⟩
      · rw [List.mem_singleton.1 hlast]
        exact ⟨makings, m, List.prefix_refl _, hd⟩
    · rw [step_of_not_made (not_exists.1 hmade)] at h
      obtain ⟨front, earlier, hprefix, hearlier⟩ := ih h
      exact ⟨front, earlier, hprefix.trans (List.prefix_append makings [m]), hearlier⟩

end Making

open Making in
/-- However chains are made one after the other, each of them is well-formed, consists of
what was given for it, in that order, and answers whatever it is asked.  Of what is done next
a chain comes exactly if what is given is well-formed.  The chain is put behind those that
there are, which stay as they are, and stay alone if none comes. -/
theorem run_sound [Signatures] (makings : List Making) :
    (∀ c ∈ run makings, c.kept.WellFormed ∧ c.Answers
        ∧ ∃ front m, front ++ [m] <+: makings ∧ m.Gives (run front) c.kept)
      ∧ ∀ m : Making,
        (∀ k, (∃ c, m.perform (run makings) = some (.ok c) ∧ c.kept = k)
            ↔ m.Gives (run makings) k ∧ k.WellFormed)
          ∧ (∀ c, m.perform (run makings) = some (.ok c) →
              run (makings ++ [m]) = run makings ++ [c])
          ∧ ((∀ c, m.perform (run makings) ≠ some (.ok c)) →
              run (makings ++ [m]) = run makings) := by
  refine ⟨fun c hc => ?_, fun m => ⟨fun k => ⟨?_, ?_⟩, fun c hc => ?_, fun hnone => ?_⟩⟩
  · obtain ⟨front, m, hprefix, hmade⟩ := exists_of_mem_run hc
    exact ⟨c.wellFormed_kept, c.answers, front, m, hprefix, perform_eq_ok_iff.1 hmade⟩
  · rintro ⟨c, hc, rfl⟩
    exact ⟨perform_eq_ok_iff.1 hc, c.wellFormed_kept⟩
  · rintro ⟨hgives, hformed⟩
    obtain ⟨c, rfl⟩ := exists_kept_iff.2 hformed
    exact ⟨c, perform_eq_ok_iff.2 hgives, rfl⟩
  · rw [run_append_singleton, step_of_made hc]
  · rw [run_append_singleton, step_of_not_made hnone]

-- ============================================================ small samples

/-- As many certificates as there can be, one more in front of them, and one in front of
the small chain. -/
def smallMakings : List Making :=
  [.ofDers (List.replicate 8 Certificate.small.der), .prepend 0 (.der Certificate.small.der),
    .ofPem small.pem, .prepend 1 (.pem Certificate.small.pem)]

/-- The small certificate, in front of itself. -/
def pair : Chain := ⟨.small, [.small], length_pair_le .small⟩

theorem certificates_full :
    full.kept.certificates = List.replicate 8 (Certificate.Kept.mk Certificate.small.der) := by
  show Certificate.small.kept :: (List.replicate 7 Certificate.small).map Certificate.kept = _
  rw [List.map_replicate, ← List.replicate_succ]
  rfl

/-- No chain has a certificate in front of a full one. -/
theorem Making.not_perform_full {made : List Chain} {place : Nat} (h : made[place]? = some full)
    (leaf : Source) (c : Chain) : (prepend place leaf).perform made ≠ some (.ok c) := by
  intro hmade
  obtain ⟨d, x, hd, -, hkept⟩ := perform_eq_ok_iff.1 hmade
  cases h.symm.trans hd
  have hle := c.wellFormed_kept.length_le
  rw [hkept, List.length_cons, certificates_full, List.length_replicate] at hle
  exact absurd hle (by decide)

theorem Making.run_small : run smallMakings = [full, small, pair] := by
  have hfull : (ofDers (List.replicate 8 Certificate.small.der)).perform []
      = some (.ok full) := perform_eq_ok_iff.2 (by
        rw [Gives, certificates_full, List.map_replicate])
  have hplace : [full][0]? = some full := rfl
  have hnone := not_perform_full hplace (.der Certificate.small.der)
  have hpem : (ofPem small.pem).perform [full] = some (.ok small) :=
    congrArg some (Chain.ofPem_pem small)
  have hleaf : (Source.pem Certificate.small.pem).certificate = .ok .small :=
    Certificate.ofPem_pem .small
  have hpair : (prepend 1 (.pem Certificate.small.pem)).perform [full, small]
      = some (.ok pair) := perform_eq_ok_iff.2
    ⟨small, Certificate.small.kept, rfl, Source.certificate_eq_ok_iff.1 hleaf, rfl⟩
  rw [run, smallMakings, List.foldl_cons, step_of_made hfull, List.nil_append, List.foldl_cons,
    step_of_not_made hnone, List.foldl_cons, step_of_made hpem, List.singleton_append,
    List.foldl_cons, step_of_made hpair, List.foldl_nil]
  rfl

/-- The full chain is well-formed and answers, the pair was made of the small chain, and one
more certificate in front of the full chain leaves all three as they are. -/
theorem run_sound_small :
    Making.run smallMakings = [full, small, pair]
      ∧ full.kept.WellFormed ∧ full.Answers
      ∧ (∀ c, (Making.prepend 0 (.der Certificate.small.der)).perform (Making.run smallMakings)
          ≠ some (.ok c))
      ∧ Making.run (smallMakings ++ [.prepend 0 (.der Certificate.small.der)])
        = Making.run smallMakings := by
  obtain ⟨hmade, hnext⟩ := run_sound smallMakings
  have hrun := Making.run_small
  have hfull : full ∈ Making.run smallMakings := by
    rw [hrun]
    exact List.mem_cons_self
  have hplace : (Making.run smallMakings)[0]? = some full := by rw [hrun]; rfl
  have hnone := Making.not_perform_full hplace (.der Certificate.small.der)
  obtain ⟨hformed, hanswers, -⟩ := hmade full hfull
  obtain ⟨-, -, hstay⟩ := hnext (.prepend 0 (.der Certificate.small.der))
  exact ⟨hrun, hformed, hanswers, hnone, hstay hnone⟩

end Chain

end Enrollment
