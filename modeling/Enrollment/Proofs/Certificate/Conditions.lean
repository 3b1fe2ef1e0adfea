/-
What is checked along a chain, and in which order.

The check of a chain stops at the first thing that is wrong.  Here all that it looks at
is listed beforehand (`Chain.conditions`): at each link the name and then the signature,
and in the end the last certificate's own signature, if its two names are one.  A chain is
valid exactly if every condition holds (`validateLinks_iff_conditions`), and otherwise
the check fails with what the first broken one reports (`validateLinks_eq_error_iff`).
The conditions of what is left of a chain without its first certificates are the last ones
of the whole (`conditions_suffix`), so a chain that is valid has valid ends, and one more
certificate in front asks for one more link (`validateLinks_compositional`).
-/
import Enrollment.Proofs.Certificate.Chain
import Enrollment.Proofs.Links

namespace Enrollment.Chain

-- ============================================================= conditions

/-- One thing that is looked at along a chain. -/
inductive Condition where
  /-- The child names the parent's subject as its issuer. -/
  | name (child parent : Certificate)
  /-- The child is signed with the parent's key. -/
  | signature (child parent : Certificate)
  /-- The certificate is signed with its own key. -/
  | ownSignature (last : Certificate)

/-- What is looked at for a link. -/
def Condition.ofLink (link : Certificate × Certificate) : List Condition :=
  [.name link.1 link.2, .signature link.1 link.2]

/-- What is looked at for the last certificate: nothing, unless its subject and its
issuer have one encoding. -/
def Condition.ofLast (last : Certificate) : List Condition :=
  if last.fields.subject.encoded = last.fields.issuer.encoded then [.ownSignature last] else []

/-- All that is looked at from a certificate on, in order. -/
def conditionsFrom (first : Certificate) (others : List Certificate) : List Condition :=
  ((first :: others).zip others).flatMap Condition.ofLink
    ++ Condition.ofLast (others.getLastD first)

/-- All that is looked at along a chain, from its leaf to its end. -/
def conditions (c : Chain) : List Condition :=
  c.links.flatMap Condition.ofLink ++ Condition.ofLast c.last

/-- Of a link, the names are looked at first, and then the signature. -/
theorem conditionsFrom_cons (child parent : Certificate) (rest : List Certificate) :
    conditionsFrom child (parent :: rest)
      = .name child parent :: .signature child parent :: conditionsFrom parent rest := by
  rw [conditionsFrom, List.zip_cons_cons, List.flatMap_cons, List.getLastD_cons]
  rfl

section

variable [Signatures]

/-- When a condition holds. -/
def Condition.Holds : Condition → Prop
  | .name child parent => child.issuer = parent.subject
  | .signature child parent => child.verifySignedBy parent = .ok ()
  | .ownSignature last => last.verifySelfSigned = .ok ()

/-- What a condition reports that does not hold. -/
inductive Condition.Reports : Condition → Failure → Prop
  | name {child parent : Certificate} (h : child.issuer ≠ parent.subject) :
      Reports (.name child parent) (.security (.brokenLink child.issuer parent.subject))
  | signature {child parent : Certificate} {fault : SignatureFault}
      (h : child.fields.signed.verify parent.fields.publicKey = .error fault) :
      Reports (.signature child parent) (.security (.certificateSignature fault))
  | ownSignature {last : Certificate} {fault : SignatureFault}
      (h : last.fields.signed.verify last.fields.publicKey = .error fault) :
      Reports (.ownSignature last) (.security (.selfSignature fault))

variable {k : Condition} {ks : List Condition} {failure : Failure}

/-- A signature that is not good is reported as verifying it fails. -/
theorem Condition.reports_signature_iff {child parent : Certificate} :
    (Condition.signature child parent).Reports failure
      ↔ child.verifySignedBy parent = .error failure := by
  constructor
  · intro h
    cases h with
    | signature h =>
      rw [Certificate.verifySignedBy, h]
      rfl
  · intro h
    obtain ⟨fault, hfault, rfl⟩ := mapError_eq_error h
    exact .signature hfault

theorem Condition.reports_ownSignature_iff {last : Certificate} :
    (Condition.ownSignature last).Reports failure ↔ last.verifySelfSigned = .error failure := by
  constructor
  · intro h
    cases h with
    | ownSignature h =>
      rw [Certificate.verifySelfSigned, h]
      rfl
  · intro h
    obtain ⟨fault, hfault, rfl⟩ := mapError_eq_error h
    exact .ownSignature hfault

/-- Whatever is broken along a chain is a breach of security. -/
theorem Condition.Reports.kind_eq (h : k.Reports failure) : failure.kind = .security := by
  cases h <;> rfl

-- ====================================================== the first broken one

/-- Some condition does not hold and reports a failure, and all before it hold. -/
def FirstBroken (ks : List Condition) (failure : Failure) : Prop :=
  ∃ front k back, ks = front ++ k :: back ∧ (∀ earlier ∈ front, earlier.Holds)
    ∧ k.Reports failure

theorem not_firstBroken_nil : ¬FirstBroken [] failure := by
  rintro ⟨front, k, back, heq, -⟩
  exact List.append_ne_nil_of_right_ne_nil front (List.cons_ne_nil k back) heq.symm

/-- The first of some conditions is the broken one, or it holds and another is. -/
theorem firstBroken_cons_iff :
    FirstBroken (k :: ks) failure ↔ k.Reports failure ∨ k.Holds ∧ FirstBroken ks failure := by
  constructor
  · rintro ⟨front, broken, back, heq, hfront, hbroken⟩
    cases front with
    | nil =>
      cases heq
      exact .inl hbroken
    | cons first front =>
      cases heq
      obtain ⟨hfirst, hrest⟩ := List.forall_mem_cons.1 hfront
      exact .inr ⟨hfirst, front, broken, back, rfl, hrest, hbroken⟩
  · rintro (hk | ⟨hk, front, broken, back, rfl, hfront, hbroken⟩)
    · exact ⟨[], k, ks, rfl, List.forall_mem_nil _, hk⟩
    · exact ⟨k :: front, broken, back, rfl, List.forall_mem_cons.2 ⟨hk, hfront⟩, hbroken⟩

-- =============================================================== checking

/-- A link fails for its name, or for its signature when the name is right. -/
theorem checkLink_eq_error_iff {child parent : Certificate} :
    checkLink child parent = .error failure
      ↔ (Condition.name child parent).Reports failure
        ∨ (Condition.name child parent).Holds
          ∧ (Condition.signature child parent).Reports failure := by
  by_cases hname : child.issuer = parent.subject
  · rw [checkLink_of_eq hname, Condition.reports_signature_iff]
    constructor
    · intro h
      exact .inr ⟨hname, h⟩
    · rintro (h | ⟨-, h⟩)
      · cases h with
        | name hne => exact absurd hname hne
      · exact h
  · rw [checkLink_of_ne hname]
    constructor
    · intro h
      cases h
      exact .inl (.name hname)
    · rintro (h | ⟨h, -⟩)
      · cases h
        rfl
      · exact absurd h hname

/-- The conditions are looked at in the order in which they are listed. -/
theorem checkFrom_eq_error_iff {first : Certificate} {others : List Certificate} :
    checkFrom first others = .error failure
      ↔ FirstBroken (conditionsFrom first others) failure := by
  induction others generalizing first with
  | nil =>
    have hself : first.isSelfIssued = true
        ↔ first.fields.subject.encoded = first.fields.issuer.encoded := beq_iff_eq
    show (if first.isSelfIssued then first.verifySelfSigned else .ok ()) = .error failure
      ↔ FirstBroken (Condition.ofLast first) failure
    unfold Condition.ofLast
    by_cases h : first.isSelfIssued = true
    · rw [if_pos h, if_pos (hself.1 h), firstBroken_cons_iff, Condition.reports_ownSignature_iff,
        or_iff_left fun hlater => not_firstBroken_nil hlater.2]
    · rw [if_neg h, if_neg (mt hself.2 h)]
      exact iff_of_false nofun not_firstBroken_nil
  | cons parent rest ih =>
    rw [conditionsFrom_cons, firstBroken_cons_iff, firstBroken_cons_iff, ← ih, checkFrom]
    constructor
    · intro h
      rcases bind_eq_error h with hlink | ⟨⟨⟩, hlink, hrest⟩
      · rcases checkLink_eq_error_iff.1 hlink with hname | ⟨hname, hsignature⟩
        · exact .inl hname
        · exact .inr ⟨hname, .inl hsignature⟩
      · obtain ⟨hname, hsignature⟩ := checkLink_eq_ok_iff.1 hlink
        exact .inr ⟨hname, .inr ⟨hsignature, hrest⟩⟩
    · rintro (hname | ⟨hname, hsignature | ⟨hsignature, hrest⟩⟩)
      · rw [checkLink_eq_error_iff.2 (.inl hname)]
        rfl
      · rw [checkLink_eq_error_iff.2 (.inr ⟨hname, hsignature⟩)]
        rfl
      · rw [checkLink_eq_ok_iff.2 ⟨hname, hsignature⟩]
        exact hrest

variable {c d : Chain} {leaf : Certificate}

/-- Validating a chain fails with what the first condition reports that does not hold. -/
theorem validateLinks_eq_error_iff :
    c.validateLinks = .error failure ↔ FirstBroken c.conditions failure :=
  checkFrom_eq_error_iff

/-- It succeeds when all of them hold. -/
theorem validateLinks_iff_conditions :
    c.validateLinks = .ok () ↔ ∀ k ∈ c.conditions, k.Holds := by
  have hlast : (c.last.isSelfIssued = true → c.last.verifySelfSigned = .ok ())
      ↔ ∀ k ∈ Condition.ofLast c.last, k.Holds := by
    unfold Condition.ofLast Certificate.isSelfIssued
    rw [beq_iff_eq]
    by_cases h : c.last.fields.subject.encoded = c.last.fields.issuer.encoded
    · rw [if_pos h, List.forall_mem_singleton]
      exact ⟨fun hown => hown h, fun hown _ => hown⟩
    · rw [if_neg h]
      exact ⟨fun _ => List.forall_mem_nil _, fun _ hsame => absurd hsame h⟩
  rw [validateLinks_eq_ok_iff, conditions, List.forall_mem_append, hlast]
  refine and_congr_left' ?_
  constructor
  · intro h k hk
    obtain ⟨link, hlink, hk⟩ := List.mem_flatMap.1 hk
    obtain ⟨hname, hsignature⟩ := h link hlink
    rcases List.mem_pair.1 hk with rfl | rfl
    · exact hname
    · exact hsignature
  · intro h link hlink
    have hboth : ∀ k ∈ Condition.ofLink link, k.Holds := fun k hk =>
      h k (List.mem_flatMap.2 ⟨link, hlink, hk⟩)
    exact ⟨hboth (.name link.1 link.2) List.mem_cons_self,
      hboth (.signature link.1 link.2) (List.mem_cons_of_mem _ List.mem_cons_self)⟩

-- =================================================================== ends

omit [Signatures] in
/-- What is looked at from some certificate on is what is looked at last. -/
theorem conditionsFrom_suffix {first next : Certificate} {front others rest : List Certificate}
    (h : first :: others = front ++ next :: rest) :
    conditionsFrom next rest <:+ conditionsFrom first others := by
  induction front generalizing first others with
  | nil =>
    cases h
    exact List.suffix_refl _
  | cons skipped front ih =>
    have hothers : others = front ++ next :: rest := (List.cons.inj h).2
    cases others with
    | nil => exact absurd hothers.symm (List.append_ne_nil_of_right_ne_nil front nofun)
    | cons parent others =>
      rw [conditionsFrom_cons]
      exact (ih hothers).trans (List.suffix_append [_, _] _)

omit [Signatures] in
theorem conditions_suffix {front : List Certificate} (h : c.toList = front ++ d.toList) :
    d.conditions <:+ c.conditions :=
  conditionsFrom_suffix h

/-- The end of a chain that is valid is valid. -/
theorem validateLinks_of_suffix {front : List Certificate} (h : c.toList = front ++ d.toList)
    (hvalid : c.validateLinks = .ok ()) : d.validateLinks = .ok () := by
  rw [validateLinks_iff_conditions] at hvalid ⊢
  intro k hk
  exact hvalid k ((conditions_suffix h).subset hk)

omit [Signatures] in
/-- What is left of a chain without some first certificates is a chain as long as one is
left. -/
theorem exists_ofList_drop {count : Nat} (h : count < c.length) :
    ∃ d : Chain, ofList (c.toList.drop count) = .ok d ∧ d.toList = c.toList.drop count := by
  have hlength : c.toList.length = c.length := List.length_cons
  have hne : c.toList.drop count ≠ [] := by
    rw [ne_eq, List.drop_eq_nil_iff, hlength]
    exact Nat.not_le.2 h
  have hle : (c.toList.drop count).length ≤ Limits.chainLength := by
    rw [List.length_drop, hlength]
    exact Nat.le_trans (Nat.sub_le _ _) c.length_le
  obtain ⟨d, hd⟩ := exists_toList_eq hne hle
  exact ⟨d, ofList_eq_ok_iff.2 hd, hd⟩

/-- A chain with one more certificate in front is valid exactly if that certificate names
the next one's subject, verifies under its key, and the chain was valid before. -/
theorem validateLinks_prepend_iff (h : c.prepend leaf = .ok d) :
    d.validateLinks = .ok ()
      ↔ leaf.issuer = c.leaf.subject ∧ leaf.verifySignedBy c.leaf = .ok ()
        ∧ c.validateLinks = .ok () := by
  rw [validateLinks_of_prepend h]
  constructor
  · intro hvalid
    obtain ⟨⟨⟩, hlink, hrest⟩ := bind_eq_ok hvalid
    obtain ⟨hname, hsignature⟩ := checkLink_eq_ok_iff.1 hlink
    exact ⟨hname, hsignature, hrest⟩
  · rintro ⟨hname, hsignature, hrest⟩
    rw [checkLink_eq_ok_iff.2 ⟨hname, hsignature⟩]
    exact hrest

/-- Chains are valid piece by piece.  A chain that has room for one more certificate in
front is valid with it exactly if it was valid and the new link is; each end of a valid
chain is a valid chain; and what a chain fails with is what the first broken condition
reports, from the leaf to the end. -/
theorem validateLinks_compositional (c : Chain) :
    (∀ leaf, c.length ≤ 7 →
      ∃ d, c.prepend leaf = .ok d ∧ d.toList = leaf :: c.toList
        ∧ (d.validateLinks = .ok ()
          ↔ leaf.issuer = c.leaf.subject ∧ leaf.verifySignedBy c.leaf = .ok ()
            ∧ c.validateLinks = .ok ()))
      ∧ (∀ count < c.length, ∃ d, ofList (c.toList.drop count) = .ok d
          ∧ d.toList = c.toList.drop count
          ∧ (c.validateLinks = .ok () → d.validateLinks = .ok ()))
      ∧ (c.validateLinks = .ok () ↔ ∀ k ∈ c.conditions, k.Holds)
      ∧ ∀ failure, c.validateLinks = .error failure
          ↔ FirstBroken c.conditions failure ∧ failure.kind = .security := by
  refine ⟨?_, ?_, validateLinks_iff_conditions, ?_⟩
  · intro leaf hroom
    have hprepend : c.prepend leaf = .ok ⟨leaf, c.toList, Nat.succ_le_succ hroom⟩ :=
      prepend_eq_ok_iff.2 ⟨Nat.succ_le_succ hroom, rfl, rfl⟩
    exact ⟨_, hprepend, rfl, validateLinks_prepend_iff hprepend⟩
  · intro count hcount
    obtain ⟨d, hd, hlist⟩ := exists_ofList_drop hcount
    have hsplit : c.toList = c.toList.take count ++ d.toList := by
      rw [hlist, List.take_append_drop]
    exact ⟨d, hd, hlist, validateLinks_of_suffix hsplit⟩
  · intro failure
    rw [validateLinks_eq_error_iff]
    constructor
    · intro h
      have ⟨_, _, _, _, _, hreports⟩ := h
      exact ⟨h, hreports.kind_eq⟩
    · exact And.left

end

-- =========================================================== small samples

/-- The small certificate behind itself, and behind both one that issued neither. -/
def stray : Chain := ⟨.small, [.small, .domain], Nat.le_of_ble_eq_true rfl⟩

theorem issuer_small : Certificate.small.issuer = Certificate.small.subject := by
  decide +kernel

theorem issuer_small_ne_subject_domain :
    Certificate.small.issuer ≠ Certificate.domain.subject := by
  decide +kernel

/-- At the stray chain the first link holds and the name of the second does not. -/
theorem firstBroken_stray :
    FirstBroken stray.conditions
      (.security (.brokenLink Certificate.small.issuer Certificate.domain.subject)) := by
  refine ⟨Condition.ofLink (.small, .small), .name .small .domain, _, rfl, ?_,
    .name issuer_small_ne_subject_domain⟩
  intro k hk
  rcases List.mem_pair.1 hk with rfl | rfl
  · exact issuer_small
  · exact Certificate.verifySignedBy_small

/-- The small certificate makes a chain to which one more link can be put, and the end of
that longer chain is valid; the stray chain fails at its second link. -/
theorem validateLinks_compositional_small :
    (∃ d, small.prepend .small = .ok d ∧ d.toList = [.small, .small]
        ∧ d.validateLinks = .ok ()
        ∧ ∃ e, ofList (d.toList.drop 1) = .ok e ∧ e.toList = [.small] ∧ e.validateLinks = .ok ())
      ∧ stray.validateLinks
        = .error (.security (.brokenLink Certificate.small.issuer Certificate.domain.subject)) := by
  obtain ⟨hprepend, -⟩ := validateLinks_compositional small
  obtain ⟨-, -, -, herror⟩ := validateLinks_compositional stray
  obtain ⟨d, hd, hlist, hvalid⟩ := hprepend .small (Nat.le_of_ble_eq_true rfl)
  have hsmall : small.validateLinks = .ok () :=
    validateLinks_eq_ok_iff.2 ⟨List.forall_mem_nil _, fun _ => Certificate.verifySelfSigned_small⟩
  have hlinked : d.validateLinks = .ok () :=
    hvalid.2 ⟨issuer_small, Certificate.verifySignedBy_small, hsmall⟩
  obtain ⟨-, hsuffix, -⟩ := validateLinks_compositional d
  have hlength : 1 < d.length := by
    have : d.toList.length = d.length := List.length_cons
    rw [← this, hlist]
    exact Nat.lt_of_sub_pos Nat.one_pos
  obtain ⟨e, he, hend, hrest⟩ := hsuffix 1 hlength
  refine ⟨⟨d, hd, hlist, hlinked, e, he, ?_, hrest hlinked⟩,
    (herror _).2 ⟨firstBroken_stray, rfl⟩⟩
  rw [hend, hlist]
  rfl

end Enrollment.Chain
