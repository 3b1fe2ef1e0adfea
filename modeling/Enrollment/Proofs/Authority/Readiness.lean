/-
Readiness: which authorities can sign.

An authority is loaded if its chain has up to eight certificates and the key
is that of the first.  To sign, it also has to have a place left in the chain
and a name that can stand as an issuer's (`IssuesAs`), and nothing looks at
these before a certificate is put together.  So a signer answers a request
that a new root would answer exactly if there is such a place, there is such a
name, and the certificate does not come out too large, as it does not if name
and signatures are no longer than the root's (`ready_under_root`).  A chain of
eight certificates is loaded, and never signs anything
(`refused_by_full_chain`).
-/
import Enrollment.Proofs.Authority.Coherence

namespace Enrollment

-- ============================================================== templates

/-- With no longer a name of the issuer, the signed part is not longer. -/
theorem Template.length_signedPart_le {t : Template} {issuer : Entries} {label part part' : Bytes}
    (hname : ∀ name name', issuer.write? = some name → t.issuer.write? = some name' →
      name.length ≤ name'.length)
    (h : { t with issuer }.signedPart? label = some part)
    (h' : t.signedPart? label = some part') : part.length ≤ part'.length := by
  obtain ⟨name, subject, hwritten, hsubject, rfl⟩ := Certificate.Fields.signedPart?_eq_some h
  obtain ⟨name', subject', hwritten', hsubject', rfl⟩ := Certificate.Fields.signedPart?_eq_some h'
  cases hsubject.symm.trans hsubject'
  have hshorter := hname name name' hwritten hwritten'
  have hextensions : { t with issuer }.extensions = t.extensions := rfl
  refine Der.length_write_mono ?_ _
  simp only [Certificate.Fields.partsOf, hextensions, List.flatten_cons, List.flatten_nil,
    List.length_append]
  omega

/-- With no longer a signature either, the certificate is not longer. -/
theorem Template.length_sign_le [Signatures] {t : Template} {issuer : Entries}
    {key key' : KeyPair} {der der' : Bytes} (hkind : key.kind = key'.kind)
    (hname : ∀ name name', issuer.write? = some name → t.issuer.write? = some name' →
      name.length ≤ name'.length)
    (hsignature : ∀ part part', (key.sign part).length ≤ (key'.sign part').length)
    (h : { t with issuer }.sign? key = some der) (h' : t.sign? key' = some der') :
    der.length ≤ der'.length := by
  simp only [sign?, Option.bind_eq_bind] at h h'
  obtain ⟨part, hpart, hder⟩ := Option.bind_eq_some_iff.1 h
  obtain ⟨part', hpart', hder'⟩ := Option.bind_eq_some_iff.1 h'
  cases hder
  cases hder'
  rw [hkind] at hpart ⊢
  have hparts : part.length ≤ part'.length := length_signedPart_le hname hpart hpart'
  have hbits : (Der.bits (key.sign part)).length ≤ (Der.bits (key'.sign part')).length := by
    refine Der.length_write_mono ?_ _
    exact Nat.succ_le_succ (hsignature part part')
  refine Der.length_write_mono ?_ _
  simp only [List.flatten_cons, List.flatten_nil, List.length_append]
  omega

-- =========================================================== certificates

/-- A certificate can be named as an issuer by these entries: it has no second key usage,
its name can be taken apart into the entries, and they can be written. -/
structure Certificate.IssuesAs (c : Certificate) (issuer : Entries) : Prop where
  usages : (c.fields.extensions.filter (·.id == ExtensionId.keyUsage)).length ≤ 1
  name : Entries.ofName c.fields.subject = .ok issuer
  written : issuer.write?.isSome

/-- The certificate of a generated authority is named by what it was generated with. -/
theorem Authority.issuesAs_of_generate [Signatures] {hostname : String}
    {algorithm : KeyAlgorithm} {days : Nat} {now : Time.Instant} {draw : Draw} {a : Authority}
    (h : generate hostname algorithm days now draw = .ok a) :
    a.certificate.IssuesAs (nameOf hostname) := by
  obtain ⟨husages, hname⟩ := Signer.issuerEntries_eq_ok_iff.1 (issuerEntries_of_generate h)
  obtain ⟨encoded, hwritten⟩ := Entries.exists_write? (ofTexts_nameOf hostname).spelled
  exact ⟨husages, hname, Option.isSome_of_eq_some hwritten⟩

-- ================================================================ issuing

namespace Signer

variable [Signatures] {s s' : Signer} {request : SigningRequest} {now : Time.Instant}
  {serial serial' : Bytes} {chain : Chain} {issuer : Entries}

/-- The certificate for a request is not too large. -/
def Fits (s : Signer) (issuer : Entries) (request : SigningRequest) (now : Time.Instant)
    (serial : Bytes) : Prop :=
  ∀ content window der, SigningRequest.Content.ofFields request.fields = .ok content →
    Validity.window? now s.days = some window →
    (template issuer content serial window).sign? s.authority.key = some der →
    der.length ≤ Limits.certificateSize

/-- What is needed of a signer for whatever it issues. -/
theorem fits_of_issue (h : s.issue request now serial = .ok chain) :
    s.authority.chain.length < Limits.chainLength
      ∧ ∃ issuer, s.authority.certificate.IssuesAs issuer ∧ s.Fits issuer request now serial := by
  obtain ⟨content, window, issuer, der, -, hcontent, hwindow, hissuer, hsign, hleaf, hchain⟩ :=
    issue_eq_ok h
  obtain ⟨husages, hname⟩ := issuerEntries_eq_ok_iff.1 hissuer
  obtain ⟨hwritten, -⟩ := Template.isSome_sign?_iff.1 (Option.isSome_of_eq_some hsign)
  refine ⟨(Chain.prepend_eq_ok_iff.1 hchain).1, issuer, ⟨husages, hname, hwritten⟩, ?_⟩
  intro content' window' der' hcontent' hwindow' hsign'
  cases hcontent.symm.trans hcontent'
  cases hwindow.symm.trans hwindow'
  cases hsign.symm.trans hsign'
  rw [← Certificate.der_of_ofDer hleaf]
  exact chain.leaf.der_length_le

/-- Whatever another signer has issued for as many days comes as far as the chain, if the
issuer can be named and the certificate is not too large. -/
theorem issue_eq_prepend_of_issue (hdays : s'.days = s.days)
    (h : s'.issue request now serial' = .ok chain)
    (hissues : s.authority.certificate.IssuesAs issuer) (hfits : s.Fits issuer request now serial) :
    ∃ leaf, s.issue request now serial = Halt.lift (s.authority.chain.prepend leaf) := by
  obtain ⟨content, window, issuer', der', hsignature, hcontent, hwindow, -, hsign', -, -⟩ :=
    issue_eq_ok h
  rw [hdays] at hwindow
  -- the subject was written by the other signer, the issuer's name can be
  obtain ⟨-, hsubject⟩ := Template.isSome_sign?_iff.1 (Option.isSome_of_eq_some hsign')
  have hsome : ((template issuer content serial window).sign? s.authority.key).isSome :=
    Template.isSome_sign?_iff.2 ⟨hissues.written, hsubject⟩
  obtain ⟨der, hsign⟩ := Option.isSome_iff_exists.1 hsome
  exact issue_eq_prepend hsignature hcontent hwindow
    (issuerEntries_eq_ok_iff.2 ⟨hissues.usages, hissues.name⟩) hsign
    (hfits content window der hcontent hwindow hsign)

/-- A signer spends no more bytes on its name and its signatures than another one. -/
structure Shorter (s s' : Signer) (issuer issuer' : Entries) : Prop where
  name : ∀ name name', issuer.write? = some name → issuer'.write? = some name' →
    name.length ≤ name'.length
  signature : ∀ part part',
    (s.authority.key.sign part).length ≤ (s'.authority.key.sign part').length

/-- What another signer has issued fits under a shorter name. -/
theorem fits_of_shorter {issuer' : Entries}
    (hkind : s.authority.key.kind = s'.authority.key.kind) (hdays : s'.days = s.days)
    (h : s'.issue request now serial = .ok chain)
    (hissuer' : issuerEntries s'.authority.certificate = .ok issuer')
    (hshorter : s.Shorter s' issuer issuer') : s.Fits issuer request now serial := by
  intro content window der hcontent hwindow hsign
  obtain ⟨content', window', found, der', -, hcontent', hwindow', hfound, hsign', hleaf, -⟩ :=
    issue_eq_ok h
  cases hissuer'.symm.trans hfound
  rw [hdays] at hwindow'
  cases hcontent.symm.trans hcontent'
  cases hwindow.symm.trans hwindow'
  have hle := chain.leaf.der_length_le
  rw [Certificate.der_of_ofDer hleaf] at hle
  exact Nat.le_trans
    (Template.length_sign_le hkind hshorter.name hshorter.signature hsign hsign') hle

/-- What a signer makes of a request that is in order. -/
structure Ready (s : Signer) (request : SigningRequest) (now : Time.Instant) (serial : Bytes) :
    Prop where
  issued : (∃ chain, s.issue request now serial = .ok chain)
    ↔ s.authority.chain.length < Limits.chainLength
      ∧ ∃ issuer, s.authority.certificate.IssuesAs issuer ∧ s.Fits issuer request now serial
  full : s.authority.chain.length = Limits.chainLength →
    ∀ issuer, s.authority.certificate.IssuesAs issuer → s.Fits issuer request now serial →
      s.issue request now serial
        = .error (.failed (.protocol (.longChain (Limits.chainLength + 1))))
  /-- Neither a full chain nor a certificate that cannot be named is good for any request. -/
  never : (¬(s.authority.chain.length < Limits.chainLength
      ∧ ∃ issuer, s.authority.certificate.IssuesAs issuer)) →
    ∀ request now serial chain, s.issue request now serial ≠ .ok chain

theorem ready_of_issue (hdays : s'.days = s.days)
    (h : s'.issue request now serial' = .ok chain) : s.Ready request now serial where
  issued := by
    constructor
    · rintro ⟨chain, hissue⟩
      exact fits_of_issue hissue
    · rintro ⟨hroom, issuer, hissues, hfits⟩
      obtain ⟨leaf, hprepend⟩ := issue_eq_prepend_of_issue hdays h hissues hfits
      exact exists_eq_ok_of_prepend hprepend hroom
  full := by
    intro hfull issuer hissues hfits
    obtain ⟨leaf, hprepend⟩ := issue_eq_prepend_of_issue hdays h hissues hfits
    have hlt : Limits.chainLength < s.authority.chain.length + 1 := by omega
    rw [hprepend, Chain.prepend_of_lt hlt, hfull]
    rfl
  never := by
    intro hnot request now serial chain hissue
    obtain ⟨hroom, issuer, hissues, -⟩ := fits_of_issue hissue
    exact hnot ⟨hroom, issuer, hissues⟩

/-- Of the requests that are answered under a new root, a signer by the same algorithm and
for as many days answers those whose certificate is not too large, if its chain has room
and its certificate can be named as an issuer.  If not, it answers no request at all.
What is new has room and can be named, and no certificate is too large where the name
and the signatures are no longer than those of the root. -/
theorem ready_under_root {hostname : String} {days : Nat} {created : Time.Instant}
    {draw : Authority.Draw} (hbuilt : s.authority.Built) (hdays : s'.days = s.days)
    (hroot : Authority.generate hostname s.authority.algorithm days created draw
      = .ok s'.authority)
    (h : s'.issue request now serial' = .ok chain) :
    s.Ready request now serial
      ∧ s'.authority.chain.length < Limits.chainLength
      ∧ s'.authority.certificate.IssuesAs (Authority.nameOf hostname)
      ∧ ∀ issuer, s.Shorter s' issuer (Authority.nameOf hostname) →
        s.Fits issuer request now serial' := by
  obtain ⟨names, window, der, -, halgorithm, -, -⟩ := Authority.generate_eq_ok hroot
  have hkind := KeyPair.algorithm?_eq_some_iff.1 hbuilt.coherent.1
  have hkind' := KeyPair.algorithm?_eq_some_iff.1 (Authority.Built.generated hroot).coherent.1
  rw [halgorithm] at hkind'
  refine ⟨ready_of_issue hdays h, (fits_of_issue h).1, Authority.issuesAs_of_generate hroot,
    fun issuer hshorter => ?_⟩
  exact fits_of_shorter (hkind.trans hkind'.symm) hdays h
    (Authority.issuerEntries_of_generate hroot) hshorter

end Signer

-- ============================================================ small samples

/-- As many certificates as a chain can have. -/
def Chain.full : Chain where
  leaf := .small
  issuers := List.replicate 7 .small
  length_le := by
    rw [List.length_replicate]
    decide

theorem Chain.length_full : Chain.full.length = Limits.chainLength :=
  congrArg (· + 1) List.length_replicate

def Authority.full : Authority := ⟨.full, Authority.small.key, .ed25519⟩

def Signer.full : Signer := ⟨.full, 1, Nat.one_pos⟩

theorem Authority.ofPem_full :
    ofPem Authority.full.chain.pem Authority.full.keyPem = .ok .full := by
  -- it has the key and the certificate of the small one
  have hbuilt : Authority.small.Built := .generated generate_small
  have hkey := hbuilt.ofDocument? Standard.sized
  exact ofPem_pem (a := .full) hkey hbuilt.coherent

/-- The small signer answers the small request as it would under a new root. -/
theorem Signer.ready_under_small_root :
    Signer.small.authority.Built
      ∧ Authority.generate "h" Signer.small.authority.algorithm 1 ⟨0, 0⟩ ⟨[7], [1]⟩
        = .ok Signer.small.authority
      ∧ ∃ chain, Signer.small.issue .edwards ⟨0, 0⟩ [1] = .ok chain
        ∧ Signer.small.Ready .edwards ⟨0, 0⟩ [1]
        ∧ Signer.small.authority.certificate.IssuesAs (Authority.nameOf "h") := by
  have hroot : Authority.generate "h" Signer.small.authority.algorithm 1 ⟨0, 0⟩ ⟨[7], [1]⟩
      = .ok Signer.small.authority := Authority.generate_small
  have hbuilt : Signer.small.authority.Built := .generated hroot
  obtain ⟨chain, hissue⟩ := issue_small_edwards
  have hunder : Signer.small.Ready .edwards ⟨0, 0⟩ [1] ∧ _ :=
    ready_under_root hbuilt rfl hroot hissue
  obtain ⟨hready, -, hissues, -⟩ := hunder
  exact ⟨hbuilt, hroot, chain, hissue, hready, hissues⟩

/-- Eight certificates are loaded as the chain of an authority, and then refused when a
request is answered that the small root would have answered. -/
theorem Signer.refused_by_full_chain :
    ∃ chain, Authority.ofPem Authority.full.chain.pem Authority.full.keyPem = .ok .full
      ∧ Signer.ofAuthority .full Authority.full.algorithm 1 = .ok .full
      ∧ Authority.generate "h" Authority.full.algorithm 1 ⟨0, 0⟩ ⟨[7], [1]⟩ = .ok .small
      ∧ Signer.small.issue .edwards ⟨0, 0⟩ [1] = .ok chain
      ∧ Signer.full.issue .edwards ⟨0, 0⟩ [1] = .error (.failed (.protocol (.longChain 9))) := by
  obtain ⟨chain, hissue⟩ := issue_small_edwards
  obtain ⟨-, issuer, hissues, hfits⟩ := fits_of_issue hissue
  have hdays : Signer.small.days = Signer.full.days := rfl
  have hready : Signer.full.Ready .edwards ⟨0, 0⟩ [1] := ready_of_issue hdays hissue
  exact ⟨chain, Authority.ofPem_full, rfl, Authority.generate_small, hissue,
    hready.full Chain.length_full issuer hissues hfits⟩

end Enrollment
