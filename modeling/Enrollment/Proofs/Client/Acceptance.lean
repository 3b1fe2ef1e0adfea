/-
What a client accepts, whatever chain its peer presents and whatever response comes whole.

An exchange ends well exactly when all checks are passed (`sign_of_passes`),
and otherwise with the failure of the first that is not (`sign_of_reports`);
there always is one of the two (`passes_or_reports`), so each statement is
exact.  A peer that answers with what the holder of the token issues under
the presented chain passes all checks (`passes_of_issued`).
-/
import Enrollment.Proofs.Client.Conduct
import Enrollment.Proofs.Message
import Enrollment.Proofs.SigningRequest.Basic
import Mathlib.Data.Nat.Find

namespace Enrollment.Client

/-- A response that hands over a certificate brings it. -/
theorem brings_of_issued {p : Conduct} {token : Token}
    {issuer L : Certificate} (hbody : p.body = (Response.issued token issuer L).toJson) :
    p.Sends (.issued token issuer L) ∧ p.Brings L := by
  have hm : p.Sends (.issued token issuer L) := by
    rw [Conduct.Sends, hbody]
    exact Response.ofJson_toJson _
  exact ⟨hm, _, _, hm, rfl, L.ofPem_pem⟩

/-- A peer that presents a chain and answers with what the holder of a token issues
under it. -/
def holderConduct (token : Token) (P : Chain) (L : Certificate) : Conduct where
  presented := P.toList.map (·.der)
  status := 200
  body := (Response.issued token P.leaf L).toJson

def holderNetwork (token : Token) (P : Chain) (L : Certificate) : Network := fun _ _ =>
  .connected (P.toList.map (·.der)) fun _ =>
    .response ⟨200, .ofBytes (Response.issued token P.leaf L).toJson⟩

theorem meets_holder {c : Client} {csr : SigningRequest} {token : Token} {P : Chain}
    {L : Certificate} : c.Meets (holderNetwork token P L) csr (holderConduct token P L) :=
  ⟨_, _, rfl, rfl, Http.Body.carries_ofBytes _⟩

-- ================================================================= verdict

section

variable [Signatures] {c : Client} {network : Network} {csr : SigningRequest} {p : Conduct}

/-- A check that is the first not to be passed reports a failure. -/
theorem reports_of_failsFirst {check : Check} (h : FailsFirst c csr p check) :
    ∃ failure, Reports c p check failure := by
  -- what a check looks at is there because the checks before it are passed
  cases check with
  | chain =>
    obtain ⟨certificates, hders⟩ | ⟨front, der, rest, failure, hders, hder⟩ :=
      Chain.exists_unreadable p.presented
    · by_cases hne : certificates = []
      · subst hne
        exact ⟨_, .noCertificates hders⟩
      · by_cases hlength : certificates.length ≤ Limits.chainLength
        · obtain ⟨P, hP⟩ := Chain.exists_toList_eq hne hlength
          subst hP
          exact absurd ⟨P, hders.symm⟩ h.fails
        · exact ⟨_, .tooLong hders (Nat.not_le.1 hlength)⟩
    · exact ⟨failure, .unreadable hders hder⟩
  | identity =>
    obtain ⟨P, hP⟩ := h.before .chain (by decide)
    exact ⟨_, .identity hP⟩
  | bodySize => exact ⟨_, .bodySize⟩
  | status => exact ⟨_, .status⟩
  | decoding =>
    cases hbody : Response.ofJson p.body with
    | error failure => exact ⟨failure, .decoding hbody⟩
    | ok m => exact absurd ⟨m, hbody⟩ h.fails
  | code => exact ⟨_, .code⟩
  | certificate => exact ⟨_, .certificate⟩
  | codeMatch => exact ⟨_, .codeMatch⟩
  | certificateText =>
    obtain ⟨m, text, hm, htext⟩ := h.before .certificate (by decide)
    cases hleaf : Certificate.ofPem text with
    | error failure => exact ⟨failure, .certificateText hm htext hleaf⟩
    | ok L => exact absurd ⟨L, m, text, hm, htext, hleaf⟩ h.fails
  | signature =>
    obtain ⟨P, hP⟩ := h.before .chain (by decide)
    obtain ⟨L, hL⟩ := h.before .certificateText (by decide)
    cases hsigned : L.verifySignedBy P.leaf with
    | error failure => exact ⟨failure, .signature hP hL hsigned⟩
    | ok _ => exact absurd ⟨P, L, hP, hL, hsigned⟩ h.fails
  | key => exact ⟨_, .key⟩
  | room =>
    obtain ⟨P, hP⟩ := h.before .chain (by decide)
    exact ⟨_, .room hP⟩

/-- All checks are passed, or there is a first that is not, and it reports a
failure. -/
theorem passes_or_reports (c : Client) (csr : SigningRequest) (p : Conduct) :
    (∀ check, Passes c csr p check)
      ∨ ∃ check failure, FailsFirst c csr p check ∧ Reports c p check failure := by
  classical
  by_cases hall : ∀ check, Passes c csr p check
  · exact .inl hall
  · obtain ⟨some, hsome⟩ := not_forall.1 hall
    -- the least place of a check that is not passed
    have hplace : ∃ n, ∃ check : Check, check.place = n ∧ ¬Passes c csr p check :=
      ⟨some.place, some, rfl, hsome⟩
    obtain ⟨check, hcheck, hfails⟩ := Nat.find_spec hplace
    have hfirst : FailsFirst c csr p check := by
      refine ⟨hfails, fun earlier hlt => not_not.1 fun hearlier => ?_⟩
      exact Nat.find_min hplace (hcheck ▸ hlt) ⟨earlier, rfl, hearlier⟩
    obtain ⟨failure, hreports⟩ := reports_of_failsFirst hfirst
    exact .inr ⟨check, failure, hfirst, hreports⟩

/-- Only the comparison of codes and the signature of the certificate report a
breach of security. -/
theorem Reports.kind_eq_security_iff {check : Check} {failure : Failure}
    (h : Reports c p check failure) :
    failure.kind = .security ↔ check = .codeMatch ∨ check = .signature := by
  cases h with
  | unreadable h hder => simp [Certificate.kind_of_ofDer hder]
  | decoding h => simp [Response.kind_of_ofJson h]
  | certificateText h htext hleaf => simp [Certificate.kind_of_ofPem hleaf]
  | signature h hleaf hsigned =>
    obtain ⟨fault, -, rfl⟩ := mapError_eq_error hsigned
    simp [Failure.kind]
  | _ => simp [Failure.kind]

/-- A peer passes all checks that answers with what the holder of the token issues
under its chain. -/
theorem passes_of_issued {P : Chain} {L : Certificate} (hP : p.Presents P)
    (hname : P.leaf.commonName = some c.settings.host) (hstatus : p.status = 200)
    (hbody : p.body = (Response.issued c.token P.leaf L).toJson)
    (hsigned : L.verifySignedBy P.leaf = .ok ()) (hkey : L.publicKey = csr.publicKey)
    (hroom : P.length + 1 ≤ Limits.chainLength) (check : Check) : Passes c csr p check := by
  obtain ⟨hm, hL⟩ := brings_of_issued hbody
  cases check with
  | chain => exact ⟨P, hP⟩
  | identity => exact ⟨P, hP, hname⟩
  | bodySize =>
    show p.body.length ≤ _
    rw [hbody]
    exact Response.length_toJson_issued_le _ _ _
  | status =>
    show 200 ≤ p.status ∧ p.status ≤ 299
    rw [hstatus]
    decide
  | decoding => exact ⟨_, hm⟩
  | code => exact ⟨_, _, hm, rfl⟩
  | certificate => exact ⟨_, _, hm, rfl⟩
  | codeMatch => exact ⟨P, _, hP, hm, rfl⟩
  | certificateText => exact ⟨L, hL⟩
  | signature => exact ⟨P, L, hP, hL, hsigned⟩
  | key => exact ⟨L, hL, hkey⟩
  | room => exact ⟨P, hP, hroom⟩

/-- What is wrong with the certificates that are presented keeps them from being captured. -/
theorem capture_of_reports {failure : Failure} (h : Reports c p .chain failure) (host : String) :
    capture host p.presented = .error failure := by
  cases h with
  | noCertificates h =>
    rw [h]
    rfl
  | @unreadable front der rest failure h hder =>
    have hders := Chain.ofDers_of_unreadable hder front rest
    rw [← h] at hders
    exact capture_of_error (by simp [h]) hders host
  | tooLong h hlength =>
    have hders := Chain.ofDers_of_length_lt hlength
    rw [← h] at hders
    have hne : p.presented ≠ [] := by
      rw [h]
      intro hnil
      rw [List.map_eq_nil_iff.1 hnil] at hlength
      cases hlength
    exact capture_of_error hne hders host

section

variable (hserver : Net.HostName.isServer c.settings.host = true)
  (hmeets : Meets c network csr p)

include hserver hmeets

/-- An exchange ends with what the first check reports that is not passed. -/
theorem sign_of_reports {check : Check} {failure : Failure}
    (hfirst : FailsFirst c csr p check) (hreports : Reports c p check failure) :
    (c.sign network csr).result = .error failure := by
  cases check with
  -- what is wrong with the chain ends the exchange before anything is sent
  | chain => exact result_of_uncaptured hserver hmeets (capture_of_reports hreports _)
  | identity =>
    cases hreports with
    | identity hP =>
      refine result_of_uncaptured hserver hmeets ?_
      rw [capture_of_presents hP, if_neg fun hname => hfirst.fails ⟨_, hP, hname⟩]
  | bodySize =>
    cases hreports
    obtain ⟨P, hP, hname⟩ := hfirst.before .identity (by decide)
    rw [result_of_meets hserver hmeets, capture_of_presents hP, if_pos hname]
    show (if Limits.bodySize < p.body.length then _ else _) = _
    rw [if_pos (Nat.not_le.1 hfirst.fails)]
    rfl
  -- from here on the response is judged, under the chain that was captured
  | status =>
    cases hreports
    obtain ⟨P, -, hresult⟩ := result_of_judged hserver hmeets hfirst.before
    rw [hresult, judge_of_status hfirst.fails]
  | decoding =>
    cases hreports with
    | decoding hbody =>
      obtain ⟨P, -, hresult⟩ := result_of_judged hserver hmeets (hfirst.passes_before (by decide))
      rw [hresult, judge_of_undecoded (hfirst.before .status (by decide)) hbody]
  | code =>
    cases hreports
    obtain ⟨P, -, hresult⟩ := result_of_judged hserver hmeets (hfirst.passes_before (by decide))
    obtain ⟨m, hm⟩ := hfirst.before .decoding (by decide)
    have hcode : m.hmac = none :=
      Option.eq_none_iff_forall_ne_some.2 fun code h => hfirst.fails ⟨m, code, hm, h⟩
    rw [hresult, judge_of_missingCode (hfirst.before .status (by decide)) hm hcode]
  | certificate =>
    cases hreports
    obtain ⟨P, -, hresult⟩ := result_of_judged hserver hmeets (hfirst.passes_before (by decide))
    obtain ⟨m, code, hm, hcode⟩ := hfirst.before .code (by decide)
    have htext : m.certificate = none :=
      Option.eq_none_iff_forall_ne_some.2 fun text h => hfirst.fails ⟨m, text, hm, h⟩
    rw [hresult, judge_of_missingCertificate (hfirst.before .status (by decide)) hm hcode htext]
  -- and from here on the certificate in it, once the code was found right
  | codeMatch =>
    cases hreports
    obtain ⟨P, m, code, text, h⟩ := compares_of_passes hfirst.before
    rw [result_of_compares hserver hmeets h, if_neg]
    rintro rfl
    exact hfirst.fails ⟨P, m, h.presents, h.message, h.code⟩
  | certificateText =>
    cases hreports with
    | certificateText hm htext hleaf =>
      obtain ⟨P, n, other, -, hn, hother, hresult⟩ :=
        result_of_codeMatch hserver hmeets hfirst.before
      cases hm.unique hn
      cases htext.symm.trans hother
      rw [hresult, hleaf]
      rfl
  | signature =>
    cases hreports with
    | signature hP hL hsigned =>
      rw [result_of_brings hserver hmeets (hfirst.passes_before (by decide)) hP hL,
        judgeLeaf, hsigned]
      rfl
  | key =>
    cases hreports
    obtain ⟨P, L, hP, hL, -⟩ := hfirst.before .signature (by decide)
    rw [result_of_signature hserver hmeets hfirst.before hP hL,
      if_neg fun hkey => hfirst.fails ⟨L, hL, hkey⟩]
  | room =>
    cases hreports with
    | room hP =>
      obtain ⟨L, hL, hkey⟩ := hfirst.before .key (by decide)
      rw [result_of_signature hserver hmeets (hfirst.passes_before (by decide)) hP hL,
        if_pos hkey]
      exact Chain.prepend_of_lt (Nat.not_le.1 fun hroom => hfirst.fails ⟨_, hP, hroom⟩) L

/-- An exchange whose checks are all passed gives the certificate in front of the
chain that was captured. -/
theorem sign_of_passes (hpasses : ∀ check, Passes c csr p check) {P : Chain}
    {L : Certificate} (hP : p.Presents P) (hL : p.Brings L) :
    (c.sign network csr).result = P.prepend L := by
  obtain ⟨K, hK, hkey⟩ := hpasses .key
  cases hL.unique hK
  rw [result_of_signature hserver hmeets (fun earlier _ => hpasses earlier) hP hL, if_pos hkey]

/-- An exchange gives a chain exactly when all checks are passed. -/
theorem sign_eq_ok_iff {chain : Chain} :
    (c.sign network csr).result = .ok chain
      ↔ (∀ check, Passes c csr p check)
        ∧ ∃ P L, p.Presents P ∧ p.Brings L ∧ chain.leaf = L ∧ chain.issuers = P.toList := by
  constructor
  · intro h
    obtain hpasses | ⟨check, failure, hfirst, hreports⟩ := passes_or_reports c csr p
    · obtain ⟨P, hP⟩ := hpasses .chain
      obtain ⟨L, hL⟩ := hpasses .certificateText
      rw [sign_of_passes hserver hmeets hpasses hP hL] at h
      obtain ⟨-, hleaf, hissuers⟩ := Chain.prepend_eq_ok_iff.1 h
      exact ⟨hpasses, P, L, hP, hL, hleaf, hissuers⟩
    · rw [sign_of_reports hserver hmeets hfirst hreports] at h
      cases h
  · rintro ⟨hpasses, P, L, hP, hL, hleaf, hissuers⟩
    obtain ⟨Q, hQ, hroom⟩ := hpasses .room
    cases hP.unique hQ
    rw [sign_of_passes hserver hmeets hpasses hP hL]
    exact Chain.prepend_eq_ok_iff.2 ⟨hroom, hleaf, hissuers⟩

/-- An exchange fails exactly with what the first check reports that is not
passed. -/
theorem sign_eq_error_iff {failure : Failure} :
    (c.sign network csr).result = .error failure
      ↔ ∃ check, FailsFirst c csr p check ∧ Reports c p check failure := by
  constructor
  · intro h
    obtain hpasses | ⟨check, found, hfirst, hreports⟩ := passes_or_reports c csr p
    · obtain ⟨P, hP, hroom⟩ := hpasses .room
      obtain ⟨L, hL⟩ := hpasses .certificateText
      have hok : P.prepend L = .ok ⟨L, P.toList, hroom⟩ :=
        Chain.prepend_eq_ok_iff.2 ⟨hroom, rfl, rfl⟩
      rw [sign_of_passes hserver hmeets hpasses hP hL, hok] at h
      cases h
    · rw [sign_of_reports hserver hmeets hfirst hreports] at h
      cases h
      exact ⟨check, hfirst, hreports⟩
  · rintro ⟨check, hfirst, hreports⟩
    exact sign_of_reports hserver hmeets hfirst hreports

end

/-- A client accepts what the holder of its token issues for its request. -/
theorem sign_holder {P : Chain} {L : Certificate}
    (hserver : Net.HostName.isServer c.settings.host = true)
    (hname : P.leaf.commonName = some c.settings.host) (hsigned : L.verifySignedBy P.leaf = .ok ())
    (hkey : L.publicKey = csr.publicKey) (hroom : P.length + 1 ≤ Limits.chainLength) :
    (c.sign (holderNetwork c.token P L) csr).result = .ok ⟨L, P.toList, hroom⟩ :=
  (sign_eq_ok_iff hserver meets_holder).2
    ⟨passes_of_issued rfl hname rfl rfl hsigned hkey hroom, P, L, rfl, (brings_of_issued rfl).2,
      rfl, rfl⟩

/-- Whatever chain a peer presents and with whatever status and bytes it answers, a client
accepts exactly what passes all checks, and otherwise reports what the first check finds that
is not passed; it reports a breach of security exactly when that check compares codes or
verifies the signature of the certificate.  The response is taken to come to its end and to
declare no other length than that of its own body (`Http.Body.Carries`). -/
theorem acceptance (hserver : Net.HostName.isServer c.settings.host = true)
    (hmeets : Meets c network csr p) :
    (∀ chain, (c.sign network csr).result = .ok chain
      ↔ (∀ check, Passes c csr p check)
        ∧ ∃ P L, p.Presents P ∧ p.Brings L ∧ chain.leaf = L ∧ chain.issuers = P.toList)
    ∧ (∀ failure, (c.sign network csr).result = .error failure
      ↔ ∃ check, FailsFirst c csr p check ∧ Reports c p check failure)
    ∧ ∀ failure, (c.sign network csr).result = .error failure →
      (failure.kind = .security
        ↔ FailsFirst c csr p .codeMatch ∨ FailsFirst c csr p .signature) := by
  refine ⟨fun chain => sign_eq_ok_iff hserver hmeets,
    fun failure => sign_eq_error_iff hserver hmeets, fun failure h => ?_⟩
  obtain ⟨check, hfirst, hreports⟩ := (sign_eq_error_iff hserver hmeets).1 h
  rw [hreports.kind_eq_security_iff]
  constructor
  · rintro (rfl | rfl)
    · exact .inl hfirst
    · exact .inr hfirst
  · rintro (hcode | hsignature)
    · exact .inl (hfirst.unique hcode)
    · exact .inr (hfirst.unique hsignature)

end

-- ============================================================ small samples

def small : Client := ⟨{ host := "h" }, .small⟩

theorem isServer_small : Net.HostName.isServer Client.small.settings.host = true := by
  decide +kernel

/-- A certificate that is captured, and answered with as well, is accepted in front
of itself. -/
theorem acceptance_selfSigned :
    Net.HostName.isServer Client.small.settings.host = true
      ∧ Client.small.Meets (holderNetwork .small .small Certificate.small) .edwards
        (holderConduct .small .small Certificate.small)
      ∧ (Client.small.sign (holderNetwork .small .small Certificate.small) .edwards).result
        = .ok ⟨Certificate.small, [Certificate.small], by decide⟩ := by
  refine ⟨isServer_small, meets_holder, ?_⟩
  refine ((acceptance isServer_small meets_holder).1 _).2
    ⟨?_, .small, Certificate.small, rfl, (brings_of_issued rfl).2, rfl, rfl⟩
  exact passes_of_issued (P := Chain.small) rfl Certificate.commonName_small rfl rfl
    Certificate.verifySignedBy_small Certificate.publicKey_small (by decide)

end Enrollment.Client
