/-
What the service gives away: a certificate to those who know the token, and
to everybody else no more than that something was refused.

The signer may do anything at all; `recording` has it keep a list of what it
was asked.  A body that is not admitted leaves that list as it was, and one
that is admitted adds its own request, once (`run_of_not_admitted`,
`run_of_admitted`).  What is answered then depends on the signer's answer
alone: it is a certificate if the answer names an issuer, and otherwise one
and the same refusal.
-/
import Enrollment.Proofs.Service.Handler

namespace Enrollment.Service

-- ============================================================== admission

/-- The body is complete, its request for a certificate can be read, and its code
is the one of the key in it. -/
def Admits (token : Token) (body : Bytes) (csr : SigningRequest) : Prop :=
  ∃ text, Request.ofJson body = .ok ⟨some (token.mac csr.publicKey), some text⟩
    ∧ SigningRequest.ofPem text = .ok csr

/-- The body is complete and its request for a certificate can be read, but its
code is another one. -/
def Misauthenticates (token : Token) (body : Bytes) : Prop :=
  ∃ code text csr, Request.ofJson body = .ok ⟨some code, some text⟩
    ∧ SigningRequest.ofPem text = .ok csr ∧ code ≠ token.mac csr.publicKey

variable {token : Token} {body : Bytes} {csr : SigningRequest}

/-- What is not admitted is badly formed or forbidden. -/
theorem status_of_authenticate {why : Rejection} (h : authenticate token body = .error why) :
    why.status = 400 ∨ why.status = 403 := by
  have hall : ∀ why ∈ [Rejection.malformed, .missingCode, .missingRequest, .invalidRequest,
      .forbidden], why.status = 400 ∨ why.status = 403 := by decide
  exact hall why (mem_of_authenticate h)

/-- A request with another code is forbidden. -/
theorem authenticate_of_misauthenticates (h : Misauthenticates token body) :
    authenticate token body = .error .forbidden := by
  obtain ⟨code, text, csr, hrequest, hread, hne⟩ := h
  rw [authenticate_of_complete hrequest hread, if_neg hne.symm]

-- ================================================================= asking

section

variable {m : Type → Type} [Monad m] {signs : SignsIn m}

/-- A signer that keeps a list of the requests it was asked with. -/
def recording (signs : SignsIn m) : SignsIn (StateT (List SigningRequest) m) := fun csr => do
  modify (· ++ [csr])
  StateT.lift (signs csr)

/-- What is not admitted is rejected, and no signer is asked. -/
theorem run_of_not_admitted {why : Rejection} (h : authenticate token body = .error why)
    (asked : List SigningRequest) :
    (handle token (recording signs) body).run asked = pure (.rejected why, asked) := by
  rw [handle_of_not_admitted h]
  rfl

/-- For what is admitted a signer is asked once, and its answer decides. -/
theorem run_of_admitted [LawfulMonad m] (h : authenticate token body = .ok csr)
    (asked : List SigningRequest) :
    (handle token (recording signs) body).run asked
      = (fun answer => (conclude token answer, asked ++ [csr])) <$> signs csr := by
  rw [handle_of_admitted h, StateT.run_map]
  unfold recording
  simp [StateT.run_bind, StateT.run_modify]

end

-- ================================================================ answers

/-- What is answered with a signer's answer: a certificate with a code over the key
of its issuer, if the answer names one, and else nothing but an error. -/
structure Answers (token : Token) (answer : Except Failure Chain) (reply : Reply) : Prop where
  granted : ∀ chain issuer, answer = .ok chain → chain.toList[1]? = some issuer →
    reply.status = 200 ∧ reply.message
      = { hmac := some (token.mac issuer.publicKey), certificate := some chain.leaf.pem }
  refused : (∀ chain, answer = .ok chain → chain.length < 2) →
    reply.status = 500 ∧ ∃ text, reply.message = { error := some text }

/-- An answer without a second certificate cannot be passed on. -/
theorem conclude_of_lt {answer : Except Failure Chain}
    (h : ∀ chain, answer = .ok chain → chain.length < 2) :
    conclude token answer = .rejected .signingFailed := by
  cases answer with
  | error failure => rfl
  | ok chain =>
    obtain ⟨leaf, issuers, hlength⟩ := chain
    cases issuers with
    | nil => rfl
    | cons issuer rest =>
      have hshort := h _ rfl
      simp only [Chain.length, List.length_cons] at hshort
      omega

theorem conclude_answers (token : Token) (answer : Except Failure Chain) :
    Answers token answer (conclude token answer) where
  granted := by
    rintro ⟨leaf, issuers, hlength⟩ issuer rfl hissuer
    cases issuers with
    | nil => cases hissuer
    | cons first rest =>
      cases hissuer
      exact ⟨rfl, rfl⟩
  refused h := by
    rw [conclude_of_lt h]
    exact ⟨rfl, _, rfl⟩

-- ============================================================== discretion

/-- A signer is asked only for what is admitted, and then once; what is not
admitted is answered with an error and nothing else. -/
structure Discreet {m : Type → Type} [Monad m] (token : Token) (signs : SignsIn m)
    (body : Bytes) : Prop where
  /-- Keeping a list of what was asked does not change what is answered. -/
  recorded : ∀ asked, Prod.fst <$> (handle token (recording signs) body).run asked
    = handle token signs body
  notAdmitted : (∀ csr, ¬Admits token body csr) →
    ∃ reply : Reply, (reply.status = 400 ∨ reply.status = 403)
      ∧ (∃ text, reply.message = { error := some text })
      ∧ ∀ asked, (handle token (recording signs) body).run asked = pure (reply, asked)
  admitted : ∀ csr, Admits token body csr →
    ∃ reply : Except Failure Chain → Reply, (∀ answer, Answers token answer (reply answer))
      ∧ ∀ asked, (handle token (recording signs) body).run asked
        = (fun answer => (reply answer, asked ++ [csr])) <$> signs csr

/-- The handler is discreet, whatever the signer is and does. -/
theorem handle_discreet {m : Type → Type} [Monad m] [LawfulMonad m] (token : Token)
    (signs : SignsIn m) (body : Bytes) : Discreet token signs body := by
  cases hbody : authenticate token body with
  | error why =>
    refine ⟨fun asked => ?_, fun _ => ⟨.rejected why, status_of_authenticate hbody, ⟨_, rfl⟩,
      run_of_not_admitted hbody⟩, fun csr hcsr => ?_⟩
    · rw [run_of_not_admitted hbody, handle_of_not_admitted hbody, map_pure]
    · cases hbody.symm.trans (authenticate_eq_ok_iff.2 hcsr)
  | ok csr =>
    refine ⟨fun asked => ?_, fun hnone => absurd (authenticate_eq_ok_iff.1 hbody) (hnone csr),
      fun other hother => ?_⟩
    · rw [run_of_admitted hbody, handle_of_admitted hbody, Functor.map_map]
    · cases hbody.symm.trans (authenticate_eq_ok_iff.2 hother)
      exact ⟨conclude token, conclude_answers token, run_of_admitted hbody⟩

/-- An answer that cannot be passed on: a failure, or a chain without a second
certificate. -/
abbrev Unusable :=
  { answer : Except Failure Chain // ∀ chain, answer = .ok chain → chain.length < 2 }

/-- The service asks its signer with discretion, and its refusals say nothing: all
bodies with a wrong code are answered alike by every service, and so are all
admitted bodies whose signer does not come up with a usable chain. -/
theorem discretion :
    (∀ {m : Type → Type} [Monad m] [LawfulMonad m] (token : Token) (signs : SignsIn m)
        (body : Bytes), Discreet token signs body)
      ∧ ∃ forbidden failed : Http.Response, forbidden.status = 403 ∧ failed.status = 500
        ∧ (∀ {m : Type → Type} [Monad m] [LawfulMonad m] (token : Token) (signs : SignsIn m)
            (body : Bytes), Misauthenticates token body →
          Reply.toHttp <$> handle token signs body = pure forbidden)
        ∧ ∀ {m : Type → Type} [Monad m] [LawfulMonad m] (token : Token)
            (fails : SigningRequest → m Unusable) (body : Bytes) (csr : SigningRequest),
          Admits token body csr →
          Reply.toHttp <$> handle token (fun csr => Subtype.val <$> fails csr) body
            = (fun _ => failed) <$> fails csr := by
  refine ⟨handle_discreet, (Reply.rejected .forbidden).toHttp,
    (Reply.rejected .signingFailed).toHttp, rfl, rfl, ?_, ?_⟩
  · intro m _ _ token signs body h
    rw [handle_of_not_admitted (authenticate_of_misauthenticates h), map_pure]
  · intro m _ _ token fails body csr h
    rw [handle_of_admitted (authenticate_eq_ok_iff.2 h), Functor.map_map, Functor.map_map]
    refine congrArg (· <$> fails csr) (funext fun answer => ?_)
    rw [conclude_of_lt answer.2]

/-- Another token than the small one. -/
def otherToken : Token := ⟨[3], by decide⟩

theorem misauthenticates_small : Misauthenticates otherToken (smallBody .edwards) :=
  ⟨_, _, .edwards, Request.ofJson_toJson _, SigningRequest.ofPem_edwards, by decide +kernel⟩

/-- What is sent with the small token is granted by a service that has it, and
forbidden by one that has another, which does not ask its signer. -/
theorem discretion_edwards :
    ∃ chain reply, Signer.small.issue .edwards ⟨0, 0⟩ [1] = .ok chain
      ∧ (handle .small (recording (signsWith .small ⟨0, 0⟩ [1])) (smallBody .edwards)).run []
        = .ok (reply, [.edwards])
      ∧ reply.status = 200
      ∧ reply.message = { hmac := some (Token.small.mac Certificate.small.publicKey),
                          certificate := some chain.leaf.pem }
      ∧ ∃ response : Http.Response, response.status = 403
        ∧ Reply.toHttp <$> handle otherToken (signsWith .small ⟨0, 0⟩ [1]) (smallBody .edwards)
          = .ok response := by
  obtain ⟨chain, hissue⟩ := Signer.issue_small_edwards
  obtain ⟨hdiscreet, forbidden, failed, hstatus403, -, hforbidden, -⟩ := discretion
  have hadmits : Admits .small (smallBody .edwards) .edwards :=
    ⟨_, Request.ofJson_toJson _, SigningRequest.ofPem_edwards⟩
  obtain ⟨reply, hreply, hrun⟩ :=
    (hdiscreet .small (signsWith .small ⟨0, 0⟩ [1]) (smallBody .edwards)).admitted _ hadmits
  have hchain := (Chain.prepend_eq_ok_iff.1 (Signer.prepend_of_issue hissue)).2.2
  have hissuer : chain.toList[1]? = some .small := by
    rw [Chain.toList, hchain]
    rfl
  obtain ⟨hstatus, hmessage⟩ := (hreply (.ok chain)).granted chain .small rfl hissuer
  refine ⟨chain, reply (.ok chain), hissue, ?_, hstatus, hmessage, forbidden,
    hstatus403, hforbidden _ _ _ misauthenticates_small⟩
  rw [hrun, signsWith_eq_ok_iff.2 hissue]
  rfl

end Enrollment.Service
