/-
One token in place of another.

A service that has one token is sent what a host makes with another.  It is
forbidden, unless the two tokens make the same code of the key in the
request (`forbidden_of_other_token`).  Tokens that are the same up to zero
bytes at the end always do, as an authentication code fills its key up with
zeros; other tokens do so only where there is a collision of SHA-256.
-/
import Enrollment.Proofs.Hash.Hmac
import Enrollment.Proofs.Service.Handler

namespace Enrollment.Service

variable {token own : Token} {csr : SigningRequest}

/-- A request with a code by another token is admitted exactly when the tokens are
the same up to zero bytes at the end, or there is a collision. -/
theorem authenticate_ofToken_eq_ok_iff (hread : SigningRequest.ofPem csr.pem = .ok csr) :
    authenticate token (Request.ofToken own csr).toJson = .ok csr
      ↔ Hmac.strippedKey token.secret = Hmac.strippedKey own.secret
        ∨ Hmac.Collides token.secret own.secret csr.publicKey := by
  rw [authenticate_ofToken own hread, ← Hmac.code_eq_iff]
  show (if token.mac csr.publicKey = own.mac csr.publicKey then _ else _) = _
    ↔ token.mac csr.publicKey = own.mac csr.publicKey
  by_cases hsame : token.mac csr.publicKey = own.mac csr.publicKey
  · rw [if_pos hsame]
    exact ⟨fun _ => hsame, fun _ => rfl⟩
  · rw [if_neg hsame]
    exact ⟨fun h => (by cases h), fun h => absurd h hsame⟩

/-- Nothing that a signer answers is turned into a refusal of the token. -/
theorem status_conclude_ne (answer : Except Failure Chain) :
    (conclude token answer).status ≠ Rejection.forbidden.status := by
  rcases status_conclude answer with h | h <;> rw [h] <;> decide

/-- There are tokens of the second kind for every request: no code of a fixed length
tells all tokens apart. -/
theorem exists_collides (message : Bytes) :
    ∃ token own : Token, Hmac.strippedKey token.secret ≠ Hmac.strippedKey own.secret
      ∧ Hmac.Collides token.secret own.secret message := by
  obtain ⟨key, key', hne, hne', hstripped, hcode⟩ := Hmac.exists_code_eq message
  exact ⟨⟨key, hne⟩, ⟨key', hne'⟩, hstripped, (Hmac.code_eq_iff.1 hcode).resolve_left hstripped⟩

/-- Codes are those of the token as it is.  What a host sends with one token is
forbidden by a service with another, whatever the request, if the tokens differ
in more than zero bytes at the end and there is no collision; and if not, it is
never forbidden. -/
theorem forbidden_of_other_token {m : Type → Type} [Monad m] [LawfulMonad m] {signs : SignsIn m}
    {text : String} (hread : SigningRequest.ofPem text = .ok csr) :
    (∀ message, token.mac message = Hmac.code token.secret message)
      ∧ (Hmac.strippedKey token.secret ≠ Hmac.strippedKey own.secret →
        ¬Hmac.Collides token.secret own.secret csr.publicKey →
        ∃ reply : Reply, reply.status = 403
          ∧ handle token signs (Request.ofToken own csr).toJson = pure reply)
      ∧ (Hmac.strippedKey token.secret = Hmac.strippedKey own.secret
          ∨ Hmac.Collides token.secret own.secret csr.publicKey →
        ∃ reply : Except Failure Chain → Reply, (∀ answer, (reply answer).status ≠ 403)
          ∧ handle token signs (Request.ofToken own csr).toJson = reply <$> signs csr) := by
  have hpem := SigningRequest.pem_of_ofPem hread
  subst hpem
  refine ⟨fun _ => rfl, fun hkeys hcollides => ?_, fun h => ?_⟩
  · -- the same code would be a collision
    have hdifferent : token.mac csr.publicKey ≠ own.mac csr.publicKey := fun hsame =>
      (Hmac.code_eq_iff.1 hsame).elim hkeys hcollides
    have hforbidden : authenticate token (Request.ofToken own csr).toJson = .error .forbidden := by
      rw [authenticate_ofToken own hread, if_neg hdifferent]
    exact ⟨.rejected .forbidden, rfl, handle_of_not_admitted hforbidden⟩
  · exact ⟨conclude token, status_conclude_ne,
      handle_of_admitted ((authenticate_ofToken_eq_ok_iff hread).2 h)⟩

/-- A service whose token is the byte 2 forbids what is sent with the byte 1. -/
theorem forbidden_small_of_two :
    ∃ reply : Reply, reply.status = 403
      ∧ handle ⟨[2], by decide⟩ (signsWith .small ⟨0, 0⟩ [1])
          (Request.ofToken .small .edwards).toJson = .ok reply := by
  have hnone : ¬Hmac.Collides [2] [1] SigningRequest.edwards.publicKey :=
    fun h => absurd h.2 (by decide +kernel)
  exact (forbidden_of_other_token SigningRequest.ofPem_edwards).2.1 (by decide +kernel) hnone

/-- A service whose token is the letter `a` grants what is sent with the letter
and a zero byte behind it. -/
theorem granted_to_zero_padded :
    ∃ (token own : Token) (s : Signer) (reply : Reply), token.secret = [0x61]
      ∧ own.secret = [0x61, 0x00]
      ∧ SigningRequest.ofPem SigningRequest.edwards.pem = .ok .edwards
      ∧ handle token (signsWith s ⟨0, 0⟩ [1]) (Request.ofToken own .edwards).toJson = .ok reply
      ∧ reply.status = 200 := by
  obtain ⟨chain, hissue⟩ := Signer.issue_small_edwards
  have hread := SigningRequest.ofPem_edwards
  have hadmitted : authenticate ⟨[0x61], by decide⟩
      (Request.ofToken ⟨[0x61, 0x00], by decide⟩ .edwards).toJson = .ok .edwards :=
    (authenticate_ofToken_eq_ok_iff hread).2 (.inl (by decide +kernel))
  exact ⟨_, _, .small, _, rfl, rfl, hread, handle_of_issue hadmitted hissue, rfl⟩

end Enrollment.Service
