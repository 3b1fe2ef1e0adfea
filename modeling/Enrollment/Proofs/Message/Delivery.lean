/-
What an honest side sends arrives.

The texts that a message carries are limited to 16384 bytes, or are made of as many, and
the body of a message to 1048576.  A text takes at most six times its place in a body, and
a certificate at most four times its place in a text, so every body of a request that was
read and every body with a certificate is below the limit, whatever text is around the
blocks.  So neither side refuses it for its size, and the other side reads in it what was
sent (`Message.arrives`).
-/
import Enrollment.Proofs.Sizes

namespace Enrollment

open Service (SignsIn serve handle authenticate)

/-- In some body a request for a certificate arrives, as the text it came in: the body is
not too large, the service answers what it says, and reads that request in it. -/
structure Request.Arrives (token : Token) (text : String) (csr : SigningRequest) (body : Bytes) :
    Prop where
  length_le : body.length ≤ 1048576
  answered : ∀ {m : Type → Type} [Monad m] (own : Token) (signs : SignsIn m) (b : Http.Body),
    b.Carries body → serve own signs b = handle own signs body
  read : ∃ r sent, Request.ofJson body = .ok r ∧ r.csr = some sent ∧ sent = text
    ∧ SigningRequest.ofPem sent = .ok csr ∧ csr.pem = text
  admitted : authenticate token body = .ok csr

/-- In some body a certificate arrives: the body is not too large, every client takes it
up, and reads that certificate in it. -/
structure Response.Arrives (leaf : Certificate) (body : Bytes) : Prop where
  length_le : body.length ≤ 1048576
  taken : ∀ (c : Client) (b : Http.Body), b.Carries body → c.readBody b = .ok body
  read : ∃ r sent, Response.ofJson body = .ok r ∧ r.certificate = some sent
    ∧ Certificate.ofPem sent = .ok leaf

/-- A request that was read arrives, with the code of any token. -/
theorem Request.arrives_ofToken (token : Token) {text : String} {csr : SigningRequest}
    (h : SigningRequest.ofPem text = .ok csr) :
    Arrives token text csr (ofToken token csr).toJson where
  length_le := length_toJson_ofToken_le token csr
  answered own signs b hb := Service.serve_of_carries hb (length_toJson_ofToken_le token csr)
  read := by
    have hpem : csr.pem = text := SigningRequest.pem_of_ofPem h
    refine ⟨ofToken token csr, csr.pem, ofJson_toJson _, rfl, hpem, ?_, hpem⟩
    rw [hpem]
    exact h
  admitted := by
    have hread : SigningRequest.ofPem csr.pem = .ok csr := by
      rw [SigningRequest.pem_of_ofPem h]
      exact h
    rw [Service.authenticate_ofToken token hread, if_pos rfl]

/-- A certificate that is handed over arrives, with the code of any token. -/
theorem Response.arrives_issued (token : Token) (issuer leaf : Certificate) :
    Arrives leaf (issued token issuer leaf).toJson where
  length_le := length_toJson_issued_le token issuer leaf
  taken c b hb := by
    have hsize : ¬Limits.bodySize < (issued token issuer leaf).toJson.length :=
      Nat.not_lt.2 (length_toJson_issued_le token issuer leaf)
    rw [c.readBody_carried hb, if_neg hsize]
  read := ⟨issued token issuer leaf, leaf.pem, ofJson_toJson _, rfl, leaf.ofPem_pem⟩

/-- Every request for a certificate that is read from a text, whatever stands around its
block, arrives in the body that is sent for it, and every certificate in the body that hands
it over. -/
theorem Message.arrives :
    (∀ (token : Token) (text : String) (csr : SigningRequest),
        SigningRequest.ofPem text = .ok csr →
          Request.Arrives token text csr (Request.ofToken token csr).toJson)
      ∧ ∀ (token : Token) (issuer leaf : Certificate),
        Response.Arrives leaf (Response.issued token issuer leaf).toJson :=
  ⟨fun token _ _ h => Request.arrives_ofToken token h, Response.arrives_issued⟩

-- =========================================================== small samples

/-- The block of a request is read with any text around it, if that has no dash in front
and all is not too large. -/
theorem SigningRequest.exists_ofPem_surrounded {der : Bytes} {fields : Fields}
    (hread : (Fields.read der).map (·.1) = some fields) (front behind : String)
    (hfront : '-' ∉ front.toList)
    (hsize : Utf8.size front + (4 * der.length + 82) + Utf8.size behind ≤ 16384) :
    ∃ r, ofPem (front ++ Pem.encode .lf ⟨blockTag, der⟩ ++ behind) = .ok r := by
  have hparse : Pem.parse (front ++ Pem.encode .lf ⟨blockTag, der⟩ ++ behind)
      = .ok ⟨blockTag, der⟩ :=
    Pem.parse_surrounded (show blockTag ≠ "" by decide) (show '-' ∉ blockTag.toList by decide)
      .lf hfront behind
  have hblock : Utf8.size (Pem.encode .lf ⟨blockTag, der⟩) ≤ 4 * der.length + 82 := size_block der
  have hwhole : Utf8.size (front ++ Pem.encode .lf ⟨blockTag, der⟩ ++ behind) ≤ 16384 := by
    rw [Utf8.size_append, Utf8.size_append]
    omega
  exact ⟨⟨_, der, fields, hwhole, hread⟩,
    ofPem_eq_ok_iff.2 ⟨rfl, _, hparse, List.mem_cons_self, rfl⟩⟩

/-- The small request behind characters that take six times their place in a body. -/
def SigningRequest.surrounded : String :=
  "\x01\x01\x01" ++ SigningRequest.edwards.pem ++ "\x7f\n"

theorem Message.arrives_surrounded :
    ∃ csr, SigningRequest.ofPem SigningRequest.surrounded = .ok csr
      ∧ Request.Arrives .small SigningRequest.surrounded csr (Request.ofToken .small csr).toJson
      ∧ Response.Arrives .small (Response.issued .small .small .small).toJson := by
  obtain ⟨hrequest, hresponse⟩ := Message.arrives
  obtain ⟨csr, hcsr⟩ := SigningRequest.exists_ofPem_surrounded SigningRequest.edwards.read_der
    "\x01\x01\x01" "\x7f\n" (by decide) (by decide +kernel)
  exact ⟨csr, hcsr, hrequest .small _ csr hcsr, hresponse .small .small .small⟩

end Enrollment
