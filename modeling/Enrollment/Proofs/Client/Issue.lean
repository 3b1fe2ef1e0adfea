/-
What a client has when a certificate was issued for a key it made.

It verifies that the certificate carries the key of its request, and that is
the key it made; so the chain with that key loads as an authority does
(`ofPem_of_issue`), whatever else the peer put into the chain.
-/
import Enrollment.Proofs.Client.Conduct
import Enrollment.Proofs.Key.Document
import Enrollment.Proofs.SigningRequest.Generate

namespace Enrollment.Client

variable [Signatures] {c : Client} {network : Network} {subject : String} {draw : Bytes}
  {key : KeyPair} {csr : SigningRequest}

/-- What comes of an exchange does not depend on the stages before it. -/
theorem result_exchange (c : Client) (network : Network) (csr : SigningRequest)
    (stages : List Stage) :
    (c.exchange network csr stages).result = (c.sign network csr).result := by
  unfold sign exchange
  cases c.connect network with
  | error failure => rfl
  | ok found =>
    dsimp only
    unfold receive
    cases found.2 (c.toHttp csr) with
    | broken text => rfl
    | stalled => rfl
    | response response =>
      dsimp only
      cases c.readBody response.body <;> rfl

/-- A certificate that a client accepts carries the key of the request. -/
theorem publicKey_of_sign {chain : Chain} (h : (c.sign network csr).result = .ok chain) :
    chain.leaf.publicKey = csr.publicKey := by
  obtain ⟨presented, answer, P, response, body, -, -, -, -, -, hjudge⟩ := sign_eq_ok h
  obtain ⟨m, text, L, -, -, -, -, -, hkey, hprepend⟩ := judge_eq_ok hjudge
  rw [(Chain.prepend_eq_ok_iff.1 hprepend).2.1, hkey]

/-- What is prepared is a key from the draw and a request that it signs. -/
theorem prepare_eq_ok (h : c.prepare subject draw = .ok (key, csr)) :
    key = KeyPair.generate c.settings.algorithm draw
      ∧ SigningRequest.generate subject c.settings.names key = .ok csr := by
  obtain ⟨made, hmade, hpair⟩ := map_eq_ok h
  cases hpair
  exact ⟨rfl, hmade⟩

theorem prepare_of_generate (c : Client) {draw : Bytes}
    (h : SigningRequest.generate subject c.settings.names
      (KeyPair.generate c.settings.algorithm draw) = .ok csr) :
    c.prepare subject draw = .ok (KeyPair.generate c.settings.algorithm draw, csr) := by
  rw [prepare, h]
  rfl

/-- Nothing is prepared for a name that does not parse. -/
theorem prepare_of_subject (c : Client) (draw : Bytes) {failure : Failure}
    (h : Name.Written.parse subject = .error failure) :
    ∃ halt, c.prepare subject draw = .error halt := by
  cases hprepare : c.prepare subject draw with
  | error halt => exact ⟨halt, rfl⟩
  | ok found =>
    obtain ⟨names, entries, der, -, hentries, -⟩ :=
      SigningRequest.generate_eq_ok_iff.1 (prepare_eq_ok hprepare).2
    cases hentries.symm.trans h

/-- Nothing is prepared for alternative names that are none. -/
theorem prepare_of_names (subject : String) (draw : Bytes) {fault : ContentFault}
    (h : AlternativeName.ofTexts c.settings.names = .error fault) :
    ∃ halt, c.prepare subject draw = .error halt := by
  cases hprepare : c.prepare subject draw with
  | error halt => exact ⟨halt, rfl⟩
  | ok found =>
    obtain ⟨names, entries, der, hnames, -⟩ :=
      SigningRequest.generate_eq_ok_iff.1 (prepare_eq_ok hprepare).2
    cases hnames.symm.trans h

/-- What cannot be prepared is not sent. -/
theorem issue_of_prepare_error (network : Network) {halt : Halt}
    (h : c.prepare subject draw = .error halt) :
    c.issue network subject draw = .error halt := by
  rw [issue, h]
  rfl

/-- With the key that was prepared comes what the exchange for its request brings. -/
theorem issue_of_prepare (network : Network) (h : c.prepare subject draw = .ok (key, csr)) :
    ∃ outcome, c.issue network subject draw = .ok (key, outcome)
      ∧ outcome.result = (c.sign network csr).result := by
  refine ⟨c.exchange network csr [.init, .keyGenerated], ?_, result_exchange c network csr _⟩
  rw [issue, h]
  rfl

/-- A key that was made and the chain that was issued for it load from their texts. -/
theorem ofPem_of_issue (hsized : Signatures.Sized) {chain : Chain}
    (hprepare : c.prepare subject draw = .ok (key, csr))
    (hsign : (c.sign network csr).result = .ok chain) :
    Authority.ofPem chain.pem key.pem = .ok ⟨chain, key, c.settings.algorithm⟩ := by
  obtain ⟨hkey, hgenerate⟩ := prepare_eq_ok hprepare
  have hdocument : KeyPair.ofDocument? key.document = some key := by
    rw [hkey]
    exact KeyPair.ofDocument?_generate hsized _ _
  have halgorithm : key.algorithm? = some c.settings.algorithm := by
    rw [hkey]
    exact KeyPair.algorithm?_generate _ _
  have hsame : chain.leaf.publicKey = key.encodedPublic :=
    (publicKey_of_sign hsign).trans (SigningRequest.publicKey_of_generate hgenerate)
  exact Authority.ofPem_pem (a := ⟨chain, key, c.settings.algorithm⟩) hdocument
    ⟨halgorithm, hsame⟩

end Enrollment.Client
