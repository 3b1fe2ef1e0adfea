/-
Enrolment from end to end: a client of an honest service gets what the
service's own signer issues.

A client that reaches such a service is answered as the handler answers the
body it sent, under the chain that the service presents (`Reaches`).  What
the exchange comes to is then told by the two tokens and by the signer
(`Follows`): a rejection where the tokens disagree about the key or nothing
can be issued, and otherwise the very chain that was issued.

The one thing in between is the name of the authority.  Any text can be the
common name of a certificate, but a client dials nothing that cannot name a
server (`follows_of_reaches`, `not_follows_unnamed`).
-/
import Enrollment.Proofs.Client.Acceptance
import Enrollment.Proofs.Service.Handler
import Enrollment.Proofs.Service.Route

namespace Enrollment.Refinement

open Service (Server Reply Rejection handle signsWith authenticate checkRate)

-- ============================================================= statements

/-- A client reaches a service that has a place for it, lets its request through
and signs with its own authority. -/
structure Reaches [Signatures] (c : Client) (network : Client.Network) (server : Server)
    (signer : Signer) (now : Time.Instant) (serial : Bytes) (moment : Nat) : Prop where
  running : server.isRunning = true
  free : server.free ≠ 0
  passed : (checkRate server.limiter moment).1 = true
  own : signer.authority = server.authority
  contact : network c.settings.host c.settings.port
    = server.contact (signsWith signer now serial) moment

/-- An exchange fails with a status and a body that spells an error. -/
def FailsWith (result : Except Failure Chain) (status : Nat) (message : String) : Prop :=
  ∃ text, result = .error (.badStatus status text)
    ∧ Response.ofJson (Utf8.encode text) = .ok (.rejected message)

/-- An exchange comes to what the tokens of both sides make of the key and to what
the signer issues. -/
structure Follows (server client : Token) (presented : Chain) (csr : SigningRequest)
    (issued : Except Halt Chain) (result : Except Failure Chain) : Prop where
  forbidden (h : server.mac csr.publicKey ≠ client.mac csr.publicKey) :
    FailsWith result 403 "forbidden"
  failed (h : server.mac csr.publicKey = client.mac csr.publicKey) {failure : Failure}
    (hissued : issued = .error (.failed failure)) : FailsWith result 500 "internal error"
  crashed (h : server.mac csr.publicKey = client.mac csr.publicKey) {crash : Crash}
    (hissued : issued = .error (.crashed crash)) :
    result = .error (.http ("request failed: " ++ "connection closed before message completed"))
  accepted (h : server = client) {chain : Chain} (hissued : issued = .ok chain)
    (hkey : chain.leaf.publicKey = csr.publicKey) :
    result = .ok chain ∧ chain.issuers = presented.toList

-- ========================================================= what is answered

section

variable [Signatures] {c : Client} {network : Client.Network} {server : Server} {signer : Signer}
  {now : Time.Instant} {serial : Bytes} {moment : Nat} {csr : SigningRequest}

/-- The connection to a service that is reached. -/
theorem Reaches.connected (h : Reaches c network server signer now serial moment) :
    network c.settings.host c.settings.port
      = .connected (server.authority.chain.toList.map (·.der)) fun r =>
          Service.answerOf (server.request (signsWith signer now serial) moment r) := by
  rw [h.contact, Server.contact, h.running, if_neg h.free]
  rfl

/-- The conduct of a service that replies. -/
def conductOf (server : Server) (reply : Reply) : Client.Conduct where
  presented := server.authority.chain.toList.map (·.der)
  status := reply.status
  body := reply.message.toJson

/-- A client meets a service by its reply to the body that was sent. -/
theorem Reaches.meets (h : Reaches c network server signer now serial moment) {reply : Reply}
    (hreply : handle server.token (signsWith signer now serial)
      (Request.ofToken c.token csr).toJson = .ok reply) :
    c.Meets network csr (conductOf server reply) := by
  refine ⟨_, .ofBytes reply.message.toJson, h.connected, ?_, Http.Body.carries_ofBytes _⟩
  rw [Service.answerOf_request h.passed, hreply]
  rfl

section

variable (hserver : Net.HostName.isServer c.settings.host = true)
  (hname : server.authority.certificate.commonName = some c.settings.host)

include hserver hname

/-- A rejection reaches the client with its status and its text. -/
theorem Reaches.sign_of_rejected (h : Reaches c network server signer now serial moment)
    {why : Rejection}
    (hreply : handle server.token (signsWith signer now serial)
      (Request.ofToken c.token csr).toJson = .ok (.rejected why)) :
    FailsWith (c.sign network csr).result why.status why.message := by
  refine ⟨_, ?_, Response.ofJson_decodeLossy _⟩
  rw [Client.result_of_captured hserver (h.meets hreply) (P := server.authority.chain) rfl hname
    why.length_toJson_le]
  exact Client.judge_of_status why.status_not_success

/-- Nothing reaches the client of a reply that breaks down. -/
theorem Reaches.sign_of_crashed (h : Reaches c network server signer now serial moment)
    {crash : Crash}
    (hreply : handle server.token (signsWith signer now serial)
      (Request.ofToken c.token csr).toJson = .error crash) :
    (c.sign network csr).result
      = .error (.http ("request failed: " ++ "connection closed before message completed")) := by
  refine Client.sign_of_broken hserver h.connected hname ?_
  rw [Service.answerOf_request h.passed, hreply]
  rfl

/-- A chain that is issued under the client's own token is what the client gets. -/
theorem Reaches.sign_of_issued (h : Reaches c network server signer now serial moment)
    (hbuilt : server.authority.Built) (hsound : server.authority.key.secret.Sound)
    (htoken : server.token = c.token) (hread : SigningRequest.ofPem csr.pem = .ok csr)
    {chain : Chain} (hissue : signer.issue csr now serial = .ok chain)
    (hkey : chain.leaf.publicKey = csr.publicKey) :
    (c.sign network csr).result = .ok chain
      ∧ chain.issuers = server.authority.chain.toList := by
  have hadmitted : authenticate server.token (Request.ofToken c.token csr).toJson = .ok csr := by
    rw [Service.authenticate_ofToken c.token hread, htoken, if_pos rfl]
  have hmeets := h.meets (Service.handle_of_issue hadmitted hissue)
  have hprepend := Signer.prepend_of_issue hissue
  -- the signer's authority is the one that the service presents
  rw [← h.own] at hbuilt hsound
  have hsigned := Signer.verifySignedBy_of_issue hbuilt hsound hissue
  rw [h.own] at hmeets hprepend hsigned
  rw [htoken] at hmeets
  obtain ⟨hroom, -, hissuers⟩ := Chain.prepend_eq_ok_iff.1 hprepend
  refine ⟨(Client.sign_eq_ok_iff hserver hmeets).2 ⟨?_, server.authority.chain, chain.leaf, rfl,
    (Client.brings_of_issued rfl).2, rfl, hissuers⟩, hissuers⟩
  exact Client.passes_of_issued (P := server.authority.chain) rfl hname rfl rfl hsigned hkey hroom

end

/-- What comes of an exchange with a service that is reached: what the signer of
the service and the two tokens say, unless the authority's name cannot name a
server. -/
theorem follows_of_reaches (h : Reaches c network server signer now serial moment)
    (hbuilt : server.authority.Built) (hsound : server.authority.key.secret.Sound)
    (hname : server.authority.certificate.commonName = some c.settings.host) {text : String}
    (hcsr : SigningRequest.ofPem text = .ok csr) :
    (Net.HostName.isServer c.settings.host = true →
      Follows server.token c.token server.authority.chain csr (signer.issue csr now serial)
        (c.sign network csr).result)
    ∧ (Net.HostName.isServer c.settings.host = false →
      (c.sign network csr).result = .error (.protocol (.serverName c.settings.host))) := by
  have hpem := SigningRequest.pem_of_ofPem hcsr
  subst hpem
  have hadmitted (hmac : server.token.mac csr.publicKey = c.token.mac csr.publicKey) :
      authenticate server.token (Request.ofToken c.token csr).toJson = .ok csr := by
    rw [Service.authenticate_ofToken c.token hcsr, if_pos hmac]
  refine ⟨fun hserver => ?_, fun hserver => Client.sign_of_not_isServer hserver⟩
  refine ⟨fun hmac => ?forbidden, fun hmac failure hissue => ?failed,
    fun hmac crash hissue => ?crashed, fun htoken chain hissue hkey => ?accepted⟩
  case forbidden =>
    have hrefused : authenticate server.token (Request.ofToken c.token csr).toJson
        = .error .forbidden := by
      rw [Service.authenticate_ofToken c.token hcsr, if_neg hmac]
    exact h.sign_of_rejected hserver hname (Service.handle_of_not_admitted hrefused)
  case failed =>
    exact h.sign_of_rejected hserver hname (Service.handle_of_failed (hadmitted hmac) hissue)
  case crashed =>
    exact h.sign_of_crashed hserver hname (Service.handle_of_crashed (hadmitted hmac) hissue)
  case accepted => exact h.sign_of_issued hserver hname hbuilt hsound htoken hcsr hissue hkey

end

-- ============================================================ small samples

/-- An authority with the small key whose name cannot name a server. -/
def generateUnnamed : Except Halt Authority :=
  Authority.generate "my ca" .ed25519 1 ⟨0, 0⟩ ⟨[7], [1]⟩

/-- An authority is made for a name that no server can have, with the small key. -/
theorem generateUnnamed_eq_ok :
    ∃ a, generateUnnamed = .ok a ∧ a.key.secret = Authority.small.key.secret
      ∧ a.certificate.commonName = some "my ca" := by
  have hname : (generateUnnamed.toOption.any
      (·.certificate.commonName == some "my ca")) = true := by decide +kernel
  cases ha : generateUnnamed with
  | error halt =>
    rw [ha] at hname
    cases hname
  | ok a =>
    rw [ha] at hname
    obtain ⟨names, window, der, hkey, -, -⟩ := Authority.generate_eq_ok ha
    exact ⟨a, rfl, congrArg KeyPair.secret hkey, beq_iff_eq.1 hname⟩

section

/-- Signatures as the standards define them, where what the small authority signs
is sure to verify. -/
local instance smallSignatures : Signatures where
  verify scheme key message signature :=
    Standard.verify scheme key message signature
      || (scheme == Authority.small.key.secret.scheme
        && key == Standard.publicKey Authority.small.key.secret
        && signature == Standard.sign Authority.small.key.secret message)
  sign := Standard.sign
  publicKey := Standard.publicKey

theorem sound_small : Authority.small.key.secret.Sound := by
  intro message
  refine Bool.or_eq_true_iff.2 (.inr ?_)
  rw [Bool.and_eq_true, Bool.and_eq_true]
  exact ⟨⟨beq_self_eq_true _, beq_self_eq_true _⟩, beq_self_eq_true _⟩

-- Generating only signs, so it is the same by these signatures; issuing verifies
-- as well, and there these signatures accept more.

/-- An authority that is made with the curves themselves is built. -/
theorem built_of_standard {hostname : String} {algorithm : KeyAlgorithm} {days : Nat}
    {now : Time.Instant} {draw : Authority.Draw} {a : Authority}
    (h : @Authority.generate Standard.signatures hostname algorithm days now draw = .ok a) :
    a.Built := by
  have hgenerate : Authority.generate hostname algorithm days now draw = .ok a := h
  exact .generated hgenerate

/-- A signature that is good by the curves themselves is good by these as well. -/
theorem verifySignature_of_standard {csr : SigningRequest}
    (h : @SigningRequest.verifySignature Standard.signatures csr = .ok ()) :
    csr.verifySignature = .ok () := by
  have hstandard := mapError_eq_ok h
  have hverify : csr.fields.signed.verify csr.fields.publicKey = .ok () := by
    unfold Signed.verify at hstandard ⊢
    split at hstandard
    case h_1 => cases hstandard
    case h_2 scheme _ =>
      split at hstandard
      case isTrue haccepted => exact if_pos (Bool.or_eq_true_iff.2 (.inl haccepted))
      case isFalse => cases hstandard
  rw [SigningRequest.verifySignature, hverify]
  rfl

/-- What is issued with the curves themselves is issued with these as well. -/
theorem issue_of_standard {s : Signer} {csr : SigningRequest} {now : Time.Instant}
    {serial : Bytes} {chain : Chain}
    (h : @Signer.issue Standard.signatures s csr now serial = .ok chain) :
    s.issue csr now serial = .ok chain := by
  obtain ⟨⟨⟩, hverify, hsteps⟩ := bind_eq_ok h
  have hverify := verifySignature_of_standard (Halt.lift_eq_ok hverify)
  show Halt.lift csr.verifySignature >>= _ = _
  rw [hverify]
  exact hsteps

/-- A small service of a signer, with a place for one connection and no limit of
the rate. -/
def smallServer (s : Signer) : Server where
  settings := {}
  authority := s.authority
  token := .small
  limiter := none
  listening := some ⟨.v4 [127, 0, 0, 1], 8443⟩
  free := 1

def smallNetwork (s : Signer) : Client.Network := fun _ _ =>
  (smallServer s).contact (signsWith s ⟨0, 0⟩ [1]) 0

theorem reaches_small (c : Client) (s : Signer) :
    Reaches c (smallNetwork s) (smallServer s) s ⟨0, 0⟩ [1] 0 :=
  ⟨rfl, Nat.one_ne_zero, rfl, rfl, rfl⟩

/-- A client that shares the token of a small service gets the chain that its
signer issues. -/
theorem follows_edwards :
    ∃ chain, Reaches .small (smallNetwork .small) (smallServer .small) .small ⟨0, 0⟩ [1] 0
      ∧ Authority.small.Built ∧ Authority.small.key.secret.Sound
      ∧ Authority.small.certificate.commonName = some "h"
      ∧ Signer.small.issue .edwards ⟨0, 0⟩ [1] = .ok chain
      ∧ (Client.small.sign (smallNetwork .small) .edwards).result = .ok chain := by
  obtain ⟨chain, hchain⟩ := Signer.issue_small_edwards
  have hissue := issue_of_standard hchain
  have hbuilt : Authority.small.Built := built_of_standard Authority.generate_small
  have hreaches := reaches_small .small .small
  have hfollows := (follows_of_reaches hreaches hbuilt sound_small Certificate.commonName_small
    SigningRequest.ofPem_edwards).1 Client.isServer_small
  exact ⟨chain, hreaches, hbuilt, sound_small, Certificate.commonName_small, hissue,
    (hfollows.accepted rfl hissue (Signer.publicKey_of_issue_edwards hissue)).1⟩

/-- A client of an authority whose name cannot name a server, with a token of its
own. -/
def unnamedClient : Client := ⟨{ host := "my ca" }, ⟨[2], by decide⟩⟩

/-- A service that would reject a request is not even asked when the name of its
authority cannot name a server. -/
theorem not_follows_unnamed :
    ∃ s : Signer, Reaches unnamedClient (smallNetwork s) (smallServer s) s ⟨0, 0⟩ [1] 0
      ∧ s.authority.Built ∧ s.authority.key.secret.Sound
      ∧ s.authority.certificate.commonName = some unnamedClient.settings.host
      ∧ SigningRequest.ofPem SigningRequest.edwards.pem = .ok .edwards
      ∧ ¬Follows (smallServer s).token unnamedClient.token s.authority.chain .edwards
          (s.issue .edwards ⟨0, 0⟩ [1]) (unnamedClient.sign (smallNetwork s) .edwards).result := by
  obtain ⟨a, ha, hsecret, hname⟩ := generateUnnamed_eq_ok
  have hsound : a.key.secret.Sound := by
    rw [hsecret]
    exact sound_small
  refine ⟨⟨a, 1, Nat.one_pos⟩, reaches_small _ _, built_of_standard ha, hsound, hname,
    SigningRequest.ofPem_edwards, fun hfollows => ?_⟩
  have hmac : Token.small.mac SigningRequest.edwards.publicKey
      ≠ unnamedClient.token.mac SigningRequest.edwards.publicKey := by decide +kernel
  obtain ⟨text, hresult, -⟩ := hfollows.forbidden hmac
  have hserver : Net.HostName.isServer unnamedClient.settings.host = false := by decide +kernel
  rw [Client.sign_of_not_isServer hserver] at hresult
  cases hresult

end

end Enrollment.Refinement
