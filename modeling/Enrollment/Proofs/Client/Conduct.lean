/-
What a client checks of its peer.

Once the handshake is done a peer is told by three things: the certificates
it presents, and the status and the bytes of what it answers (`Conduct`).  A
client makes twelve checks of these (`Check`), each stated here on its own
(`Passes`) with the failure it reports (`Reports`).  The rest follows an
exchange from check to check: what is captured of a chain, how a response is
judged, and what an exchange comes to once the checks up to some place are
passed.
-/
import Enrollment.Client.Exchange
import Enrollment.Proofs.Authority.Signer
import Enrollment.Proofs.Http

namespace Enrollment.Client

-- ================================================================ conduct

/-- What a client meets once the handshake is done. -/
structure Conduct where
  /-- The certificates that are presented. -/
  presented : List Bytes
  /-- The status of the response. -/
  status : Nat
  /-- The bytes of the response's body. -/
  body : Bytes
  deriving Repr, DecidableEq

namespace Conduct

/-- The certificates that are presented are those of a chain. -/
def Presents (p : Conduct) (chain : Chain) : Prop :=
  chain.toList.map (·.der) = p.presented

/-- The response brings a message. -/
def Sends (p : Conduct) (message : Response) : Prop :=
  Response.ofJson p.body = .ok message

/-- The response brings a certificate. -/
def Brings (p : Conduct) (leaf : Certificate) : Prop :=
  ∃ message text, p.Sends message ∧ message.certificate = some text
    ∧ Certificate.ofPem text = .ok leaf

variable {p : Conduct}

/-- A peer presents one chain at most. -/
theorem Presents.unique {c d : Chain} (hc : p.Presents c) (hd : p.Presents d) : c = d :=
  Except.ok.inj ((Chain.ofDers_eq_ok_iff.2 hc).symm.trans (Chain.ofDers_eq_ok_iff.2 hd))

theorem Sends.unique {m n : Response} (hm : p.Sends m) (hn : p.Sends n) : m = n :=
  Except.ok.inj (hm.symm.trans hn)

theorem Brings.unique {k l : Certificate} (hk : p.Brings k) (hl : p.Brings l) : k = l := by
  obtain ⟨m, text, hm, htext, hk⟩ := hk
  obtain ⟨n, other, hn, hother, hl⟩ := hl
  cases hm.unique hn
  cases htext.symm.trans hother
  exact Except.ok.inj (hk.symm.trans hl)

end Conduct

/-- The network leads a client to a peer of some conduct. -/
def Meets (c : Client) (network : Network) (csr : SigningRequest) (p : Conduct) : Prop :=
  ∃ answer body, network c.settings.host c.settings.port = .connected p.presented answer
    ∧ answer (c.toHttp csr) = .response ⟨p.status, body⟩ ∧ body.Carries p.body

-- ============================================================== capturing

section

variable {p : Conduct}

/-- A chain that is presented is captured if it bears the expected name. -/
theorem capture_of_presents {P : Chain} (h : p.Presents P) (host : String) :
    capture host p.presented
      = if P.leaf.commonName = some host then .ok P
        else .error (.protocol (.identity host (P.leaf.commonName.getD ""))) := by
  have hne : p.presented.isEmpty = false := by
    rw [← h]
    rfl
  have hsteps : capture host p.presented
      = if P.leaf.commonName ≠ some host then
          .error (.protocol (.identity host (P.leaf.commonName.getD "")))
        else .ok P := by
    rw [capture, hne, Chain.ofDers_eq_ok_iff.2 h]
    rfl
  rw [hsteps, ite_not]

/-- A chain that was captured was presented and bears the expected name. -/
theorem capture_eq_ok {presented : List Bytes} {host : String} {P : Chain}
    (h : capture host presented = .ok P) :
    P.toList.map (·.der) = presented ∧ P.leaf.commonName = some host := by
  rw [capture] at h
  split at h
  case isTrue => cases h
  case isFalse =>
    obtain ⟨Q, hQ, h⟩ := bind_eq_ok h
    split at h
    case isTrue => cases h
    case isFalse hname =>
      cases h
      exact ⟨Chain.ofDers_eq_ok_iff.1 hQ, not_not.1 hname⟩

/-- Byte strings that are no chain are not captured. -/
theorem capture_of_error {failure : Failure} (hne : p.presented ≠ [])
    (h : Chain.ofDers p.presented = .error failure) (host : String) :
    capture host p.presented = .error failure := by
  have hempty : p.presented.isEmpty = false := by simpa using hne
  rw [capture, hempty, h]
  rfl

end

-- ================================================================= checks

/-- What a client checks, in order. -/
inductive Check where
  -- of the certificates that are presented
  | chain
  | identity
  -- of the response
  | bodySize
  | status
  | decoding
  | code
  | certificate
  | codeMatch
  -- of the certificate in it
  | certificateText
  | signature
  | key
  | room
  deriving Repr, DecidableEq

/-- The place of a check in the order. -/
def Check.place : Check → Nat
  | .chain => 0
  | .identity => 1
  | .bodySize => 2
  | .status => 3
  | .decoding => 4
  | .code => 5
  | .certificate => 6
  | .codeMatch => 7
  | .certificateText => 8
  | .signature => 9
  | .key => 10
  | .room => 11

theorem Check.place_injective {a b : Check} (h : a.place = b.place) : a = b := by
  cases a <;> cases b <;> first | rfl | cases h

variable [Signatures]

/-- When a conduct passes a check. -/
def Passes (c : Client) (csr : SigningRequest) (p : Conduct) : Check → Prop
  | .chain => ∃ P, p.Presents P
  | .identity => ∃ P, p.Presents P ∧ P.leaf.commonName = some c.settings.host
  | .bodySize => p.body.length ≤ Limits.bodySize
  | .status => 200 ≤ p.status ∧ p.status ≤ 299
  | .decoding => ∃ m, p.Sends m
  | .code => ∃ m code, p.Sends m ∧ m.hmac = some code
  | .certificate => ∃ m text, p.Sends m ∧ m.certificate = some text
  | .codeMatch =>
    ∃ P m, p.Presents P ∧ p.Sends m ∧ m.hmac = some (c.token.mac P.leaf.publicKey)
  | .certificateText => ∃ L, p.Brings L
  | .signature => ∃ P L, p.Presents P ∧ p.Brings L ∧ L.verifySignedBy P.leaf = .ok ()
  | .key => ∃ L, p.Brings L ∧ L.publicKey = csr.publicKey
  | .room => ∃ P, p.Presents P ∧ P.length + 1 ≤ Limits.chainLength

/-- What a check reports that is not passed. -/
inductive Reports (c : Client) (p : Conduct) : Check → Failure → Prop
  | noCertificates (h : p.presented = []) : Reports c p .chain (.protocol .noCertificates)
  | unreadable {front : List Certificate} {der : Bytes} {rest : List Bytes} {failure : Failure}
      (h : p.presented = front.map (·.der) ++ der :: rest)
      (hder : Certificate.ofDer der = .error failure) : Reports c p .chain failure
  | tooLong {certificates : List Certificate} (h : p.presented = certificates.map (·.der))
      (hlength : Limits.chainLength < certificates.length) :
      Reports c p .chain (.protocol (.longChain certificates.length))
  | identity {P : Chain} (h : p.Presents P) :
      Reports c p .identity
        (.protocol (.identity c.settings.host (P.leaf.commonName.getD "")))
  | bodySize : Reports c p .bodySize (.protocol .bodyTooLarge)
  | status : Reports c p .status (.badStatus p.status (Utf8.decodeLossy p.body))
  | decoding {failure : Failure} (h : Response.ofJson p.body = .error failure) :
      Reports c p .decoding failure
  | code : Reports c p .code (.protocol .missingCode)
  | certificate : Reports c p .certificate (.protocol .missingCertificate)
  | codeMatch : Reports c p .codeMatch (.security .responseCode)
  | certificateText {m : Response} {text : String} {failure : Failure} (h : p.Sends m)
      (htext : m.certificate = some text) (hleaf : Certificate.ofPem text = .error failure) :
      Reports c p .certificateText failure
  | signature {P : Chain} {L : Certificate} {failure : Failure} (h : p.Presents P)
      (hleaf : p.Brings L) (hsigned : L.verifySignedBy P.leaf = .error failure) :
      Reports c p .signature failure
  | key : Reports c p .key (.protocol .otherKey)
  | room {P : Chain} (h : p.Presents P) :
      Reports c p .room (.protocol (.longChain (P.length + 1)))

/-- A check is the first that is not passed. -/
structure FailsFirst (c : Client) (csr : SigningRequest) (p : Conduct) (check : Check) :
    Prop where
  fails : ¬Passes c csr p check
  before : ∀ earlier : Check, earlier.place < check.place → Passes c csr p earlier

/-- The checks up to one that comes no later than the first that is not passed. -/
theorem FailsFirst.passes_before {c : Client} {csr : SigningRequest} {p : Conduct} {check : Check}
    (h : FailsFirst c csr p check) {next : Check} (hle : next.place ≤ check.place)
    (earlier : Check) (hlt : earlier.place < next.place) : Passes c csr p earlier :=
  h.before earlier (Nat.lt_of_lt_of_le hlt hle)

/-- At most one check is the first that is not passed. -/
theorem FailsFirst.unique {c : Client} {csr : SigningRequest} {p : Conduct} {a b : Check}
    (ha : FailsFirst c csr p a) (hb : FailsFirst c csr p b) : a = b := by
  refine Check.place_injective (Nat.le_antisymm ?_ ?_)
  · exact Nat.not_lt.1 fun h => hb.fails (ha.before b h)
  · exact Nat.not_lt.1 fun h => ha.fails (hb.before a h)

-- ================================================================ judging

section

variable {token : Token} {csr : SigningRequest} {P : Chain} {status : Nat} {sent : Http.Body}
  {body : Bytes} {m : Response} {code : Bytes} {text : String}

/-- A status that is not good is reported with the text of the body. -/
theorem judge_of_status (h : ¬(200 ≤ status ∧ status ≤ 299)) :
    judge token csr P ⟨status, sent⟩ body
      = .error (.badStatus status (Utf8.decodeLossy body)) := by
  have hsuccess : Http.Response.isSuccess ⟨status, sent⟩ = false :=
    Bool.eq_false_iff.2 fun hs => h (Http.Response.isSuccess_iff.1 hs)
  rw [judge, hsuccess]
  rfl

theorem judge_of_undecoded (h : 200 ≤ status ∧ status ≤ 299)
    {failure : Failure} (hbody : Response.ofJson body = .error failure) :
    judge token csr P ⟨status, sent⟩ body = .error failure := by
  rw [judge, Http.Response.isSuccess_iff.2 h, hbody]
  rfl

theorem judge_of_missingCode (h : 200 ≤ status ∧ status ≤ 299)
    (hbody : Response.ofJson body = .ok m) (hcode : m.hmac = none) :
    judge token csr P ⟨status, sent⟩ body = .error (.protocol .missingCode) := by
  obtain ⟨hmac, certificate, error⟩ := m
  cases hcode
  rw [judge, Http.Response.isSuccess_iff.2 h, hbody]
  rfl

theorem judge_of_missingCertificate (h : 200 ≤ status ∧ status ≤ 299)
    (hbody : Response.ofJson body = .ok m) (hcode : m.hmac = some code)
    (htext : m.certificate = none) :
    judge token csr P ⟨status, sent⟩ body = .error (.protocol .missingCertificate) := by
  obtain ⟨hmac, certificate, error⟩ := m
  cases hcode
  cases htext
  rw [judge, Http.Response.isSuccess_iff.2 h, hbody]
  rfl

/-- What is left to judge once the code was found right: the certificate in the message. -/
def judgeLeaf (csr : SigningRequest) (P : Chain) (leaf : Certificate) : Except Failure Chain := do
  leaf.verifySignedBy P.leaf
  if leaf.publicKey = csr.publicKey then P.prepend leaf else .error (.protocol .otherKey)

/-- Behind a good signature, the key decides. -/
theorem judgeLeaf_of_signed {L : Certificate} (h : L.verifySignedBy P.leaf = .ok ()) :
    judgeLeaf csr P L
      = if L.publicKey = csr.publicKey then P.prepend L else .error (.protocol .otherKey) := by
  rw [judgeLeaf, h]
  rfl

/-- A certificate that is taken has a good signature and the key that was asked for. -/
theorem judgeLeaf_eq_ok {L : Certificate} {chain : Chain} (h : judgeLeaf csr P L = .ok chain) :
    L.verifySignedBy P.leaf = .ok () ∧ L.publicKey = csr.publicKey
      ∧ P.prepend L = .ok chain := by
  unfold judgeLeaf at h
  obtain ⟨⟨⟩, hsigned, h⟩ := bind_eq_ok h
  split at h
  case isTrue hkey => exact ⟨hsigned, hkey, h⟩
  case isFalse => cases h

/-- A message with both is judged by its code first. -/
theorem judge_of_complete (h : 200 ≤ status ∧ status ≤ 299)
    (hbody : Response.ofJson body = .ok m) (hcode : m.hmac = some code)
    (htext : m.certificate = some text) :
    judge token csr P ⟨status, sent⟩ body
      = if token.mac P.leaf.publicKey = code then Certificate.ofPem text >>= judgeLeaf csr P
        else .error (.security .responseCode) := by
  obtain ⟨hmac, certificate, error⟩ := m
  cases hcode
  cases htext
  rw [judge, Http.Response.isSuccess_iff.2 h, hbody]
  show (if !token.verify P.leaf.publicKey code then _ else _) = _
  -- the steps are those of the judgement, which asks for what is wrong instead
  by_cases hmac : token.mac P.leaf.publicKey = code
  · rw [Token.verify, beq_iff_eq.2 hmac, if_pos hmac]
    refine congrArg (Certificate.ofPem text >>= ·) (funext fun leaf => ?_)
    unfold judgeLeaf
    refine congrArg (leaf.verifySignedBy P.leaf >>= ·) (funext fun _ => ?_)
    show (if leaf.publicKey ≠ csr.publicKey then _ else _) = _
    rw [ite_not]
    rfl
  · rw [Token.verify, beq_eq_false_iff_ne.2 hmac, if_neg hmac]
    rfl

/-- What a response is that is judged to give a chain. -/
theorem judge_eq_ok {chain : Chain} (h : judge token csr P ⟨status, sent⟩ body = .ok chain) :
    ∃ m text L, Response.ofJson body = .ok m ∧ m.hmac = some (token.mac P.leaf.publicKey)
      ∧ m.certificate = some text ∧ Certificate.ofPem text = .ok L
      ∧ L.verifySignedBy P.leaf = .ok () ∧ L.publicKey = csr.publicKey
      ∧ P.prepend L = .ok chain := by
  by_cases hstatus : 200 ≤ status ∧ status ≤ 299
  · cases hbody : Response.ofJson body with
    | error failure =>
      rw [judge_of_undecoded hstatus hbody] at h
      cases h
    | ok m =>
      cases hcode : m.hmac with
      | none =>
        rw [judge_of_missingCode hstatus hbody hcode] at h
        cases h
      | some code =>
        cases htext : m.certificate with
        | none =>
          rw [judge_of_missingCertificate hstatus hbody hcode htext] at h
          cases h
        | some text =>
          rw [judge_of_complete hstatus hbody hcode htext] at h
          split at h
          case isTrue hmac =>
            obtain ⟨L, hL, h⟩ := bind_eq_ok h
            exact ⟨m, text, L, rfl, hmac ▸ hcode, htext, hL, judgeLeaf_eq_ok h⟩
          case isFalse => cases h
  · rw [judge_of_status hstatus] at h
    cases h

end

-- ============================================================== exchanges

section

variable {c : Client} {network : Network} {csr : SigningRequest} {p : Conduct}

omit [Signatures] in
/-- What was done to open a connection. -/
theorem connect_eq_ok {P : Chain} {answer : Http.Request → Answer}
    (h : c.connect network = .ok (P, answer)) :
    Net.HostName.isServer c.settings.host = true
      ∧ ∃ presented, network c.settings.host c.settings.port = .connected presented answer
        ∧ capture c.settings.host presented = .ok P := by
  unfold connect at h
  cases hserver : Net.HostName.isServer c.settings.host with
  | false =>
    simp only [hserver, Bool.not_false, if_true] at h
    cases h
  | true =>
    simp only [hserver, Bool.not_true] at h
    cases hcontact : network c.settings.host c.settings.port with
    | refused text =>
      rw [hcontact] at h
      cases h
    | handshakeFailed text =>
      rw [hcontact] at h
      cases h
    | stalled =>
      rw [hcontact] at h
      cases h
    | connected presented found =>
      rw [hcontact] at h
      obtain ⟨captured, hcapture, h⟩ := bind_eq_ok h
      cases h
      exact ⟨rfl, presented, rfl, hcapture⟩

/-- What was done in an exchange that gave a chain. -/
theorem sign_eq_ok {chain : Chain} (h : (c.sign network csr).result = .ok chain) :
    ∃ presented answer P response body,
      Net.HostName.isServer c.settings.host = true
        ∧ network c.settings.host c.settings.port = .connected presented answer
        ∧ capture c.settings.host presented = .ok P
        ∧ answer (c.toHttp csr) = .response response
        ∧ c.readBody response.body = .ok body
        ∧ judge c.token csr P response body = .ok chain := by
  rw [sign, exchange] at h
  cases hconnect : c.connect network with
  | error failure =>
    rw [hconnect] at h
    cases h
  | ok found =>
    obtain ⟨P, answer⟩ := found
    obtain ⟨hserver, presented, hnetwork, hcapture⟩ := connect_eq_ok hconnect
    rw [hconnect] at h
    dsimp only at h
    cases hanswer : answer (c.toHttp csr) with
    | broken text =>
      rw [hanswer] at h
      cases h
    | stalled =>
      rw [hanswer] at h
      cases h
    | response response =>
      rw [hanswer, receive] at h
      cases hbody : c.readBody response.body with
      | error failure =>
        rw [hbody] at h
        cases h
      | ok body =>
        rw [hbody] at h
        exact ⟨presented, answer, P, response, body, hserver, hnetwork, hcapture, hanswer, hbody,
          h⟩

omit [Signatures] in
/-- Once a connection is open, what is left is to capture the chain. -/
theorem connect_of_connected (hserver : Net.HostName.isServer c.settings.host = true)
    {presented : List Bytes} {answer : Http.Request → Answer}
    (hnetwork : network c.settings.host c.settings.port = .connected presented answer) :
    c.connect network = (do return (← capture c.settings.host presented, answer)) := by
  simp only [connect, hserver, hnetwork, Bool.not_true]
  rfl

/-- A host that cannot name a server is not dialled. -/
theorem sign_of_not_isServer (h : Net.HostName.isServer c.settings.host = false) :
    (c.sign network csr).result = .error (.protocol (.serverName c.settings.host)) := by
  have hconnect : c.connect network = .error (.protocol (.serverName c.settings.host)) := by
    unfold connect
    simp only [h, Bool.not_false]
    rfl
  rw [sign, exchange, hconnect]
  rfl

/-- An exchange fails whose connection breaks off after the request. -/
theorem sign_of_broken (hserver : Net.HostName.isServer c.settings.host = true) {P : Chain}
    {answer : Http.Request → Answer} {text : String}
    (hnetwork : network c.settings.host c.settings.port
      = .connected (P.toList.map (·.der)) answer)
    (hname : P.leaf.commonName = some c.settings.host)
    (hanswer : answer (c.toHttp csr) = .broken text) :
    (c.sign network csr).result = .error (.http ("request failed: " ++ text)) := by
  have hP : Conduct.Presents ⟨P.toList.map (·.der), 0, []⟩ P := rfl
  have hcapture : capture c.settings.host (P.toList.map (·.der)) = .ok P :=
    (capture_of_presents hP c.settings.host).trans (if_pos hname)
  rw [sign, exchange, connect_of_connected hserver hnetwork, hcapture]
  show (c.receive csr P [.keyGenerated] (answer (c.toHttp csr))).result = _
  rw [hanswer]
  rfl

/-- A chain and a message that a client compares the codes of. -/
structure Compares (c : Client) (p : Conduct) (P : Chain) (m : Response) (code : Bytes)
    (text : String) : Prop where
  presents : p.Presents P
  identity : P.leaf.commonName = some c.settings.host
  size : p.body.length ≤ Limits.bodySize
  status : 200 ≤ p.status ∧ p.status ≤ 299
  message : p.Sends m
  code : m.hmac = some code
  certificate : m.certificate = some text

/-- A client compares codes once all checks before that are passed. -/
theorem compares_of_passes
    (h : ∀ earlier : Check, earlier.place < Check.codeMatch.place → Passes c csr p earlier) :
    ∃ P m code text, Compares c p P m code text := by
  obtain ⟨P, hP, hname⟩ := h .identity (by decide)
  obtain ⟨m, code, hm, hcode⟩ := h .code (by decide)
  obtain ⟨n, text, hn, htext⟩ := h .certificate (by decide)
  cases hm.unique hn
  exact ⟨P, m, code, text, hP, hname, h .bodySize (by decide), h .status (by decide), hm, hcode,
    htext⟩

section

variable (hserver : Net.HostName.isServer c.settings.host = true)
  (hmeets : Meets c network csr p)

include hserver hmeets

/-- An exchange with a peer is capturing its chain, limiting the body and judging
the response. -/
theorem result_of_meets :
    (c.sign network csr).result = (do
      let P ← capture c.settings.host p.presented
      if Limits.bodySize < p.body.length then throw (.protocol .bodyTooLarge)
      judge c.token csr P ⟨p.status, .ofBytes p.body⟩ p.body) := by
  obtain ⟨answer, body, hnetwork, hanswer, hcarries⟩ := hmeets
  rw [sign, exchange, connect_of_connected hserver hnetwork]
  cases capture c.settings.host p.presented with
  | error failure => rfl
  | ok P =>
    show (c.receive csr P [.keyGenerated] (answer (c.toHttp csr))).result = _
    rw [hanswer, receive, readBody, Http.Body.read_carries hcarries]
    by_cases hsize : Limits.bodySize < p.body.length
    · rw [if_pos hsize]
      show _ = (if Limits.bodySize < p.body.length then _ else _)
      rw [if_pos hsize]
      rfl
    · rw [if_neg hsize]
      show _ = (if Limits.bodySize < p.body.length then _ else _)
      rw [if_neg hsize]
      rfl

/-- An exchange ends with what is wrong with the chain. -/
theorem result_of_uncaptured {failure : Failure}
    (h : capture c.settings.host p.presented = .error failure) :
    (c.sign network csr).result = .error failure := by
  rw [result_of_meets hserver hmeets, h]
  rfl

/-- Once the chain is captured and the body is read, the response is judged. -/
theorem result_of_captured {P : Chain} (hP : p.Presents P)
    (hname : P.leaf.commonName = some c.settings.host)
    (hsize : p.body.length ≤ Limits.bodySize) :
    (c.sign network csr).result = judge c.token csr P ⟨p.status, .ofBytes p.body⟩ p.body := by
  rw [result_of_meets hserver hmeets, capture_of_presents hP, if_pos hname]
  show (if Limits.bodySize < p.body.length then _ else _) = _
  rw [if_neg (Nat.not_lt.2 hsize)]

/-- The chain that was captured, under which a response is judged that is not too large. -/
theorem result_of_judged
    (h : ∀ earlier : Check, earlier.place < Check.status.place → Passes c csr p earlier) :
    ∃ P, p.Presents P
      ∧ (c.sign network csr).result = judge c.token csr P ⟨p.status, .ofBytes p.body⟩ p.body := by
  obtain ⟨P, hP, hname⟩ := h .identity (by decide)
  exact ⟨P, hP, result_of_captured hserver hmeets hP hname (h .bodySize (by decide))⟩

/-- What comes of an exchange once codes are compared. -/
theorem result_of_compares {P : Chain} {m : Response} {code : Bytes} {text : String}
    (h : Compares c p P m code text) :
    (c.sign network csr).result
      = if c.token.mac P.leaf.publicKey = code then Certificate.ofPem text >>= judgeLeaf csr P
        else .error (.security .responseCode) := by
  rw [result_of_captured hserver hmeets h.presents h.identity h.size]
  exact judge_of_complete h.status h.message h.code h.certificate

/-- Once codes were found to be the same, the certificate in the message is read and judged. -/
theorem result_of_codeMatch
    (h : ∀ earlier : Check, earlier.place < Check.certificateText.place → Passes c csr p earlier) :
    ∃ P m text, p.Presents P ∧ p.Sends m ∧ m.certificate = some text
      ∧ (c.sign network csr).result = Certificate.ofPem text >>= judgeLeaf csr P := by
  obtain ⟨P, m, code, text, hcompares⟩ :=
    compares_of_passes fun earlier hlt => h earlier (Nat.lt_trans hlt (by decide))
  obtain ⟨Q, n, hQ, hn, hmac⟩ := h .codeMatch (by decide)
  cases hcompares.presents.unique hQ
  cases hcompares.message.unique hn
  cases hcompares.code.symm.trans hmac
  refine ⟨P, m, text, hQ, hn, hcompares.certificate, ?_⟩
  rw [result_of_compares hserver hmeets hcompares, if_pos rfl]

/-- What comes of an exchange once codes are the same and the certificate is
read. -/
theorem result_of_brings
    (h : ∀ earlier : Check, earlier.place < Check.certificateText.place → Passes c csr p earlier)
    {P : Chain} {L : Certificate} (hP : p.Presents P) (hL : p.Brings L) :
    (c.sign network csr).result = judgeLeaf csr P L := by
  obtain ⟨Q, m, text, hQ, hm, htext, hresult⟩ := result_of_codeMatch hserver hmeets h
  obtain ⟨n, other, hn, hother, hleaf⟩ := hL
  cases hP.unique hQ
  cases hm.unique hn
  cases htext.symm.trans hother
  rw [hresult, hleaf]
  rfl

/-- What comes of an exchange whose certificate has the right signature. -/
theorem result_of_signature
    (h : ∀ earlier : Check, earlier.place < Check.key.place → Passes c csr p earlier)
    {P : Chain} {L : Certificate} (hP : p.Presents P) (hL : p.Brings L) :
    (c.sign network csr).result
      = if L.publicKey = csr.publicKey then P.prepend L else .error (.protocol .otherKey) := by
  obtain ⟨Q, K, hQ, hK, hsigned⟩ := h .signature (by decide)
  cases hP.unique hQ
  cases hL.unique hK
  rw [result_of_brings hserver hmeets
    (fun earlier hlt => h earlier (Nat.lt_trans hlt (by decide))) hP hL,
    judgeLeaf_of_signed hsigned]

end

end

end Enrollment.Client
