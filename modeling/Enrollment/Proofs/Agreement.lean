/-
What codes prove when many exchanges run under one token.

A run is a list of events: a holder of the token sends a request, a handler
grants a chain, a client accepts one.  Whoever is on the network presents
any certificates and sends any responses, but cannot make codes: the code of
a response is one that was emitted before (`Allowed`).

# What a code is over

A code that is emitted is over the key of a request or over the key of an
issuer (`mem_codes_iff`), and nothing in it tells the two apart.  So a
client accepts a chain exactly when what else it checks is right and the
captured key is of one of these two sorts (`step_accepted_iff`).  That it is
an issuer's is proved only where no request was for that key: a client that
asks for the key of its own peer takes its own code for an answer
(`accepted_without_issuer`).
-/
import Enrollment.Proofs.Client.Acceptance
import Enrollment.Proofs.Service.Handler

namespace Enrollment.Agreement

-- ================================================================= events

/-- What happens in a run. -/
inductive Event where
  /-- A holder of the token sends a request. -/
  | requested (csr : SigningRequest)
  /-- A handler that holds the token grants what a signer returned. -/
  | granted (chain : Chain)
  /-- A client that holds the token accepts a chain. -/
  | accepted (chain : Chain)

namespace Event

/-- The key that is asked for in an event. -/
def requestKey? : Event → Option Bytes
  | .requested csr => some csr.publicKey
  | .granted _ | .accepted _ => none

/-- The key that is named as the issuer's in an event. -/
def issuerKey? : Event → Option Bytes
  | .granted chain => chain.issuers.head?.map (·.publicKey)
  | .requested _ | .accepted _ => none

/-- The code that is emitted in an event. -/
def code? (token : Token) : Event → Option Bytes
  | .requested csr => (Request.ofToken token csr).hmac
  | .granted chain => (Service.conclude token (.ok chain)).message.hmac
  | .accepted _ => none

/-- A code is over the key of an issuer or over that of a request. -/
theorem code?_eq (token : Token) (event : Event) :
    event.code? token = (event.issuerKey?.or event.requestKey?).map token.mac := by
  cases event with
  | requested csr => rfl
  | granted chain =>
    obtain ⟨leaf, issuers, hlength⟩ := chain
    cases issuers <;> rfl
  | accepted chain => rfl

end Event

def requestKeys (run : List Event) : List Bytes := run.filterMap Event.requestKey?

def issuerKeys (run : List Event) : List Bytes := run.filterMap Event.issuerKey?

/-- The codes that are emitted in a run. -/
def codes (token : Token) (run : List Event) : List Bytes := run.filterMap (Event.code? token)

/-- A code that is emitted is over the key of an issuer or of a request. -/
theorem mem_codes_iff {token : Token} {run : List Event} {code : Bytes} :
    code ∈ codes token run
      ↔ ∃ key, (key ∈ issuerKeys run ∨ key ∈ requestKeys run) ∧ token.mac key = code := by
  simp only [codes, issuerKeys, requestKeys, List.mem_filterMap, Event.code?_eq]
  constructor
  · rintro ⟨event, hevent, hcode⟩
    obtain ⟨key, hkey, rfl⟩ := Option.map_eq_some_iff.1 hcode
    rcases Option.or_eq_some_iff.1 hkey with hissuer | ⟨-, hrequest⟩
    · exact ⟨key, .inl ⟨event, hevent, hissuer⟩, rfl⟩
    · exact ⟨key, .inr ⟨event, hevent, hrequest⟩, rfl⟩
  · rintro ⟨key, ⟨event, hevent, hkey⟩ | ⟨event, hevent, hkey⟩, rfl⟩
    · refine ⟨event, hevent, ?_⟩
      rw [hkey]
      rfl
    · refine ⟨event, hevent, ?_⟩
      -- no event names both an issuer and a request
      cases event with
      | requested csr => cases hkey; rfl
      | granted chain => cases hkey
      | accepted chain => cases hkey

-- ================================================================ network

/-- What is on the network answers a client with no code but those given. -/
def Allowed (codes : List Bytes) (c : Client) (network : Client.Network)
    (csr : SigningRequest) : Prop :=
  ∀ presented answer response body message code,
    network c.settings.host c.settings.port = .connected presented answer →
    answer (c.toHttp csr) = .response response → c.readBody response.body = .ok body →
    Response.ofJson body = .ok message → message.hmac = some code → code ∈ codes

/-- A peer that has the code of its key can answer as a holder of the token. -/
theorem allowed_holder {token : Token} {emitted : List Bytes} {c : Client}
    {csr : SigningRequest} {P : Chain} {L : Certificate}
    (h : token.mac P.leaf.publicKey ∈ emitted) :
    Allowed emitted c (Client.holderNetwork token P L) csr := by
  intro presented answer response body message code hnetwork hanswer hbody hmessage hcode
  obtain ⟨rfl, rfl⟩ := Client.Contact.connected.inj hnetwork
  have hresponse := Client.Answer.response.inj hanswer
  subst hresponse
  have hread : c.readBody (.ofBytes (Response.issued token P.leaf L).toJson)
      = .ok (Response.issued token P.leaf L).toJson := by
    rw [Client.readBody, Http.Body.read_carries (Http.Body.carries_ofBytes _),
      if_neg (Nat.not_lt.2 (Response.length_toJson_issued_le _ _ _))]
    rfl
  have hbytes := Except.ok.inj (hread.symm.trans hbody)
  subst hbytes
  have hsame := Except.ok.inj ((Response.ofJson_toJson _).symm.trans hmessage)
  subst hsame
  cases hcode
  exact h

-- =================================================================== runs

section

variable [Signatures]

/-- What may happen next in a run. -/
inductive Step (token : Token) (past : List Event) : Event → Prop
  | request (csr : SigningRequest) : Step token past (.requested csr)
  | grant {signs : Service.SignsIn (Except Crash)} {body : Bytes} {csr : SigningRequest}
      {chain : Chain} {response : Response}
      (hcsr : Service.authenticate token body = .ok csr) (hsigns : signs csr = .ok (.ok chain))
      (hreply : Service.handle token signs body = .ok (.granted response)) :
      Step token past (.granted chain)
  | accept {c : Client} {network : Client.Network} {csr : SigningRequest} {chain : Chain}
      (htoken : c.token = token) (hsent : .requested csr ∈ past)
      (hallowed : Allowed (codes token past) c network csr)
      (haccepts : (c.sign network csr).result = .ok chain) : Step token past (.accepted chain)

/-- Runs: one event after the other, in any order. -/
inductive Run (token : Token) : List Event → Prop
  | nil : Run token []
  | snoc {past : List Event} {event : Event} (hrun : Run token past)
      (hstep : Step token past event) : Run token (past ++ [event])

variable {token : Token} {run past later : List Event} {event : Event}

/-- An event of a run was a step from what was before it. -/
theorem Run.step (h : Run token run) (hsplit : run = past ++ event :: later) :
    Step token past event := by
  induction h generalizing later with
  | nil =>
    have hlength := congrArg List.length hsplit
    simp at hlength
  | @snoc before last hrun hstep ih =>
    -- either the event is the last of the run, or it was one before that
    rcases List.eq_nil_or_concat later with rfl | ⟨rest, final, rfl⟩
    · obtain ⟨rfl, hlast⟩ := List.append_inj' hsplit rfl
      cases hlast
      exact hstep
    · rw [List.concat_eq_append, ← List.cons_append, ← List.append_assoc] at hsplit
      exact ih (List.append_inj' hsplit rfl).1

/-- A run goes on by a step. -/
theorem run_snoc_iff (h : Run token run) :
    Run token (run ++ [event]) ↔ Step token run event :=
  ⟨fun hrun => hrun.step rfl, fun hstep => h.snoc hstep⟩

-- ============================================================= acceptance

variable {chain : Chain} {captured : Certificate} {rest : List Certificate}

/-- All that a client checks of a chain besides the code: its first certificate is
for a key that was asked for and is signed with the captured one, which bears the
expected name. -/
def Fits (token : Token) (run : List Event) (chain : Chain) (captured : Certificate) : Prop :=
  ∃ (c : Client) (csr : SigningRequest), c.token = token
    ∧ Net.HostName.isServer c.settings.host = true ∧ .requested csr ∈ run
    ∧ captured.commonName = some c.settings.host
    ∧ chain.leaf.verifySignedBy captured = .ok () ∧ chain.leaf.publicKey = csr.publicKey

/-- No key of an issuer or of a request has the code of another key. -/
def Separates (token : Token) (run : List Event) (key : Bytes) : Prop :=
  ∀ other, other ∈ issuerKeys run ∨ other ∈ requestKeys run →
    token.mac other = token.mac key → other = key

/-- What is accepted fits, and the code of the captured key was emitted. -/
theorem fits_of_step (h : Step token past (.accepted chain)) :
    ∃ captured rest, chain.issuers = captured :: rest ∧ Fits token past chain captured
      ∧ token.mac captured.publicKey ∈ codes token past := by
  cases h with
  | @accept c network csr chain htoken hsent hallowed haccepts =>
    obtain ⟨presented, answer, P, response, body, hserver, hnetwork, hcapture, hanswer, hbody,
      hjudge⟩ := Client.sign_eq_ok haccepts
    obtain ⟨message, text, L, hmessage, hcode, -, -, hsigned, hkey, hchain⟩ :=
      Client.judge_eq_ok hjudge
    obtain ⟨-, rfl, hissuers⟩ := Chain.prepend_eq_ok_iff.1 hchain
    refine ⟨P.leaf, P.issuers, hissuers, ?_, ?_⟩
    · exact ⟨c, csr, htoken, hserver, hsent, (Client.capture_eq_ok hcapture).2, hsigned, hkey⟩
    · rw [← htoken]
      rw [← htoken] at hallowed
      exact hallowed _ _ _ _ _ _ hnetwork hanswer hbody hmessage hcode

/-- What fits is accepted from a peer that has the code of the captured key. -/
theorem step_of_fits {P : Chain} (hissuers : chain.issuers = P.toList)
    (hfits : Fits token past chain P.leaf)
    (hcode : token.mac P.leaf.publicKey ∈ codes token past) :
    Step token past (.accepted chain) := by
  obtain ⟨c, csr, rfl, hserver, hsent, hname, hsigned, hkey⟩ := hfits
  obtain ⟨leaf, issuers, hlength⟩ := chain
  subst hissuers
  exact .accept rfl hsent (allowed_holder hcode)
    (Client.sign_holder hserver hname hsigned hkey hlength)

/-- A chain is accepted exactly when it fits and the captured key is that of an
issuer or of a request. -/
theorem step_accepted_iff (hissuers : chain.issuers = captured :: rest)
    (hseparates : Separates token past captured.publicKey) :
    Step token past (.accepted chain)
      ↔ Fits token past chain captured
        ∧ (captured.publicKey ∈ issuerKeys past ∨ captured.publicKey ∈ requestKeys past) := by
  constructor
  · intro h
    obtain ⟨found, others, hfound, hfits, hcode⟩ := fits_of_step h
    cases hissuers.symm.trans hfound
    obtain ⟨key, hkey, hmac⟩ := mem_codes_iff.1 hcode
    rw [← hseparates key hkey hmac]
    exact ⟨hfits, hkey⟩
  · rintro ⟨hfits, hkey⟩
    have hroom := chain.length_le
    rw [hissuers] at hroom
    exact step_of_fits (P := ⟨captured, rest, Nat.le_of_succ_le hroom⟩) hissuers hfits
      (mem_codes_iff.2 ⟨_, hkey, rfl⟩)

/-- In every run, whatever chain is accepted was captured with the key of an issuer
or of a request before it; and a run goes on with an acceptance exactly in this
way.  So the captured key is sure to be an issuer's exactly where it is not the
key of a request alone. -/
theorem agreement (hrun : Run token run) :
    (∀ past chain later, run = past ++ .accepted chain :: later →
      ∃ captured rest, chain.issuers = captured :: rest
        ∧ (Separates token past captured.publicKey →
          captured.publicKey ∈ issuerKeys past ∨ captured.publicKey ∈ requestKeys past))
    ∧ ∀ chain captured rest, chain.issuers = captured :: rest →
      Separates token run captured.publicKey →
      (Run token (run ++ [.accepted chain])
          ↔ Fits token run chain captured
            ∧ (captured.publicKey ∈ issuerKeys run ∨ captured.publicKey ∈ requestKeys run))
        ∧ ((Run token (run ++ [.accepted chain]) → captured.publicKey ∈ issuerKeys run)
          ↔ (Fits token run chain captured → captured.publicKey ∈ requestKeys run →
            captured.publicKey ∈ issuerKeys run)) := by
  refine ⟨fun past chain later hsplit => ?_, fun chain captured rest hissuers hseparates => ?_⟩
  · have hstep := hrun.step hsplit
    obtain ⟨captured, rest, hissuers, -⟩ := fits_of_step hstep
    exact ⟨captured, rest, hissuers, fun h => ((step_accepted_iff hissuers h).1 hstep).2⟩
  · have hiff := (run_snoc_iff hrun).trans (step_accepted_iff hissuers hseparates)
    refine ⟨hiff, fun h hfits hrequest => h (hiff.2 ⟨hfits, .inr hrequest⟩), fun h hnext => ?_⟩
    obtain ⟨hfits, hissuer | hrequest⟩ := hiff.1 hnext
    · exact hissuer
    · exact h hfits hrequest

end

-- ============================================================== reflection

/-- A client asks for the key of its peer and accepts its own code. -/
def reflectedChain : Chain := ⟨Certificate.small, [Certificate.small], by decide⟩

def reflected : List Event := [.requested .edwards]

theorem fits_reflected : Fits .small reflected reflectedChain Certificate.small :=
  ⟨Client.small, .edwards, rfl, Client.isServer_small, List.mem_singleton_self _,
    Certificate.commonName_small, Certificate.verifySignedBy_small, Certificate.publicKey_small⟩

theorem mem_requestKeys_reflected : Certificate.small.publicKey ∈ requestKeys reflected := by
  rw [Certificate.publicKey_small]
  exact List.mem_singleton_self _

theorem separates_reflected : Separates .small reflected Certificate.small.publicKey := by
  rintro other (hissuer | hrequest) -
  · cases hissuer
  · rw [Certificate.publicKey_small]
    exact List.mem_singleton.1 hrequest

theorem run_reflected : Run .small reflected := .snoc .nil (.request .edwards)

/-- The captured key of an acceptance that goes on from one request is the key of
the request. -/
theorem agreement_reflected :
    Run .small reflected ∧ Separates .small reflected Certificate.small.publicKey
      ∧ Run .small (reflected ++ [.accepted reflectedChain]) :=
  ⟨run_reflected, separates_reflected,
    ((agreement run_reflected).2 reflectedChain _ _ rfl separates_reflected).1.2
      ⟨fits_reflected, .inr mem_requestKeys_reflected⟩⟩

/-- A client accepts a chain although nothing was ever granted. -/
theorem accepted_without_issuer :
    ∃ past chain captured rest, Run .small (past ++ [.accepted chain])
      ∧ chain.issuers = captured :: rest ∧ Separates .small past captured.publicKey
      ∧ captured.publicKey ∉ issuerKeys past := by
  refine ⟨reflected, reflectedChain, _, _, ?_, rfl, separates_reflected, List.not_mem_nil⟩
  exact run_reflected.snoc
    ((step_accepted_iff rfl separates_reflected).2 ⟨fits_reflected, .inr mem_requestKeys_reflected⟩)

end Enrollment.Agreement
