/-
How many bytes a body may have, on either side.

A body that is declared to be too long is not taken up, and one that is not
declared is counted while it comes.  The two come to the same: whichever way the bytes
are cut and announced, they are refused when they are more than the limit and otherwise
judged as they are (`sizes_agree`).  No other refusal of the service has the same text
(`tooLarge_iff`), so that whoever asked can tell.

A body is gathered piece by piece, and `sizes_agree` speaks of every point that this
passes: none holds more than is allowed, and what is read is what the last one holds.
-/
import Enrollment.Proofs.Service.Handler
import Enrollment.Proofs.Service.Route

namespace Enrollment

namespace Service

/-- A request for a certificate that the limiter lets through. -/
structure Passes (limiter : Option Limiter) (now : Nat) (r : Http.Request) : Prop where
  path : r.path = "/v1/sign"
  method : r.method = "POST"
  rate : (checkRate limiter now).1 = true

/-- Does the reply say that the body was too large? -/
def Reply.TooLarge (reply : Reply) : Prop :=
  reply.status = 400 ∧ reply.message.error = some "request body too large"

section

variable {m : Type → Type} [Monad m] {token : Token} {signs : SignsIn m}
  {limiter : Option Limiter} {now : Nat} {r : Http.Request} {bytes : Bytes}

/-- A request that is let through is refused for its size, or answered as its bytes are. -/
theorem route_carried (h : Passes limiter now r) (hbytes : r.body.Carries bytes) :
    route token signs limiter now r = do
      let reply ← (if Limits.bodySize < bytes.length then pure (.rejected .bodyTooLarge)
        else handle token signs bytes)
      return (reply, (checkRate limiter now).2) := by
  rw [route_of_passed (checkPlace_eq_ok_iff.2 ⟨h.path, h.method⟩) h.rate, serve_carried hbytes]

end

variable {token : Token} {signs : SignsIn (Except Crash)} {limiter : Option Limiter}
  {now : Nat} {r : Http.Request} {bytes : Bytes} {reply : Reply}

/-- What a body says is never answered as if there were too much of it. -/
theorem not_tooLarge_of_handle (h : handle token signs bytes = .ok reply) : ¬reply.TooLarge := by
  have hall : ∀ why ∈ [Rejection.malformed, .missingCode, .missingRequest, .invalidRequest,
      .forbidden], why.message ≠ "request body too large" := by decide
  rintro ⟨hstatus, htext⟩
  cases hbody : authenticate token bytes with
  | error why =>
    rw [handle_of_not_admitted hbody] at h
    cases h
    exact hall why (mem_of_authenticate hbody) (Option.some.inj htext)
  | ok csr =>
    rw [handle_of_admitted hbody] at h
    obtain ⟨answer, -, rfl⟩ := map_eq_ok h
    have hstatuses : (conclude token answer).status = 200 ∨ (conclude token answer).status = 500 :=
      status_conclude answer
    rcases hstatuses with hok | hfailed
    · cases hok.symm.trans hstatus
    · cases hfailed.symm.trans hstatus

/-- Too large is what the longer bodies are, and only these. -/
theorem tooLarge_iff {left : Option Limiter} (h : Passes limiter now r)
    (hbytes : r.body.Carries bytes) (hreply : route token signs limiter now r = .ok (reply, left)) :
    reply.TooLarge ↔ Limits.bodySize < bytes.length := by
  rw [route_carried h hbytes] at hreply
  obtain ⟨answer, hanswer, hpair⟩ := bind_eq_ok hreply
  cases hpair
  by_cases hsize : Limits.bodySize < bytes.length
  · rw [if_pos hsize] at hanswer
    cases hanswer
    exact ⟨fun _ => hsize, fun _ => ⟨rfl, rfl⟩⟩
  · rw [if_neg hsize] at hanswer
    exact ⟨fun h => absurd h (not_tooLarge_of_handle hanswer), fun h => absurd h hsize⟩

end Service

namespace Client

/-- The bytes of a response are all that counts of its body, and whether they are too
many. -/
theorem readBody_carried (c : Client) {body : Http.Body} {bytes : Bytes}
    (h : body.Carries bytes) :
    c.readBody body
      = if Limits.bodySize < bytes.length then .error (.protocol .bodyTooLarge) else .ok bytes := by
  rw [readBody, Http.Body.read_carries h]
  by_cases hsize : Limits.bodySize < bytes.length
  · rw [if_pos hsize, if_pos hsize]
    rfl
  · rw [if_neg hsize, if_neg hsize]
    rfl

/-- So it is with the response, whatever its status. -/
theorem receive_carried [Signatures] (c : Client) (csr : SigningRequest) (presented : Chain)
    (stages : List Stage) (status : Nat) {body : Http.Body} {bytes : Bytes}
    (h : body.Carries bytes) :
    c.receive csr presented stages (.response ⟨status, body⟩)
      = if Limits.bodySize < bytes.length then
          .after (stages ++ [.requestSent]) (.error (.protocol .bodyTooLarge))
        else .after (stages ++ [.requestSent, .responseReceived])
          (judge c.token csr presented ⟨status, body⟩ bytes) := by
  rw [receive, c.readBody_carried h]
  by_cases hsize : Limits.bodySize < bytes.length
  · rw [if_pos hsize, if_pos hsize]
  · rw [if_neg hsize, if_neg hsize]

end Client

/-- However a body is cut into pieces, and whether or not its length is declared: the service
refuses it if it has more than 1048576 bytes, and only then with this text, and otherwise
answers as its handler answers the bytes; the client refuses it or has the bytes, whatever
the status.  Of no body do they ever hold more than 1048576 bytes, and what they read of one
is what they hold when all of its pieces are taken. -/
theorem sizes_agree [Signatures] :
    (∀ {m : Type → Type} [Monad m] (token : Token) (signs : Service.SignsIn m)
        (limiter : Option Service.Limiter) (now : Nat) (r : Http.Request) (bytes : Bytes),
        Service.Passes limiter now r → r.body.Carries bytes →
          Service.route token signs limiter now r = do
            let reply ← (if 1048576 < bytes.length then pure (.rejected .bodyTooLarge)
              else Service.handle token signs bytes)
            return (reply, (Service.checkRate limiter now).2))
      ∧ (∀ (token : Token) (signs : Service.SignsIn (Except Crash))
        (limiter left : Option Service.Limiter) (now : Nat) (r : Http.Request) (bytes : Bytes)
        (reply : Service.Reply), Service.Passes limiter now r → r.body.Carries bytes →
          Service.route token signs limiter now r = .ok (reply, left) →
            (reply.TooLarge ↔ 1048576 < bytes.length))
      ∧ (∀ (c : Client) (body : Http.Body) (bytes : Bytes), body.Carries bytes →
        c.readBody body
            = (if 1048576 < bytes.length then .error (.protocol .bodyTooLarge) else .ok bytes)
          ∧ ∀ (csr : SigningRequest) (presented : Chain) (stages : List Client.Stage)
              (status : Nat),
            c.receive csr presented stages (.response ⟨status, body⟩)
              = if 1048576 < bytes.length then
                  .after (stages ++ [.requestSent]) (.error (.protocol .bodyTooLarge))
                else .after (stages ++ [.requestSent, .responseReceived])
                  (Client.judge c.token csr presented ⟨status, body⟩ bytes))
      ∧ (∀ (body : Http.Body) (held : Http.Gathered) (pieces : List Bytes),
        body.Reaches Limits.bodySize held pieces →
          held.bytes.length ≤ 1048576 ∧ held.bytes ++ pieces.flatten = body.pieces.flatten
            ∧ body.read Limits.bodySize
              = (Http.collect held.left pieces body.ending).map (held.bytes ++ ·))
      ∧ ∀ (body : Http.Body) (bytes : Bytes),
        body.read Limits.bodySize = .ok bytes
          ↔ body.ending = .complete ∧ ∃ left, body.Reaches Limits.bodySize ⟨bytes, left⟩ [] := by
  refine ⟨fun token signs limiter now r bytes h hbytes => Service.route_carried h hbytes,
    fun token signs limiter left now r bytes reply h hbytes hreply =>
      Service.tooLarge_iff h hbytes hreply,
    fun c body bytes hbytes => ⟨c.readBody_carried hbytes, fun csr presented stages status =>
      c.receive_carried csr presented stages status hbytes⟩,
    fun body held pieces h => ⟨?_, h.append_flatten, h.read_eq⟩,
    fun body bytes => Http.Body.read_eq_ok_iff⟩
  have hlimit : held.bytes.length + held.left = 1048576 := h.length_add_left
  omega

/-- A body of one byte, no byte and then all the others, which does not tell its length. -/
def Http.Body.streamed (others : Nat) : Http.Body :=
  ⟨none, [[0], [], List.replicate others 0], .complete⟩

theorem Http.Body.carries_streamed (others : Nat) :
    (streamed others).Carries (List.replicate (others + 1) 0) where
  complete := rfl
  pieces := by
    rw [streamed, List.replicate_succ]
    exact congrArg (0 :: ·) (List.append_nil _)
  declared n h := nomatch h

/-- A signer that is not there. -/
def Service.signsNothing : Service.SignsIn (Except Crash) := fun _ => .ok (.error (.io "down"))

/-- The piece that goes one byte beyond the limit is noticed, and one that just reaches it
is not refused. -/
theorem sizes_agree_streamed :
    Service.route .small Service.signsNothing none 0 ⟨"POST", "/v1/sign", [], .streamed 1048576⟩
        = .ok (.rejected .bodyTooLarge, none)
      ∧ Client.readBody ⟨{ host := "h" }, .small⟩ (.streamed 1048575)
        = .ok (List.replicate 1048576 0) := by
  obtain ⟨hserver, -, hclient, -⟩ := sizes_agree
  constructor
  · rw [hserver .small _ none 0 ⟨"POST", "/v1/sign", [], .streamed 1048576⟩ _ ⟨rfl, rfl, rfl⟩
      (Http.Body.carries_streamed 1048576), List.length_replicate]
    rfl
  · rw [(hclient ⟨{ host := "h" }, .small⟩ _ _ (Http.Body.carries_streamed 1048575)).1,
      List.length_replicate]
    rfl

end Enrollment
