/-
A request that is let through.

The place of a request and its rate are looked at before its body
(`route_of_passed`), and of its body only the bytes count (`serve_carried`).
So what a client sends that dialled a service is answered as the handler
answers its body (`answerOf_request`).
-/
import Enrollment.Client.Exchange
import Enrollment.Proofs.Http
import Enrollment.Proofs.Message
import Enrollment.Service.Reachable

namespace Enrollment.Service

variable {m : Type → Type} [Monad m] {token : Token} {signs : SignsIn m}
  {limiter : Option Limiter} {now : Nat} {r : Http.Request}

/-- Only a request with the one path and the one method is at its place. -/
theorem checkPlace_eq_ok_iff :
    checkPlace r = .ok () ↔ r.path = Http.signPath ∧ r.method = Http.signMethod := by
  unfold checkPlace
  by_cases hpath : r.path = Http.signPath
  · rw [if_neg (not_not.2 hpath)]
    by_cases hmethod : r.method = Http.signMethod
    · rw [if_neg (not_not.2 hmethod)]
      exact ⟨fun _ => ⟨hpath, hmethod⟩, fun _ => rfl⟩
    · rw [if_pos hmethod]
      exact ⟨fun h => (by cases h), fun h => absurd h.2 hmethod⟩
  · rw [if_pos hpath]
    exact ⟨fun h => (by cases h), fun h => absurd h.1 hpath⟩

/-- A request at its place that the limiter lets through is served. -/
theorem route_of_passed (hplace : checkPlace r = .ok ())
    (hrate : (checkRate limiter now).1 = true) :
    route token signs limiter now r
      = (do return (← serve token signs r.body, (checkRate limiter now).2)) := by
  unfold route
  rw [hplace]
  cases hcheck : checkRate limiter now with
  | mk passed left =>
    rw [hcheck] at hrate
    cases hrate
    rfl

/-- Of a body only the bytes count, and whether they are too many. -/
theorem serve_carried {body : Http.Body} {bytes : Bytes} (h : body.Carries bytes) :
    serve token signs body
      = if Limits.bodySize < bytes.length then pure (.rejected .bodyTooLarge)
        else handle token signs bytes := by
  rw [serve, Http.Body.read_carries h]
  by_cases hsize : Limits.bodySize < bytes.length
  · rw [if_pos hsize, if_pos hsize]
    rfl
  · rw [if_neg hsize, if_neg hsize]

theorem serve_of_carries {body : Http.Body} {bytes : Bytes} (h : body.Carries bytes)
    (hsize : bytes.length ≤ Limits.bodySize) :
    serve token signs body = handle token signs bytes := by
  rw [serve_carried h, if_neg (Nat.not_lt.2 hsize)]

/-- The answer that comes of a reply, or of none. -/
def answerOfReply : Except Crash Reply → Client.Answer
  | .ok reply => .response reply.toHttp
  | .error _ => .broken "connection closed before message completed"

/-- What a client sends is answered as its body is. -/
theorem answerOf_request {signs : SignsIn (Except Crash)} {s : Server}
    (hrate : (checkRate s.limiter now).1 = true) (c : Client) (csr : SigningRequest) :
    answerOf (s.request signs now (c.toHttp csr))
      = answerOfReply (handle s.token signs (Request.ofToken c.token csr).toJson) := by
  have hserve : serve s.token signs (c.toHttp csr).body
      = handle s.token signs (Request.ofToken c.token csr).toJson :=
    serve_of_carries (Http.Body.carries_ofBytes _) (Request.length_toJson_ofToken_le _ _)
  rw [Server.request, route_of_passed (checkPlace_eq_ok_iff.2 ⟨rfl, rfl⟩) hrate, hserve]
  cases handle s.token signs (Request.ofToken c.token csr).toJson with
  | ok reply => rfl
  | error crash => rfl

end Enrollment.Service
