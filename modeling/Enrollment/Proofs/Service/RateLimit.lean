/-
The limit of the rate over whole runs.

Requests at the sign place move the limiter and nothing else does.  While it
regains nothing (`NoRefill`), all that the limiter knows is when the first of
them came and how many were let through (`counted`), so it lets through as
many as a burst has and turns all others away.  That this is so after every
event is one invariant (`Counts`), kept by starts, shutdowns, connections and
breakdowns because none of them touches the limiter.

A rate of more than one request in a nanosecond leaves no distance between requests, and
such a limiter turns nothing away (`check_of_interval_eq_zero`).
-/
import Enrollment.Proofs.Service.Discretion
import Enrollment.Proofs.Service.Places
import Enrollment.Proofs.Service.Route

namespace Enrollment.Service

-- ============================================================ the limiter

namespace Limiter

/-- The times follow each other, and none is as late as one distance after another:
too early for the limiter to regain a request.  Where the distance is zero, at a rate of
more than 1000000000 requests in a second, this never holds of two requests
(`NoRefill.length_le_one`): what such a limiter lets through is regained at once, and
it turns nothing away (`check_of_interval_eq_zero`). -/
def NoRefill (interval : Nat) (times : List Nat) : Prop :=
  times.Pairwise fun earlier later => earlier ≤ later ∧ later < earlier + interval

variable {l : Limiter} {now due : Nat}

/-- The limiter with another time at which the next request is due. -/
def dueNext (l : Limiter) (due : Nat) : Limiter := { l with due := some due }

theorem check_fresh (hfresh : l.due = none) (hburst : 0 < l.burst) :
    l.check now = (true, l.dueNext (now + 2 * l.interval)) := by
  have hdue : l.dueAt now = now + l.interval := by rw [dueAt, hfresh, Option.getD_none]
  have hmul : l.interval ≤ l.interval * l.burst := Nat.le_mul_of_pos_right _ hburst
  rw [check, hdue, if_neg (by omega), Nat.max_eq_left (Nat.le_add_right now _), dueNext,
    Nat.two_mul, Nat.add_assoc]

/-- After that a request is let through when it is not too early by a whole burst. -/
theorem check_dueNext (l : Limiter) (now due : Nat) :
    (l.dueNext due).check now
      = if now < due - l.interval * l.burst then (false, l.dueNext due)
        else (true, l.dueNext (max due now + l.interval)) := rfl

/-- A fresh limiter after requests at these times, while it regains nothing. -/
def counted (l : Limiter) : (times : List Nat) → Limiter
  | [] => l
  | first :: rest => l.dueNext (first + (min (rest.length + 1) l.burst + 1) * l.interval)

/-- A request is let through as long as fewer came than a burst has, and it is
counted if it is. -/
theorem check_counted (hfresh : l.due = none) (hburst : 0 < l.burst) {times : List Nat}
    (h : NoRefill l.interval (times ++ [now])) :
    (l.counted times).check now
      = (decide (times.length < l.burst), l.counted (times ++ [now])) := by
  cases times with
  | nil =>
    have hmin : min 1 l.burst = 1 := Nat.min_eq_left hburst
    rw [counted, check_fresh hfresh hburst, List.nil_append, counted, List.length_nil, Nat.zero_add,
      hmin, decide_eq_true hburst]
  | cons first rest =>
    have hnow : first ≤ now ∧ now < first + l.interval :=
      (List.pairwise_cons.1 h).1 now (List.mem_append_right _ List.mem_cons_self)
    have hcomm : l.interval * l.burst = l.burst * l.interval := Nat.mul_comm _ _
    rw [counted, check_dueNext, List.cons_append, counted, List.length_append, List.length_cons,
      List.length_singleton]
    by_cases hlt : rest.length + 1 < l.burst
    · -- one of a burst: what is due is no later than a whole burst after the first
      have hmul : (rest.length + 1 + 1) * l.interval ≤ l.burst * l.interval :=
        Nat.mul_le_mul_right _ hlt
      have hpos : l.interval ≤ (rest.length + 1 + 1) * l.interval :=
        Nat.le_mul_of_pos_left _ (Nat.succ_pos _)
      rw [Nat.min_eq_left (Nat.le_of_lt hlt), Nat.min_eq_left (Nat.succ_le_of_lt hlt),
        if_neg (by omega), Nat.max_eq_left (by omega), decide_eq_true hlt,
        Nat.succ_mul (rest.length + 1 + 1), Nat.add_assoc]
    · -- the burst is used up: what is due is one distance later than that
      have hsucc : (l.burst + 1) * l.interval = l.burst * l.interval + l.interval :=
        Nat.succ_mul _ _
      rw [Nat.min_eq_right (by omega), Nat.min_eq_right (by omega), if_pos (by omega),
        decide_eq_false hlt]

/-- A request changes nothing but when the next one is due. -/
theorem interval_check (l : Limiter) (now : Nat) : (l.check now).2.interval = l.interval := by
  rw [check]
  split <;> rfl

/-- A rate of more than one request in a nanosecond is no limit, as each request
is regained at once. -/
theorem check_of_interval_eq_zero (hinterval : l.interval = 0) (hdue : ∀ due ∈ l.due, due ≤ now) :
    (l.check now).1 = true ∧ ∀ due ∈ (l.check now).2.due, due ≤ now := by
  have hnow : l.dueAt now ≤ now := by
    unfold dueAt
    cases hl : l.due with
    | none => rw [Option.getD_none, hinterval, Nat.add_zero]
    | some due => exact hdue due hl
  rw [check, if_neg (by omega)]
  refine ⟨rfl, fun due h => ?_⟩
  cases h
  rw [Nat.max_eq_right hnow, hinterval, Nat.add_zero]

/-- Without a distance between requests, one request is all that comes before something
is regained. -/
theorem NoRefill.length_le_one {times : List Nat} (h : NoRefill 0 times) :
    times.length ≤ 1 := by
  match times with
  | [] => exact Nat.zero_le 1
  | [_] => exact Nat.le_refl 1
  | first :: second :: rest =>
    obtain ⟨hle, hlt⟩ := (List.pairwise_cons.1 h).1 second List.mem_cons_self
    omega

/-- So however many requests come at one moment, none is turned away. -/
theorem checkMany_of_interval_eq_zero (hinterval : l.interval = 0)
    (hdue : ∀ due ∈ l.due, due ≤ now) (count : Nat) :
    (l.checkMany now count).1 = List.replicate count true := by
  induction count generalizing l with
  | zero => rfl
  | succ count ih =>
    obtain ⟨hpass, hnext⟩ := check_of_interval_eq_zero hinterval hdue
    have hrest := ih ((interval_check l now).trans hinterval) hnext
    rw [checkMany, List.replicate_succ, ← hrest, ← hpass]

end Limiter

-- ============================================================ one request

/-- Is it a request for a certificate, by its path and its method? -/
def Call.IsSign (c : Call) : Prop :=
  c.request.path = "/v1/sign" ∧ c.request.method = "POST"

instance (c : Call) : Decidable c.IsSign :=
  inferInstanceAs (Decidable (_ ∧ _))

/-- A reply that turns a request away for its rate. -/
def TooMany (result : Except Crash Reply) : Prop :=
  ∃ reply, result = .ok reply ∧ reply.status = 429

namespace Server

/-- What a request is answered with when its rate does not matter. -/
def unlimited (token : Token) (c : Call) : Except Crash Reply :=
  match checkPlace c.request with
  | .error why => .ok (.rejected why)
  | .ok () => serve token c.signs c.request.body

variable {s : Server} {c : Call} {token : Token}

theorem checkPlace_of_isSign (h : c.IsSign) : checkPlace c.request = .ok () :=
  checkPlace_eq_ok_iff.2 h

theorem checkPlace_of_not_isSign (h : ¬c.IsSign) :
    ∃ why, checkPlace c.request = .error why ∧ (why.status = 404 ∨ why.status = 405) := by
  unfold checkPlace
  by_cases hpath : c.request.path = Http.signPath
  · have hmethod : c.request.method ≠ Http.signMethod := fun hm => h ⟨hpath, hm⟩
    rw [if_neg (not_not.2 hpath), if_pos hmethod]
    exact ⟨_, rfl, .inr rfl⟩
  · rw [if_pos hpath]
    exact ⟨_, rfl, .inl rfl⟩

/-- A request to another place is rejected, and leaves the service as it is. -/
theorem respond_of_not_isSign (h : ¬c.IsSign) :
    s.respond c = (unlimited s.token c, s) := by
  obtain ⟨why, hplace, -⟩ := checkPlace_of_not_isSign h
  rw [respond, request, route, unlimited, hplace]
  rfl

/-- A request that the limiter turns away is answered with that. -/
theorem respond_of_exceeded (h : c.IsSign) {limiter : Option Limiter}
    (hrate : checkRate s.limiter c.now = (false, limiter)) :
    s.respond c = (.ok (.rejected .rateExceeded), { s with limiter }) := by
  rw [respond, request, route, checkPlace_of_isSign h, hrate]
  rfl

/-- A request that is let through is answered as without a limiter, and counted
also where answering breaks down. -/
theorem respond_of_passed (h : c.IsSign) {limiter : Option Limiter}
    (hrate : checkRate s.limiter c.now = (true, limiter)) :
    (s.respond c).1 = unlimited s.token c ∧ (s.respond c).2.limiter = limiter
      ∧ (s.respond c).2.token = s.token := by
  have hpassed : (checkRate s.limiter c.now).1 = true := by rw [hrate]
  rw [respond, request, route_of_passed (checkPlace_of_isSign h) hpassed, unlimited,
    checkPlace_of_isSign h, hrate]
  cases serve s.token c.signs c.request.body with
  | ok reply => exact ⟨rfl, rfl, rfl⟩
  | error crash =>
    refine ⟨rfl, ?_, ?_⟩
    all_goals
      simp only [bind, Except.bind, finish]
      split <;> rfl

/-- The answer of a service without a limiter. -/
theorem respond_of_no_limiter (h : s.limiter = none) : (s.respond c).1 = unlimited s.token c := by
  by_cases hsign : c.IsSign
  · have hrate : checkRate s.limiter c.now = (true, none) := by rw [h]; rfl
    exact (respond_of_passed hsign hrate).1
  · rw [respond_of_not_isSign hsign]

/-- Nothing but the rate is answered so. -/
theorem not_tooMany_unlimited (token : Token) (c : Call) : ¬TooMany (unlimited token c) := by
  rintro ⟨reply, hreply, hstatus⟩
  by_cases hsign : c.IsSign
  · rw [unlimited, checkPlace_of_isSign hsign] at hreply
    simp only [serve] at hreply
    split at hreply
    case h_1 fault _ =>
      cases hreply
      cases fault <;> cases hstatus
    case h_2 body _ =>
      cases hbody : authenticate token body with
      | error why =>
        rw [handle_of_not_admitted hbody] at hreply
        cases hreply
        rcases status_of_authenticate hbody with h | h <;> cases h.symm.trans hstatus
      | ok csr =>
        rw [handle_of_admitted hbody] at hreply
        obtain ⟨answer, -, rfl⟩ := map_eq_ok hreply
        rcases status_conclude answer with h | h <;> cases h.symm.trans hstatus
  · obtain ⟨why, hplace, hwhy⟩ := checkPlace_of_not_isSign hsign
    rw [unlimited, hplace] at hreply
    cases hreply
    rcases hwhy with h | h <;> cases h.symm.trans hstatus

-- ============================================================= whole runs

/-- When requests for a certificate came, of those that were answered. -/
def signTimes (answered : List (Call × Except Crash Reply)) : List Nat :=
  (answered.filter fun a => a.1.IsSign).map (·.1.now)

/-- How many requests of a run were for a certificate. -/
def signCount (answered : List (Call × Except Crash Reply)) : Nat :=
  answered.countP fun a => a.1.IsSign

theorem length_signTimes (answered : List (Call × Except Crash Reply)) :
    (signTimes answered).length = signCount answered := by
  rw [signTimes, List.length_map, signCount, List.countP_eq_length_filter]

/-- Has a burst been used up, when these requests were answered before? -/
def Exceeded (rate : Option Rate) (before : List (Call × Except Crash Reply)) (c : Call) : Prop :=
  ∃ r ∈ rate, c.IsSign ∧ (if r.burst = 0 then 50 else r.burst) ≤ signCount before

/-- The limiter is as the requests that were answered have left it. -/
def Counts (rate : Option Rate) (token : Token) (before : List (Call × Except Crash Reply))
    (s : Server) : Prop :=
  s.token = token ∧ s.limiter = rate.map fun r => (Limiter.ofRate r).counted (signTimes before)

/-- Nothing is regained between the requests for a certificate; see `Limiter.NoRefill`
for the rates at which something always is. -/
def NoRefill (rate : Option Rate) (answered : List (Call × Except Crash Reply)) : Prop :=
  ∀ r ∈ rate, Limiter.NoRefill (Limiter.ofRate r).interval (signTimes answered)

theorem burst_ofRate (r : Rate) :
    (Limiter.ofRate r).burst = if r.burst = 0 then 50 else r.burst := rfl

theorem burst_pos (r : Rate) : 0 < (Limiter.ofRate r).burst := by
  rw [burst_ofRate]
  split <;> omega

variable {rate : Option Rate} {before answered : List (Call × Except Crash Reply)}
  {result : Except Crash Reply}

theorem signTimes_append_of_isSign (h : c.IsSign) :
    signTimes (before ++ [(c, result)]) = signTimes before ++ [c.now] := by
  rw [signTimes, List.filter_append, List.map_append, signTimes]
  simp [h]

theorem signTimes_append_of_not_isSign (h : ¬c.IsSign) :
    signTimes (before ++ [(c, result)]) = signTimes before := by
  rw [signTimes, List.filter_append, List.map_append, signTimes]
  simp [h]

/-- One more request is turned away if the burst is used up and answered as without
a limiter if it is not, and the limiter is as that request has left it. -/
theorem respond_of_counts (hcounts : Counts rate token before s)
    (hrefill : NoRefill rate (before ++ [(c, result)])) :
    (Exceeded rate before c → (s.respond c).1 = .ok (.rejected .rateExceeded))
      ∧ (¬Exceeded rate before c → (s.respond c).1 = unlimited token c)
      ∧ Counts rate token (before ++ [(c, result)]) (s.respond c).2 := by
  obtain ⟨rfl, hlimiter⟩ := hcounts
  by_cases hsign : c.IsSign
  · cases rate with
    | none =>
      have hrate : checkRate s.limiter c.now = (true, none) := by rw [hlimiter]; rfl
      obtain ⟨hanswer, hleft, htoken⟩ := respond_of_passed hsign hrate
      exact ⟨fun ⟨_, hr, _⟩ => (by cases hr), fun _ => hanswer, htoken, hleft⟩
    | some r =>
      -- the limiter has counted as many as were answered, for it regains nothing
      have hrefill := hrefill r rfl
      rw [signTimes_append_of_isSign hsign] at hrefill
      have hcheck := Limiter.check_counted (l := Limiter.ofRate r) rfl (burst_pos r) hrefill
      rw [length_signTimes, burst_ofRate] at hcheck
      have hrate : checkRate s.limiter c.now
          = (decide (signCount before < if r.burst = 0 then 50 else r.burst),
            some ((Limiter.ofRate r).counted (signTimes before ++ [c.now]))) := by
        rw [hlimiter, Option.map_some, checkRate, hcheck]
      have hexceeded : Exceeded (some r) before c
          ↔ ¬signCount before < if r.burst = 0 then 50 else r.burst := by
        rw [Nat.not_lt]
        exact ⟨fun ⟨_, hr, _, hle⟩ => by cases hr; exact hle, fun hle => ⟨r, rfl, hsign, hle⟩⟩
      rw [hexceeded, not_not, Counts, signTimes_append_of_isSign hsign, Option.map_some]
      by_cases hlt : signCount before < if r.burst = 0 then 50 else r.burst
      · rw [decide_eq_true hlt] at hrate
        obtain ⟨hanswer, hleft, htoken⟩ := respond_of_passed hsign hrate
        exact ⟨fun h => absurd hlt h, fun _ => hanswer, htoken, hleft⟩
      · rw [decide_eq_false hlt] at hrate
        rw [respond_of_exceeded hsign hrate]
        exact ⟨fun _ => rfl, fun h => absurd h hlt, rfl, rfl⟩
  · rw [respond_of_not_isSign hsign, Counts, signTimes_append_of_not_isSign hsign]
    exact ⟨fun ⟨_, _, h, _⟩ => absurd h hsign, fun _ => rfl, rfl, hlimiter⟩

/-- An event that answers no request leaves the limiter alone. -/
theorem counts_step_of_not_answer {event : Event} (hcounts : Counts rate token before s)
    (h : answer? (event, (s.step event).1) = none) : Counts rate token before (s.step event).2 := by
  obtain ⟨htoken, hlimiter⟩ := hcounts
  cases event with
  | start bind =>
    simp only [step, start]
    split
    · exact ⟨htoken, hlimiter⟩
    · split <;> exact ⟨htoken, hlimiter⟩
  | shutdown =>
    simp only [step, shutdown]
    split <;> exact ⟨htoken, hlimiter⟩
  | arrive connection =>
    simp only [step, arrive]
    split
    · exact ⟨htoken, hlimiter⟩
    · split <;> exact ⟨htoken, hlimiter⟩
  | finish connection how =>
    simp only [step, finish]
    split <;> exact ⟨htoken, hlimiter⟩
  | call c =>
    simp only [step] at h ⊢
    split at h
    · cases h
    · rename_i hserved
      rw [if_neg hserved]
      exact ⟨htoken, hlimiter⟩

/-- An event that answers a request is that request, on a connection being served. -/
theorem step_of_answer {event : Event} (h : answer? (event, (s.step event).1) = some (c, result)) :
    result = (s.respond c).1 ∧ (s.step event).2 = (s.respond c).2 := by
  cases event with
  | call d =>
    simp only [step] at h ⊢
    split at h
    · rename_i hserved
      cases h
      rw [if_pos hserved]
      exact ⟨rfl, rfl⟩
    · cases h
  | _ => cases h

theorem answers_cons (s : Server) (event : Event) (events : List Event) :
    s.answers (event :: events)
      = (answer? (event, (s.step event).1)).toList ++ (s.step event).2.answers events := by
  rw [answers, run, List.filterMap_cons]
  cases answer? (event, (s.step event).1) <;> rfl

/-- Every request of a run is answered by the rule for one request, after those that
were answered before it. -/
theorem answers_of_counts {events : List Event} (hcounts : Counts rate token before s)
    (hrefill : NoRefill rate (before ++ s.answers events))
    {front back : List (Call × Except Crash Reply)}
    (h : s.answers events = front ++ (c, result) :: back) :
    (Exceeded rate (before ++ front) c → result = .ok (.rejected .rateExceeded))
      ∧ (¬Exceeded rate (before ++ front) c → result = unlimited token c) := by
  -- on the events, with the answers given so far
  induction events generalizing s before front with
  | nil => cases front <;> cases h
  | cons event events ih =>
    rw [answers_cons] at h hrefill
    cases hanswer : answer? (event, (s.step event).1) with
    | none =>
      rw [hanswer, Option.toList_none, List.nil_append] at h hrefill
      exact ih (counts_step_of_not_answer hcounts hanswer) hrefill h
    | some answer =>
      obtain ⟨d, result'⟩ := answer
      obtain ⟨rfl, hnext⟩ := step_of_answer hanswer
      rw [hanswer, Option.toList_some, List.singleton_append] at h hrefill
      rw [← List.singleton_append, ← List.append_assoc] at hrefill
      have hone : NoRefill rate (before ++ [(d, (s.respond d).1)]) := fun r hr => by
        have hall := hrefill r hr
        rw [signTimes, List.filter_append, List.map_append] at hall
        exact (List.pairwise_append.1 hall).1
      obtain ⟨hexceeded, hpassed, hcounts'⟩ := respond_of_counts hcounts hone
      cases front with
      | nil =>
        cases h
        rw [List.append_nil]
        exact ⟨hexceeded, hpassed⟩
      | cons first front =>
        rw [List.cons_append, List.cons.injEq] at h
        rw [hnext] at h hrefill
        rw [← h.1, ← List.singleton_append, ← List.append_assoc]
        exact ih hcounts' hrefill h.2

/-- A service that can be configured can be without a limit of the rate. -/
theorem configureWith_unlimited {settings : Settings} {a : Authority} {now : Time.Instant}
    (hs : (configureWith settings a token now).result = .ok (.ok s)) :
    s.token = token ∧ s.limiter = settings.rate.map Limiter.ofRate
      ∧ ∃ alone, (configureWith { settings with rate := none } a token now).result = .ok (.ok alone)
        ∧ alone.token = token ∧ alone.limiter = none := by
  obtain ⟨hidentity, hplaces, rfl⟩ := configureWith_eq_ok_iff.1 hs
  exact ⟨rfl, rfl, _, configureWith_eq_ok_iff.2 ⟨hidentity, hplaces, rfl⟩, rfl, rfl⟩

/-- In every run of a service that was configured, with whatever connections,
shutdowns and starts, and as long as the limiter regains nothing: a request is
turned away for its rate exactly when there is a limiter, the request is for a
certificate, and as many requests for a certificate as a burst has were answered
before it; and every other request is answered as the service would answer it
alone and without a limiter.  At a rate of more than 1000000000 requests in a second the
limiter regains what it gives at once, so that this speaks of no second request there, and
none is turned away (`Limiter.check_of_interval_eq_zero`). -/
theorem run_limited {settings : Settings} {a : Authority} {now : Time.Instant}
    (hs : (configureWith settings a token now).result = .ok (.ok s)) (events : List Event)
    (hrefill : NoRefill settings.rate (s.answers events)) :
    ∃ alone, (configureWith { settings with rate := none } a token now).result = .ok (.ok alone)
      ∧ ∀ before c result after, s.answers events = before ++ (c, result) :: after →
        (TooMany result ↔ ∃ r ∈ settings.rate, c.IsSign
          ∧ (if r.burst = 0 then 50 else r.burst) ≤ signCount before)
        ∧ (¬TooMany result → result = (alone.respond c).1) := by
  obtain ⟨rfl, hlimiter, alone, halone, htoken, hnone⟩ := configureWith_unlimited hs
  have hcounts : Counts settings.rate s.token [] s := ⟨rfl, hlimiter⟩
  refine ⟨alone, halone, fun before c result after h => ?_⟩
  obtain ⟨hexceeded, hpassed⟩ := answers_of_counts hcounts hrefill h
  rw [List.nil_append] at hexceeded hpassed
  rw [respond_of_no_limiter hnone, htoken]
  by_cases hrate : Exceeded settings.rate before c
  · have hmany : TooMany result := ⟨_, hexceeded hrate, rfl⟩
    exact ⟨⟨fun _ => hrate, fun _ => hmany⟩, fun h => absurd hmany h⟩
  · have hfew : ¬TooMany result := hpassed hrate ▸ not_tooMany_unlimited _ c
    exact ⟨⟨fun h => absurd h hfew, fun h => absurd h hrate⟩, fun _ => hpassed hrate⟩

/-- A service that lets one request through at once. -/
def burstOfOne : Server where
  settings := { rate := some ⟨1, 1⟩ }
  authority := .small
  token := .small
  limiter := some (.ofRate ⟨1, 1⟩)
  free := 256

/-- A request for a certificate with nothing in it. -/
def emptyCall (connection now : Nat) : Call where
  connection
  now
  request := ⟨"POST", "/v1/sign", [], .ofBytes []⟩
  signs _ := .ok (.error (.protocol .emptyChain))

/-- One request before a restart, and one after it. -/
def restarted : List Event :=
  [.start .ok, .arrive 1, .call (emptyCall 1 0), .shutdown, .start .ok, .arrive 2,
    .call (emptyCall 2 5)]

/-- The first request is malformed, and still the second is one too many. -/
theorem run_limited_restarted :
    ∃ result, burstOfOne.answers restarted
        = [(emptyCall 1 0, .ok (.rejected .malformed)), (emptyCall 2 5, result)]
      ∧ TooMany result := by
  have hconfigured : (configureWith { rate := some ⟨1, 1⟩ } .small .small ⟨0, 0⟩).result
      = .ok (.ok burstOfOne) :=
    configureWith_eq_ok_iff.2 ⟨by decide +kernel, by decide, rfl⟩
  have hanswers : burstOfOne.answers restarted
      = [(emptyCall 1 0, .ok (.rejected .malformed)),
        (emptyCall 2 5, .ok (.rejected .rateExceeded))] := rfl
  have hrefill : NoRefill (some ⟨1, 1⟩) (burstOfOne.answers restarted) := by
    rw [hanswers]
    rintro r hr
    cases hr
    show List.Pairwise _ [0, 5]
    decide
  obtain ⟨alone, -, hrun⟩ := run_limited hconfigured restarted hrefill
  refine ⟨_, hanswers, ?_⟩
  refine (hrun [(emptyCall 1 0, .ok (.rejected .malformed))] (emptyCall 2 5) _ [] hanswers).1.2 ?_
  exact ⟨_, rfl, ⟨rfl, rfl⟩, by decide⟩

end Server

end Enrollment.Service
