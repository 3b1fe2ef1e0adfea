/-
The places of a service over whole runs.

What an event does to the places is told by the connections that begin to be
served with it (`begun`) and by those that end with it (`ended`): each of the
former takes one place, each of the latter gives one back, and nothing else
moves any (`step_accounts`).  Hence the free places and the connections being
served make up what the service was set to, whatever happens to it
(`Balanced`, `run_balanced`).  Places outlive a shutdown, which ends all
connections, so a service that is started again has all of them.
-/
import Enrollment.Proofs.Authority.Signer
import Enrollment.Proofs.Message
import Enrollment.Service.Run

namespace Enrollment.Service.Server

variable {s : Server}

-- =========================================================== beginnings and ends

/-- The connections that begin to be served with an event. -/
def begun (s : Server) : Event → List Nat
  | .arrive connection => if (s.arrive connection).1 = .served then [connection] else []
  | .start _ | .shutdown | .finish _ _ | .call _ => []

/-- The connections that end with an event, however they end. -/
def ended (s : Server) : Event → List Nat
  | .finish connection _ => if connection ∈ s.served then [connection] else []
  | .call c => if c.connection ∈ s.served ∧ (s.respond c).1.isOk = false then [c.connection] else []
  | .shutdown => if s.isRunning then s.served else []
  | .start _ | .arrive _ => []

/-- The connections that are served after an event and the places that are free,
by those before it. -/
structure Accounts (s t : Server) (begun ended : List Nat) : Prop where
  served : (t.served ++ ended).Perm (begun ++ s.served)
  free : t.free + begun.length = s.free + ended.length

theorem Accounts.of_same {t : Server} (hserved : t.served = s.served) (hfree : t.free = s.free) :
    Accounts s t [] [] :=
  ⟨by rw [hserved, List.append_nil, List.nil_append], by rw [hfree]⟩

/-- A connection that ends gives its place back. -/
theorem accounts_finish {connection : Nat} (h : connection ∈ s.served) (how : Ending) :
    Accounts s (s.finish connection how).2 [] [connection] := by
  rw [finish, if_pos h]
  refine ⟨?_, rfl⟩
  show (s.served.erase connection ++ [connection]).Perm s.served
  exact List.perm_append_comm.trans (List.perm_cons_erase h).symm

theorem accounts_start (s : Server) (bind : Net.SocketAddress → Except String Net.SocketAddress) :
    Accounts s (s.start bind).2 [] [] := by
  unfold start
  split
  · exact .of_same rfl rfl
  · split <;> exact .of_same rfl rfl

theorem accounts_arrive (s : Server) (connection : Nat) :
    Accounts s (s.arrive connection).2 (s.begun (.arrive connection)) [] := by
  unfold begun arrive
  cases s.isRunning with
  | false => exact .of_same rfl rfl
  | true =>
    by_cases hfree : s.free = 0
    · simp only [hfree, Bool.not_true, Bool.false_eq_true, if_true, if_false]
      exact .of_same rfl rfl
    · simp only [hfree, Bool.not_true, Bool.false_eq_true, if_true, if_false]
      refine ⟨by rw [List.append_nil]; rfl, ?_⟩
      show s.free - 1 + 1 = s.free + 0
      omega

/-- A shutdown gives back the places of all connections that were served. -/
theorem accounts_shutdown (s : Server) :
    Accounts s s.shutdown.2 [] (if s.isRunning then s.served else []) := by
  unfold shutdown
  cases s.isRunning with
  | false => exact .of_same rfl rfl
  | true => exact ⟨.refl _, rfl⟩

/-- Answering a request leaves the places alone, unless it breaks down: then the
connection ends. -/
theorem respond_cases (s : Server) (c : Call) :
    ∃ limiter, ((s.respond c).1.isOk = true ∧ (s.respond c).2 = { s with limiter })
      ∨ ∃ crash, (s.respond c).1.isOk = false
        ∧ (s.respond c).2 = (finish { s with limiter } c.connection (.crashed crash)).2 := by
  unfold respond request
  cases route s.token c.signs s.limiter c.now c.request with
  | ok found => exact ⟨found.2, .inl ⟨rfl, rfl⟩⟩
  | error crash => exact ⟨(checkRate s.limiter c.now).2, .inr ⟨crash, rfl, rfl⟩⟩

/-- An answer gives back the place of its connection, if it breaks down. -/
theorem accounts_call (s : Server) (c : Call) :
    Accounts s (s.step (.call c)).2 [] (s.ended (.call c)) := by
  by_cases hserved : c.connection ∈ s.served
  · obtain ⟨limiter, ⟨hok, hnext⟩ | ⟨crash, hcrash, hnext⟩⟩ := respond_cases s c
    · simp only [step, ended, hserved, hok, if_true, Bool.true_eq_false, and_false, if_false]
      rw [hnext]
      exact .of_same rfl rfl
    · simp only [step, ended, hserved, hcrash, if_true, and_self]
      rw [hnext]
      -- the limiter has no part in the places
      obtain ⟨hends, hgiven⟩ := @accounts_finish { s with limiter } c.connection hserved
        (.crashed crash)
      exact ⟨hends, hgiven⟩
  · simp only [step, ended, hserved, if_false, false_and]
    exact .of_same rfl rfl

/-- An event takes one place for each connection that begins with it and gives one
back for each that ends with it. -/
theorem step_accounts (s : Server) (event : Event) :
    Accounts s (s.step event).2 (s.begun event) (s.ended event) := by
  cases event with
  | start bind => exact accounts_start s bind
  | shutdown => exact accounts_shutdown s
  | arrive connection => exact accounts_arrive s connection
  | finish connection how =>
    by_cases hserved : connection ∈ s.served
    · have hended : s.ended (.finish connection how) = [connection] := if_pos hserved
      rw [hended]
      exact accounts_finish hserved how
    · have hended : s.ended (.finish connection how) = [] := if_neg hserved
      have hsame : s.step (.finish connection how) = (.finished, s) := by
        simp only [step, finish, hserved, if_false]
      rw [hended, hsame]
      exact .of_same rfl rfl
  | call c => exact accounts_call s c

-- ================================================================= whole runs

/-- The free places and the connections being served are as many as the service was
set to, and a service that does not run serves none. -/
structure Balanced (places : Nat) (s : Server) : Prop where
  places : s.free + s.served.length = places
  idle : s.isRunning = false → s.served = []

/-- Nothing but a start changes a service that does not run and serves nobody. -/
theorem step_of_idle (hidle : s.isRunning = false) (hserved : s.served = []) (event : Event) :
    (s.step event).2 = s ∨ (s.step event).2.isRunning = true := by
  have hnone : ∀ connection, connection ∉ s.served := fun connection h => by
    rw [hserved] at h
    cases h
  cases event with
  | start bind =>
    simp only [step, start, hidle, Bool.false_eq_true, if_false]
    split
    · exact .inl rfl
    · exact .inr rfl
  | shutdown => exact .inl (by simp only [step, shutdown, hidle, Bool.false_eq_true, if_false])
  | arrive connection => exact .inl (by simp only [step, arrive, hidle, Bool.not_false, if_true])
  | finish connection how => exact .inl (by simp only [step, finish, hnone, if_false])
  | call c => exact .inl (by simp only [step, hnone, if_false])

/-- A service that runs goes on running until it is shut down. -/
theorem step_of_running (hrunning : s.isRunning = true) (event : Event) :
    (s.step event).2.isRunning = true ∨ (s.step event).2.served = [] := by
  have hfinish : ∀ (t : Server) connection how, t.isRunning = true →
      (t.finish connection how).2.isRunning = true := by
    intro t connection how ht
    unfold finish
    split <;> exact ht
  cases event with
  | start bind => exact .inl (by simp only [step, start, hrunning, if_true])
  | shutdown => exact .inr (by simp only [step, shutdown, hrunning, if_true])
  | arrive connection =>
    left
    simp only [step, arrive, hrunning, Bool.not_true, Bool.false_eq_true, if_false]
    split <;> exact hrunning
  | finish connection how => exact .inl (hfinish s connection how hrunning)
  | call c =>
    left
    by_cases hserved : c.connection ∈ s.served
    · simp only [step, hserved, if_true]
      obtain ⟨limiter, ⟨-, hnext⟩ | ⟨crash, -, hnext⟩⟩ := respond_cases s c
      · rw [hnext]
        exact hrunning
      · rw [hnext]
        exact hfinish { s with limiter } c.connection _ hrunning
    · simp only [step, hserved, if_false]
      exact hrunning

/-- Whatever happens, the balance is kept. -/
theorem step_balanced {places : Nat} (h : Balanced places s) (event : Event) :
    Balanced places (s.step event).2 := by
  obtain ⟨hserved, hfree⟩ := step_accounts s event
  have hlength := hserved.length_eq
  have hplaces := h.places
  rw [List.length_append, List.length_append] at hlength
  refine ⟨by omega, fun hidle => ?_⟩
  cases hrunning : s.isRunning with
  | false =>
    rcases step_of_idle hrunning (h.idle hrunning) event with hsame | hstarted
    · rw [hsame]
      exact h.idle hrunning
    · rw [hstarted] at hidle
      cases hidle
  | true =>
    rcases step_of_running hrunning event with hstill | hnobody
    · rw [hstill] at hidle
      cases hidle
    · exact hnobody

/-- It is kept however much happens. -/
theorem run_balanced {places : Nat} (h : Balanced places s) (events : List Event) :
    Balanced places (s.run events).2 := by
  induction events generalizing s with
  | nil => exact h
  | cons event events ih => exact ih (step_balanced h event)

/-- A service is configured with an authority that can be presented and with places that can
be counted, and has nothing behind it. -/
theorem configureWith_eq_ok_iff {settings : Settings} {a : Authority} {token : Token}
    {now : Time.Instant} :
    (configureWith settings a token now).result = .ok (.ok s)
      ↔ checkIdentity a = .ok () ∧ settings.maxConnections ≤ maxPlaces
        ∧ s = { settings, authority := a, token
                limiter := settings.rate.map Limiter.ofRate
                free := settings.maxConnections } := by
  simp only [configureWith]
  constructor
  · intro hs
    split at hs
    case h_1 => cases hs
    case h_2 hidentity =>
      split at hs
      case isTrue => cases hs
      case isFalse hplaces =>
        cases hs
        exact ⟨hidentity, Nat.not_lt.1 hplaces, rfl⟩
  · rintro ⟨hidentity, hplaces, rfl⟩
    rw [hidentity]
    exact if_neg (Nat.not_lt.2 hplaces)

/-- A service that was configured has all its places. -/
theorem balanced_of_configureWith {settings : Settings} {a : Authority} {token : Token}
    {now : Time.Instant} (hs : (configureWith settings a token now).result = .ok (.ok s)) :
    Balanced settings.maxConnections s := by
  obtain ⟨-, -, rfl⟩ := configureWith_eq_ok_iff.1 hs
  exact ⟨rfl, fun _ => rfl⟩

-- ================================================================== arrivals

/-- A connection that arrives is served while there is a place. -/
theorem step_arrive (hrunning : s.isRunning = true) (connection : Nat) :
    s.step (.arrive connection)
      = if s.free = 0 then (.arrived .dropped, s)
        else (.arrived .served,
          { s with free := s.free - 1, served := connection :: s.served }) := by
  simp only [step, arrive, hrunning, Bool.not_true, Bool.false_eq_true, if_false]
  split <;> rfl

/-- Of the connections that arrive one after the other, the first ones are served, as
many as there are places, and the others are dropped. -/
theorem run_arrivals (hrunning : s.isRunning = true) (connections : List Nat) :
    (s.run (connections.map .arrive)).1.map (·.2)
      = List.replicate (min connections.length s.free) (.arrived .served)
        ++ List.replicate (connections.length - s.free) (.arrived .dropped) := by
  -- on the connections, with one place less for each that is served
  induction connections generalizing s with
  | nil => rw [List.length_nil, Nat.zero_min, Nat.zero_sub]; rfl
  | cons connection connections ih =>
    rw [List.map_cons, run, step_arrive hrunning, List.length_cons]
    by_cases hfree : s.free = 0
    · have hrest := ih hrunning
      rw [hfree, Nat.min_zero, Nat.sub_zero, List.replicate_zero, List.nil_append] at hrest
      simp only [hfree, if_true, Nat.min_zero, Nat.sub_zero, List.replicate_zero, List.nil_append,
        List.map_cons, List.replicate_succ, hrest]
    · have hrest := ih (s := { s with free := s.free - 1, served := connection :: s.served })
        hrunning
      have hmin : min (connections.length + 1) s.free
          = min connections.length (s.free - 1) + 1 := by omega
      have hsub : connections.length + 1 - s.free = connections.length - (s.free - 1) := by omega
      simp only [hfree, if_false, List.map_cons, hrest, hmin, hsub, List.replicate_succ,
        List.cons_append]

/-- What the number of places says of a service at some moment of its life. -/
structure Capped (places : Nat) (t : Server) : Prop where
  served_le : t.served.length ≤ places
  /-- A connection that arrives is dropped exactly when all places are taken. -/
  arrival : ∀ connection, (t.step (.arrive connection)).1
    = .arrived (if t.isRunning = false then .refused
        else if t.served.length = places then .dropped else .served)
  dropped : ∀ connection, (t.step (.arrive connection)).1 = .arrived .dropped →
    (t.step (.arrive connection)).2 = t
  /-- Each connection that ends gives back one place, in whatever way it ends. -/
  accounts : ∀ event, Accounts t (t.step event).2 (t.begun event) (t.ended event)
  shutdown : (t.step .shutdown).2.served = []
  /-- Started again, it serves as many connections as it ever did. -/
  restarted : ∀ bind address,
    ((t.step .shutdown).2.step (.start bind)).1 = .started (.ok address) →
    ∀ connections : List Nat,
      (((t.step .shutdown).2.step (.start bind)).2.run (connections.map .arrive)).1.map (·.2)
        = List.replicate (min connections.length places) (.arrived .served)
          ++ List.replicate (connections.length - places) (.arrived .dropped)

theorem served_shutdown (hidle : s.isRunning = false → s.served = []) :
    (s.step .shutdown).2.served = [] := by
  cases hrunning : s.isRunning with
  | false =>
    simp only [step, Server.shutdown, hrunning, Bool.false_eq_true, if_false]
    exact hidle hrunning
  | true => simp only [step, Server.shutdown, hrunning, if_true]

/-- A service that was started runs, with the places it had. -/
theorem start_eq_ok {bind : Net.SocketAddress → Except String Net.SocketAddress}
    {address : Net.SocketAddress} (h : (s.step (.start bind)).1 = .started (.ok address)) :
    (s.step (.start bind)).2.isRunning = true ∧ (s.step (.start bind)).2.free = s.free := by
  simp only [step, start] at h ⊢
  split at h
  case isTrue => cases h
  case isFalse hidle =>
    rw [if_neg hidle]
    split at h
    case h_1 => cases h
    case h_2 => exact ⟨rfl, rfl⟩

/-- Where there is a balance, the number of places says all that it should. -/
theorem Balanced.capped {places : Nat} (h : Balanced places s) : Capped places s where
  served_le := by
    have hplaces := h.places
    omega
  arrival connection := by
    have hplaces := h.places
    cases hrunning : s.isRunning with
    | false => simp only [step, arrive, hrunning, Bool.not_false, if_true]
    | true =>
      rw [step_arrive hrunning]
      simp only [Bool.true_eq_false, if_false]
      by_cases hfree : s.free = 0
      · rw [if_pos hfree, if_pos (by omega)]
      · rw [if_neg hfree, if_neg (by omega)]
  dropped connection hdropped := by
    simp only [step, arrive] at hdropped ⊢
    split at hdropped
    case isTrue => cases hdropped
    case isFalse hrunning =>
      split at hdropped
      case isTrue hfree => rw [if_neg hrunning, if_pos hfree]
      case isFalse => cases hdropped
  accounts := step_accounts s
  shutdown := served_shutdown h.idle
  restarted bind address hstart connections := by
    obtain ⟨hrunning, hfree⟩ := start_eq_ok hstart
    -- nobody is served after the shutdown, so all places are free
    have hplaces := (step_balanced h .shutdown).places
    rw [served_shutdown h.idle, List.length_nil, Nat.add_zero, ← hfree] at hplaces
    rw [run_arrivals hrunning, hplaces]

/-- At every moment of every run a service that was configured is capped by the number
of places it was set to. -/
theorem run_capped {settings : Settings} {a : Authority} {token : Token} {now : Time.Instant}
    (hs : (configureWith settings a token now).result = .ok (.ok s)) (events : List Event) :
    Capped settings.maxConnections (s.run events).2 :=
  (run_balanced (balanced_of_configureWith hs) events).capped

/-- A service with one place. -/
def onePlace : Server where
  settings := { maxConnections := 1 }
  authority := .small
  token := .small
  limiter := some (.ofRate {})
  free := 1

theorem configureWith_onePlace :
    (configureWith { maxConnections := 1 } .small .small ⟨0, 0⟩).result = .ok (.ok onePlace) :=
  configureWith_eq_ok_iff.2 ⟨by decide +kernel, by decide, rfl⟩

/-- A second connection is dropped, and a third one is served once the handshake of the
first has timed out. -/
theorem run_capped_one :
    Capped 1 (onePlace.run [.start .ok, .arrive 1, .arrive 2, .finish 1 .handshakeTimeout]).2
      ∧ (onePlace.run
          [.start .ok, .arrive 1, .arrive 2, .finish 1 .handshakeTimeout, .arrive 3]).1.map (·.2)
        = [.started (.ok ⟨.v4 [0, 0, 0, 0], defaultPort⟩), .arrived .served,
          .arrived .dropped, .finished, .arrived .served] :=
  ⟨run_capped configureWith_onePlace _, rfl⟩

end Enrollment.Service.Server
