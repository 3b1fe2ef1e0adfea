/-
The life cycle of a service over whole runs.

Only a start that could bind and a shutdown that found a loop change what is
kept behind the lock (`step_cases`); a call that fails changes nothing at all
(`step_of_fault`), though a shutdown has set the state by the time it fails.
So the starts and shutdowns of a log that were successful tell the loops that
there are and the address that is listened at (`Tracks`).
-/
import Enrollment.Proofs.Service.Places
import Enrollment.Proofs.Service.Workings

namespace Enrollment.Service.Workings

variable {s : Server} {w : Workings} {settings : Settings}

-- ============================================================ what is logged

/-- The address of a start that was successful. -/
def started? : Effect → Option Net.SocketAddress
  | .outcome (.started (.ok address)) => some address
  | _ => none

/-- Is it a shutdown that was successful? -/
def isStop : Effect → Bool
  | .outcome (.stopped (.ok ())) => true
  | _ => false

/-- The addresses of the starts that were successful, in order. -/
def addresses (log : List (Happening × Effect)) : List Net.SocketAddress :=
  log.filterMap fun entry => started? entry.2

/-- How many shutdowns were successful. -/
def stops (log : List (Happening × Effect)) : Nat :=
  log.countP fun entry => isStop entry.2

theorem addresses_append (log : List (Happening × Effect)) (happening : Happening)
    (effect : Effect) :
    addresses (log ++ [(happening, effect)]) = addresses log ++ (started? effect).toList := by
  rw [addresses, addresses, List.filterMap_append, List.filterMap_cons, List.filterMap_nil]
  cases started? effect <;> rfl

theorem stops_append (log : List (Happening × Effect)) (happening : Happening) (effect : Effect) :
    stops (log ++ [(happening, effect)]) = stops log + if isStop effect then 1 else 0 := by
  simp [stops, List.countP_append, List.countP_cons]

-- ================================================================= one step

/-- What is kept behind the lock stays as it is. -/
structure Keeps (w w' : Workings) : Prop where
  state : w'.state = w.state
  loops : w'.loops = w.loops
  settings : w'.settings = w.settings

theorem Keeps.refl (w : Workings) : Keeps w w := ⟨rfl, rfl, rfl⟩

/-- The end of a connection neither starts nor stops anything. -/
theorem keeps_finish (w : Workings) (connection : Nat) : Keeps w (w.finish connection) := by
  unfold finish
  split <;> exact ⟨rfl, rfl, rfl⟩

theorem keeps_arrive (w : Workings) (connection : Nat) : Keeps w (w.arrive connection).2 := by
  unfold arrive
  split
  · exact .refl w
  · split <;> exact ⟨rfl, rfl, rfl⟩

theorem keeps_respond (w : Workings) (c : Call) : Keeps w (w.respond c).2 := by
  unfold respond
  split
  · exact ⟨rfl, rfl, rfl⟩
  · obtain ⟨hstate, hloops, hsettings⟩ :=
      keeps_finish { w with limiter := (checkRate w.limiter c.now).2 } c.connection
    exact ⟨hstate, hloops, hsettings⟩

/-- A service that is stopped starts exactly when its address can be bound. -/
theorem start_of_stopped (hstate : w.state = .stopped)
    (bind : Net.SocketAddress → Except String Net.SocketAddress) :
    w.start bind = match bind w.settings.socketAddress with
      | .error text => (.error (.bind w.settings.socketAddress text), w)
      | .ok address => (.ok address, { w with
          loops := w.loops ++ [w.spawned], spawned := w.spawned + 1
          state := .running address w.spawned }) := by
  cases hbind : bind w.settings.socketAddress with
  | error text => simp only [start, hstate, hbind]
  | ok address => simp only [start, hstate, hbind]

/-- A service that runs is not started again, and nothing changes. -/
theorem start_of_running {address : Net.SocketAddress} {loop : Nat}
    (hstate : w.state = .running address loop)
    (bind : Net.SocketAddress → Except String Net.SocketAddress) :
    w.start bind = (.error .alreadyRunning, w) := by
  simp only [start, hstate]

/-- A step starts the service, or stops it, or does neither. -/
theorem step_cases (h : Sound w) (happening : Happening) :
    (∃ address, w.state = .stopped ∧ w.step happening
        = (.outcome (.started (.ok address)), { w with
          loops := w.loops ++ [w.spawned], spawned := w.spawned + 1
          state := .running address w.spawned }))
      ∨ (∃ address loop, w.state = .running address loop ∧ w.step happening
        = (.outcome (.stopped (.ok ())), { w with
          state := .stopped, loops := [], tasks := [], permits := w.permits + w.served.length }))
      ∨ (started? (w.step happening).1 = none ∧ isStop (w.step happening).1 = false
        ∧ Keeps w (w.step happening).2) := by
  -- only starts and shutdowns look at the state, and each changes one of its two forms
  cases happening with
  | lookUp => exact .inr (.inr ⟨rfl, rfl, .refl w⟩)
  | join connection => exact .inr (.inr ⟨rfl, rfl, rfl, rfl, rfl⟩)
  | event event =>
    cases event with
    | start bind =>
      cases hstate : w.state with
      | running address loop =>
        right; right
        simp only [step, react, start_of_running hstate]
        exact ⟨rfl, rfl, .refl w⟩
      | stopped =>
        simp only [step, react, start_of_stopped hstate]
        cases bind w.settings.socketAddress with
        | error text => exact .inr (.inr ⟨rfl, rfl, .refl w⟩)
        | ok address => exact .inl ⟨address, trivial, rfl⟩
    | shutdown =>
      cases hstate : w.state with
      | running address loop =>
        right; left
        simp only [step, react, shutdown_of_running h hstate]
        exact ⟨address, loop, rfl, trivial⟩
      | stopped =>
        right; right
        simp only [step, react, shutdown_of_stopped hstate]
        exact ⟨rfl, rfl, .refl w⟩
    | arrive connection => exact .inr (.inr ⟨rfl, rfl, keeps_arrive w connection⟩)
    | finish connection how => exact .inr (.inr ⟨rfl, rfl, keeps_finish w connection⟩)
    | call c =>
      right; right
      by_cases hserved : c.connection ∈ w.served
      · simp only [step, react, hserved, if_true]
        exact ⟨rfl, rfl, keeps_respond w c⟩
      · simp only [step, react, hserved, if_false]
        exact ⟨rfl, rfl, .refl w⟩

/-- The fault that a call fails with, if it fails. -/
def fault? : Effect → Option Fault
  | .outcome (.started (.error fault)) => some fault
  | .outcome (.stopped (.error fault)) => some fault
  | _ => none

/-- A call that fails leaves everything as it was. -/
theorem step_of_fault {happening : Happening} {fault : Fault}
    (h : fault? (w.step happening).1 = some fault) : (w.step happening).2 = w := by
  cases happening with
  | lookUp => rfl
  | join connection => cases h
  | event event =>
    cases event with
    | start bind =>
      cases hstate : w.state with
      | running address loop => simp only [step, react, start_of_running hstate]
      | stopped =>
        simp only [step, react, start_of_stopped hstate] at h ⊢
        cases hbind : bind w.settings.socketAddress with
        | error text => rfl
        | ok address =>
          rw [hbind] at h
          cases h
    | shutdown =>
      cases hstate : w.state with
      | running address loop =>
        simp only [step, react, shutdown, hstate] at h
        cases h
      | stopped => simp only [step, react, shutdown_of_stopped hstate]
    | arrive connection => cases h
    | finish connection how => cases h
    | call c =>
      simp only [step, react] at h
      split at h <;> cases h

-- ================================================================ whole runs

/-- What a log tells of the workings at its end. -/
structure Tracks (settings : Settings) (log : List (Happening × Effect)) (w : Workings) :
    Prop where
  sound : Sound w
  settings : w.settings = settings
  balance : (addresses log).length = stops log + w.loops.length
  address : ∀ address ∈ w.address?, (addresses log).getLast? = some address

/-- Whatever happens, the log still tells how the service stands. -/
theorem step_tracks {log : List (Happening × Effect)} (h : Tracks settings log w)
    (happening : Happening) :
    Tracks settings (log ++ [(happening, (w.step happening).1)]) (w.step happening).2 := by
  obtain ⟨hsound, hsettings, hbalance, haddress⟩ := h
  have hnext := sound_step hsound happening
  rcases step_cases hsound happening with
    ⟨address, hstate, hstep⟩ | ⟨address, loop, hstate, hstep⟩ | ⟨hstarted, hstop, hkeeps⟩
  · -- a start: one more address, and one loop where there was none
    have hloops : w.loops = [] := by rw [hsound.loops, hstate]; rfl
    rw [hstep] at hnext ⊢
    refine ⟨hnext, hsettings, ?_, ?_⟩
    · rw [addresses_append, stops_append]
      simp [started?, isStop, hbalance, hloops]
    · rintro found ⟨⟩
      rw [addresses_append]
      simp [started?]
  · -- a shutdown: one more stop, and the one loop is gone
    have hloops : w.loops = [loop] := by rw [hsound.loops, hstate]; rfl
    rw [hstep] at hnext ⊢
    refine ⟨hnext, hsettings, ?_, ?_⟩
    · rw [addresses_append, stops_append]
      simp [started?, isStop, hbalance, hloops]
    · intro found hfound
      cases hfound
  · have hsame : (w.step happening).2.address? = w.address? := by
      simp only [address?, hkeeps.state]
    refine ⟨hnext, by rw [hkeeps.settings, hsettings], ?_, ?_⟩
    · rw [addresses_append, stops_append, hstarted, hstop, hkeeps.loops]
      simpa using hbalance
    · rw [hsame, addresses_append, hstarted, Option.toList_none, List.append_nil]
      exact haddress

theorem run_tracks {log : List (Happening × Effect)} (h : Tracks settings log w)
    (happenings : List Happening) :
    Tracks settings (log ++ (w.run happenings).1) (w.run happenings).2 := by
  -- on what happens, with the log so far
  induction happenings generalizing log w with
  | nil => simpa [run] using h
  | cons happening rest ih =>
    have hrest := ih (step_tracks h happening)
    rw [List.append_assoc] at hrest
    exact hrest

/-- A service that was configured looks like its inside, with the settings it was given. -/
theorem view_ofServer {a : Authority} {token : Token} {now : Time.Instant}
    (hs : (Server.configureWith settings a token now).result = .ok (.ok s)) :
    (ofServer s).view = s ∧ Tracks settings [] (ofServer s) := by
  obtain ⟨-, -, rfl⟩ := Server.configureWith_eq_ok_iff.1 hs
  exact ⟨rfl, sound_ofServer _, rfl, rfl, fun _ h => by cases h⟩

/-- What starts, shutdowns and questions for the address give at the end of a log. -/
structure LifeCycle (settings : Settings) (log : List (Happening × Effect)) (w : Workings) :
    Prop where
  start : ∀ bind, (w.step (.event (.start bind))).1 = .outcome (.started
    (if w.view.isRunning then .error .alreadyRunning
      else (bind settings.socketAddress).mapError (.bind settings.socketAddress)))
  shutdown : (w.step (.event .shutdown)).1 = .outcome (.stopped
    (if w.view.isRunning then .ok () else .error .notRunning))
  balance : (addresses log).length = stops log + w.loops.length
  /-- One loop exists while the service runs, and none otherwise. -/
  loops : w.loops.length = if w.view.isRunning then 1 else 0
  lookUp : (w.step .lookUp).1
    = .address (if w.view.isRunning then (addresses log).getLast? else none)
  failed : ∀ happening, (fault? (w.step happening).1).isSome → (w.step happening).2 = w
  /-- A start succeeds where the one before it could not bind. -/
  retried : ∀ bind text, (w.step (.event (.start bind))).1
      = .outcome (.started (.error (.bind settings.socketAddress text))) →
    ∀ again address, again settings.socketAddress = .ok address →
      ((w.step (.event (.start bind))).2.step (.event (.start again))).1
        = .outcome (.started (.ok address))

/-- What a start comes to can be told from outside, before it is made. -/
theorem Tracks.start {log : List (Happening × Effect)} (h : Tracks settings log w)
    (bind : Net.SocketAddress → Except String Net.SocketAddress) :
    (w.step (.event (.start bind))).1 = .outcome (.started
      (if w.view.isRunning then .error .alreadyRunning
        else (bind settings.socketAddress).mapError (.bind settings.socketAddress))) := by
  rw [isRunning_view, ← h.settings]
  cases hstate : w.state with
  | running address loop =>
    simp only [step, react, start_of_running hstate, address?, hstate, Option.isSome_some, if_true]
  | stopped =>
    simp only [step, react, start_of_stopped hstate, address?, hstate, Option.isSome_none,
      Bool.false_eq_true, if_false]
    cases bind w.settings.socketAddress <;> rfl

/-- A service that its log tells about keeps to the life cycle. -/
theorem Tracks.lifeCycle {log : List (Happening × Effect)} (h : Tracks settings log w) :
    LifeCycle settings log w where
  start := h.start
  shutdown := by
    rw [isRunning_view]
    cases hstate : w.state <;>
      simp [step, react, Workings.shutdown, address?, hstate]
  balance := h.balance
  loops := by
    rw [isRunning_view, h.sound.loops]
    cases hstate : w.state <;> simp [address?, hstate, loopsOf]
  lookUp := by
    rw [isRunning_view, step]
    cases haddress : w.address? with
    | none => rfl
    | some address => rw [h.address address haddress, Option.isSome_some, if_pos rfl]
  failed happening hfault := by
    obtain ⟨fault, hfault⟩ := Option.isSome_iff_exists.1 hfault
    exact step_of_fault hfault
  retried bind text hbind again address hagain := by
    have hidle : w.view.isRunning = false := by
      by_contra hrunning
      rw [h.start, if_pos (by simpa using hrunning)] at hbind
      cases hbind
    rw [step_of_fault (by rw [hbind]; rfl), h.start, hidle, if_neg Bool.false_ne_true, hagain]
    rfl

/-- Whatever happened to a service that was configured, it is at some point of its life
cycle, and it looks like its inside. -/
theorem run_lifeCycle {a : Authority} {token : Token} {now : Time.Instant}
    (hs : (Server.configureWith settings a token now).result = .ok (.ok s))
    (happenings : List Happening) :
    s.run (happenings.filterMap event?)
        = (((ofServer s).run happenings).1.filterMap outside?,
          ((ofServer s).run happenings).2.view)
      ∧ LifeCycle settings ((ofServer s).run happenings).1 ((ofServer s).run happenings).2 := by
  obtain ⟨hview, htracks⟩ := view_ofServer hs
  have hrun := view_run htracks.sound happenings
  rw [hview] at hrun
  exact ⟨hrun, (run_tracks htracks happenings).lifeCycle⟩

/-- An address that is taken, a start while it runs, and a shutdown too many. -/
def misused : List Happening :=
  [.event (.start fun _ => .error "taken"), .event (.start .ok), .event (.arrive 1),
    .event (.start .ok), .lookUp, .event .shutdown, .event .shutdown]

/-- What comes of `misused`, and that the service can be started still. -/
theorem run_lifeCycle_misused :
    LifeCycle { maxConnections := 1 } ((ofServer Server.onePlace).run misused).1
        ((ofServer Server.onePlace).run misused).2
      ∧ ((ofServer Server.onePlace).run misused).1.map (·.2)
        = [.outcome (.started (.error (.bind ⟨.v4 [0, 0, 0, 0], 8443⟩ "taken"))),
          .outcome (.started (.ok ⟨.v4 [0, 0, 0, 0], 8443⟩)), .outcome (.arrived .served),
          .outcome (.started (.error .alreadyRunning)), .address (some ⟨.v4 [0, 0, 0, 0], 8443⟩),
          .outcome (.stopped (.ok ())), .outcome (.stopped (.error .notRunning))]
      ∧ ((((ofServer Server.onePlace).run misused).2.step (.event (.start .ok))).1
        = .outcome (.started (.ok ⟨.v4 [0, 0, 0, 0], 8443⟩))) :=
  ⟨(run_lifeCycle Server.configureWith_onePlace misused).2, rfl, rfl⟩

end Enrollment.Service.Workings
