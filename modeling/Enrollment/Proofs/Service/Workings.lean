/-
The inside of a service and how it looks from outside.

All tasks belong to the one loop of a service that runs (`Sound`).  So a
shutdown, which aborts the tasks of that loop, gives back all permits that are
held, and no task is left that nobody would join.  With that the view commutes
with every event, and what is seen of a run is the run of the service.
-/
import Enrollment.Service.Workings

namespace Enrollment.Service

-- ================================================================== tasks

/-- The connections that tasks serve. -/
def Task.serving (tasks : List Task) : List Nat :=
  (tasks.filter fun t => !t.ended).map (·.connection)

/-- A task counts for its connection until it has ended. -/
theorem Task.serving_cons (t : Task) (tasks : List Task) :
    Task.serving (t :: tasks)
      = (if t.ended then [] else [t.connection]) ++ Task.serving tasks := by
  unfold Task.serving
  cases hended : t.ended with
  | true => simp [hended]
  | false => simp [hended]

/-- When a task ends, its connection is served no longer. -/
theorem Task.serving_endFirst (connection : Nat) (tasks : List Task) :
    Task.serving (Task.endFirst connection tasks) = (Task.serving tasks).erase connection := by
  induction tasks with
  | nil => rfl
  | cons t tasks ih =>
    by_cases hfirst : t.connection = connection ∧ t.ended = false
    · obtain ⟨rfl, hserves⟩ := hfirst
      simp [Task.endFirst, Task.serving_cons, hserves]
    · rw [Task.endFirst, if_neg hfirst, Task.serving_cons, Task.serving_cons, ih]
      cases hended : t.ended with
      | true => simp
      | false =>
        have hother : t.connection ≠ connection := fun h => hfirst ⟨h, hended⟩
        simp [hother]

/-- Tasks that have ended serve nobody, so that they are joined is not seen. -/
theorem Task.serving_join (connection : Nat) (tasks : List Task) :
    Task.serving (tasks.eraseP fun t => t.connection = connection ∧ t.ended = true)
      = Task.serving tasks := by
  induction tasks with
  | nil => rfl
  | cons t tasks ih =>
    by_cases hfirst : t.connection = connection ∧ t.ended = true
    · rw [List.eraseP_cons_of_pos (by simpa using hfirst), Task.serving_cons, hfirst.2]
      rfl
    · rw [List.eraseP_cons_of_neg (by simpa using hfirst), Task.serving_cons, Task.serving_cons,
        ih]

/-- A task that is there when one has ended was there before, in the same loop. -/
theorem Task.mem_endFirst {connection : Nat} {tasks : List Task} {t : Task}
    (h : t ∈ Task.endFirst connection tasks) : ∃ u ∈ tasks, u.loop = t.loop := by
  induction tasks with
  | nil => cases h
  | cons u tasks ih =>
    rw [Task.endFirst] at h
    split at h
    · rcases List.mem_cons.1 h with rfl | h
      · exact ⟨u, List.mem_cons_self, rfl⟩
      · exact ⟨t, List.mem_cons_of_mem _ h, rfl⟩
    · rcases List.mem_cons.1 h with rfl | h
      · exact ⟨t, List.mem_cons_self, rfl⟩
      · obtain ⟨v, hv, hloop⟩ := ih h
        exact ⟨v, List.mem_cons_of_mem _ hv, hloop⟩

namespace Workings

variable {w : Workings}

-- ============================================================== the loop

/-- The loops that a state calls for. -/
def loopsOf : LockedState → List Nat
  | .stopped => []
  | .running _ loop => [loop]

/-- A service that runs has one loop, another one none, and all tasks are the loop's. -/
structure Sound (w : Workings) : Prop where
  loops : w.loops = loopsOf w.state
  tasks : ∀ t ∈ w.tasks, t.loop ∈ w.loops

/-- A service that was just configured is sound. -/
theorem sound_ofServer (s : Server) : Sound (ofServer s) :=
  ⟨rfl, fun _ ht => by cases ht⟩

/-- What needs no loop and spawns none keeps the workings sound, if it makes no task
for another loop. -/
theorem Sound.of_same {w' : Workings} (h : Sound w) (hstate : w'.state = w.state)
    (hloops : w'.loops = w.loops) (htasks : ∀ t ∈ w'.tasks, t.loop ∈ w.loops) : Sound w' :=
  ⟨by rw [hstate, hloops, h.loops], by rwa [hloops]⟩

/-- The end of a connection leaves it sound. -/
theorem sound_finish (h : Sound w) (connection : Nat) : Sound (w.finish connection) := by
  unfold finish
  split
  · refine h.of_same rfl rfl fun t ht => ?_
    obtain ⟨u, hu, hloop⟩ := Task.mem_endFirst ht
    exact hloop ▸ h.tasks u hu
  · exact h

theorem sound_arrive (h : Sound w) (connection : Nat) : Sound (w.arrive connection).2 := by
  unfold arrive
  split
  · exact h
  case h_2 loop rest hloops =>
    split
    · exact h
    · refine h.of_same rfl rfl fun t ht => ?_
      rcases List.mem_cons.1 ht with rfl | ht
      · rw [hloops]
        exact List.mem_cons_self
      · exact h.tasks t ht

theorem sound_start (h : Sound w) (bind : Net.SocketAddress → Except String Net.SocketAddress) :
    Sound (w.start bind).2 := by
  unfold start
  split
  · exact h
  case h_2 hstate =>
    split
    · exact h
    · have hnone : w.loops = [] := by rw [h.loops, hstate]; rfl
      refine ⟨by rw [hnone]; rfl, fun t ht => ?_⟩
      exact List.mem_append_left _ (h.tasks t ht)

/-- All tasks are the one loop's, so none is left when it stops. -/
theorem Sound.tasks_of_running (h : Sound w) {address : Net.SocketAddress} {loop : Nat}
    (hstate : w.state = .running address loop) : ∀ t ∈ w.tasks, t.loop = loop := by
  intro t ht
  have hmem := h.tasks t ht
  rw [h.loops, hstate] at hmem
  exact List.mem_singleton.1 hmem

/-- A shutdown of a service that runs leaves no loop and no task, and all permits that
were held are given back. -/
theorem shutdown_of_running (h : Sound w) {address : Net.SocketAddress} {loop : Nat}
    (hstate : w.state = .running address loop) :
    w.shutdown = (.ok (), { w with
      state := .stopped, loops := [], tasks := [], permits := w.permits + w.served.length }) := by
  have hall := h.tasks_of_running hstate
  have hloops : w.loops = [loop] := by rw [h.loops, hstate]; rfl
  have haborted : w.tasks.filter (fun t => t.loop = loop) = w.tasks :=
    List.filter_eq_self.2 fun t ht => decide_eq_true (hall t ht)
  have hleft : w.tasks.filter (fun t => t.loop ≠ loop) = [] :=
    List.filter_eq_nil_iff.2 fun t ht => by simp [hall t ht]
  simp only [shutdown, hstate, stopLoop, haborted, hleft, hloops, List.erase_cons_head, served,
    List.length_map]

/-- A service that is stopped is not shut down again, and nothing changes. -/
theorem shutdown_of_stopped (hstate : w.state = .stopped) :
    w.shutdown = (.error .notRunning, w) := by
  cases w
  cases hstate
  rfl

/-- A shutdown leaves it sound, since no task is left. -/
theorem sound_shutdown (h : Sound w) : Sound w.shutdown.2 := by
  cases hstate : w.state with
  | stopped =>
    rw [shutdown_of_stopped hstate]
    exact h
  | running address loop =>
    rw [shutdown_of_running h hstate]
    exact ⟨rfl, fun t ht => by cases ht⟩

theorem sound_respond (h : Sound w) (c : Call) : Sound (w.respond c).2 := by
  unfold respond
  split
  · exact h.of_same rfl rfl h.tasks
  · exact sound_finish (w := { w with limiter := (checkRate w.limiter c.now).2 })
      ⟨h.loops, h.tasks⟩ c.connection

theorem sound_react (h : Sound w) (event : Event) : Sound (w.react event).2 := by
  cases event with
  | start bind => exact sound_start h bind
  | shutdown => exact sound_shutdown h
  | arrive connection => exact sound_arrive h connection
  | finish connection how => exact sound_finish h connection
  | call c =>
    show Sound (if c.connection ∈ w.served then _ else _ : Outcome × Workings).2
    split
    · exact sound_respond h c
    · exact h

/-- Whatever happens leaves it sound. -/
theorem sound_step (h : Sound w) (happening : Happening) : Sound (w.step happening).2 := by
  cases happening with
  | event event => exact sound_react h event
  | lookUp => exact h
  | join connection =>
    exact h.of_same rfl rfl fun t ht => h.tasks t (List.mem_of_mem_eraseP ht)

-- ============================================================ from outside

theorem isRunning_view (w : Workings) : w.view.isRunning = w.address?.isSome := rfl

/-- From outside, starting is what it is for the service that is seen. -/
theorem view_start (w : Workings) (bind : Net.SocketAddress → Except String Net.SocketAddress) :
    w.view.start bind = ((w.start bind).1, (w.start bind).2.view) := by
  cases hstate : w.state with
  | running address loop =>
    have hrunning : w.view.isRunning = true := by simp [isRunning_view, address?, hstate]
    simp only [Server.start, hrunning, if_true, start, hstate]
  | stopped =>
    have hidle : w.view.isRunning = false := by simp [isRunning_view, address?, hstate]
    have hsettings : w.view.settings = w.settings := rfl
    simp only [Server.start, hidle, Bool.false_eq_true, if_false, hsettings, start, hstate]
    cases bind w.settings.socketAddress <;> rfl

/-- So is shutting down, where the workings are sound. -/
theorem view_shutdown (h : Sound w) :
    w.view.shutdown = (w.shutdown.1, w.shutdown.2.view) := by
  cases hstate : w.state with
  | running address loop =>
    have hrunning : w.view.isRunning = true := by simp [isRunning_view, address?, hstate]
    rw [shutdown_of_running h hstate]
    simp only [Server.shutdown, hrunning, if_true]
    rfl
  | stopped =>
    have hidle : w.view.isRunning = false := by simp [isRunning_view, address?, hstate]
    rw [shutdown_of_stopped hstate]
    simp only [Server.shutdown, hidle, Bool.false_eq_true, if_false]

theorem view_arrive (h : Sound w) (connection : Nat) :
    w.view.arrive connection = ((w.arrive connection).1, (w.arrive connection).2.view) := by
  cases hstate : w.state with
  | stopped =>
    have hloops : w.loops = [] := by rw [h.loops, hstate]; rfl
    have hidle : w.view.isRunning = false := by simp [isRunning_view, address?, hstate]
    simp only [Server.arrive, hidle, Bool.not_false, if_true, arrive, hloops]
  | running address loop =>
    have hloops : w.loops = [loop] := by rw [h.loops, hstate]; rfl
    have hrunning : w.view.isRunning = true := by simp [isRunning_view, address?, hstate]
    simp only [Server.arrive, hrunning, Bool.not_true, Bool.false_eq_true, if_false, arrive, hloops]
    show (if w.permits = 0 then _ else _) = _
    split <;> rfl

theorem view_finish (w : Workings) (connection : Nat) (how : Server.Ending) :
    (w.view.finish connection how).2 = (w.finish connection).view := by
  by_cases hserved : connection ∈ w.served
  · have hview : connection ∈ w.view.served := hserved
    simp only [Server.finish, hview, if_true, finish, hserved]
    have hleft := Task.serving_endFirst connection w.tasks
    simp only [view, served, address?, Server.mk.injEq, true_and]
    exact hleft.symm
  · have hview : connection ∉ w.view.served := hserved
    simp only [Server.finish, hview, if_false, finish, hserved]

theorem view_respond (w : Workings) (c : Call) :
    w.view.respond c = ((w.respond c).1, (w.respond c).2.view) := by
  have htoken : w.view.token = w.token := rfl
  have hlimiter : w.view.limiter = w.limiter := rfl
  simp only [Server.respond, Server.request, respond, htoken, hlimiter]
  cases route w.token c.signs w.limiter c.now c.request with
  | ok found => rfl
  | error crash =>
    -- the limiter has counted the request by then
    have hcounted := view_finish { w with limiter := (checkRate w.limiter c.now).2 } c.connection
      (.crashed crash)
    exact Prod.ext rfl hcounted

/-- An event does to a service what it does to its inside. -/
theorem view_react (h : Sound w) (event : Event) :
    w.view.step event = ((w.react event).1, (w.react event).2.view) := by
  cases event with
  | start bind => simp only [Server.step, view_start, react]
  | shutdown => simp only [Server.step, view_shutdown h, react]
  | arrive connection => simp only [Server.step, view_arrive h, react]
  | finish connection how => simp only [Server.step, view_finish, react]
  | call c =>
    by_cases hserved : c.connection ∈ w.served
    · have hview : c.connection ∈ w.view.served := hserved
      simp only [Server.step, hview, if_true, view_respond, react, hserved]
    · have hview : c.connection ∉ w.view.served := hserved
      simp only [Server.step, hview, if_false, react, hserved]

/-- Awaiting a task that has ended is not seen from outside. -/
theorem view_join (w : Workings) (connection : Nat) : (w.join connection).view = w.view := by
  have hleft := Task.serving_join connection w.tasks
  simp only [view, join, served, address?, Server.mk.injEq, true_and]
  exact hleft

/-- The event that is seen from outside, if there is one. -/
def event? : Happening → Option Event
  | .event event => some event
  | .lookUp | .join _ => none

/-- What is seen of a run is the run of the service. -/
theorem view_run (h : Sound w) (happenings : List Happening) :
    w.view.run (happenings.filterMap event?)
      = ((w.run happenings).1.filterMap outside?, (w.run happenings).2.view) := by
  induction happenings generalizing w with
  | nil => rfl
  | cons happening rest ih =>
    have hrest := ih (sound_step h happening)
    cases happening with
    | event event =>
      simp only [List.filterMap_cons, event?, Server.run, view_react h]
      rw [show (w.react event).2 = (w.step (.event event)).2 from rfl, hrest]
      simp only [run, List.filterMap_cons, outside?, step]
    | lookUp =>
      simp only [List.filterMap_cons, event?, run, outside?, step] at hrest ⊢
      exact hrest
    | join connection =>
      simp only [List.filterMap_cons, event?, run, outside?, step, view_join] at hrest ⊢
      exact hrest

end Workings

end Enrollment.Service
