/-
Jobs: what running one does to a machine.

A job that runs one job after another hands the machine on, also when it fails
then; so what was done before a failure is told by the machine at that point
(`runOn_bind`).  Each operation says what it makes of the machine, and those
that write leave all places but one as they are.
-/
import Enrollment.Command.Job
import Enrollment.Proofs.FileTree

namespace Enrollment.Command.Job

variable {α β ε : Type}

-- ================================================================ running

/-- A job that goes on with another one runs it on the machine that the first has left. -/
theorem runOn_bind (x : Job α) (f : α → Job β) (m : Machine) :
    (x >>= f).runOn m = match x.runOn m with
      | (.ok a, m) => (f a).runOn m
      | (.error stop, m) => (.error stop, m) := by
  unfold runOn
  rw [ExceptT.run_bind, StateT.run_bind]
  cases (ExceptT.run x).run m with
  | mk result m => cases result <;> rfl

/-- What has succeeded is gone on with. -/
theorem runOn_bind_of_ok {x : Job α} {f : α → Job β} {a : α} {m' : Machine}
    (h : x.runOn m = (.ok a, m')) : (x >>= f).runOn m = (f a).runOn m' := by
  rw [runOn_bind, h]

/-- What has failed is not gone on with, and what was done stays done. -/
theorem runOn_bind_of_error {x : Job α} {f : α → Job β} {stop : Stop} {m' : Machine}
    (h : x.runOn m = (.error stop, m')) : (x >>= f).runOn m = (.error stop, m') := by
  rw [runOn_bind, h]

theorem runOn_get (m : Machine) : (get : Job Machine).runOn m = (.ok m, m) := rfl

theorem runOn_note (notices : List Notice) (m : Machine) :
    (note notices).runOn m = (.ok (), { m with log := m.log ++ notices }) := rfl

theorem runOn_expect_ok (task : Task) (cause : ε → Cause) (a : α) (m : Machine) :
    (expect task cause (.ok a)).runOn m = (.ok a, m) := rfl

/-- A bad result fails the task, and the machine stays as it is. -/
theorem runOn_expect_error (task : Task) (cause : ε → Cause) (e : ε) (m : Machine) :
    (expect task cause (.error e) : Job α).runOn m = (.error (.failed task (cause e)), m) := rfl

theorem runOn_expectOrCrash_ok (task : Task) (a : α) (m : Machine) :
    (expectOrCrash task (.ok a)).runOn m = (.ok a, m) := rfl

/-- A breakdown, or a bad result, ends the job and leaves the machine as it is. -/
theorem runOn_expectOrCrash_error (task : Task) (halt : Halt) (m : Machine) :
    ∃ stop, (expectOrCrash task (.error halt) : Job α).runOn m = (.error stop, m) := by
  cases halt with
  | failed failure => exact ⟨_, rfl⟩
  | crashed crash => exact ⟨_, rfl⟩

-- ================================================================== files

/-- Changing the files gives new ones, or fails and leaves them. -/
theorem runOn_change (task : Task) (f : FileTree → Except FileFault FileTree) (m : Machine) :
    (change task f).runOn m = match f m.files with
      | .ok files => (.ok (), { m with files })
      | .error fault => (.error (.failed task (.file fault)), m) := by
  unfold change
  rw [runOn_bind_of_ok (runOn_get m)]
  cases f m.files with
  | ok files =>
    rw [runOn_bind_of_ok (runOn_expect_ok task .file files m)]
    rfl
  | error fault => rw [runOn_bind_of_error (runOn_expect_error task .file fault m)]

/-- Making directories makes nothing else, and when it is done the path leads to one. -/
theorem runOn_createDirectories (path : String) (m : Machine) :
    ∃ files, files = (m.files.createDirectories path).2 ∧ m.files.Extends [] files
      ∧ ((∃ stop, (createDirectories path).runOn m = (.error stop, { m with files })
          ∧ (m.files.createDirectories path).1 ≠ .ok ())
        ∨ ∃ place, (createDirectories path).runOn m = (.ok (), { m with files })
          ∧ files.locate path = .ok place ∧ files.node? place = some .directory) := by
  have hmade := FileTree.createFrom_extends m.files [] (Path.names path)
  have hrun : (createDirectories path).runOn m
      = (expect (.createDirectory path) .file (m.files.createDirectories path).1).runOn
        { m with files := (m.files.createDirectories path).2 } := by
    unfold createDirectories
    rw [runOn_bind]
    rfl
  refine ⟨_, rfl, hmade, ?_⟩
  rw [hrun]
  cases hcreate : m.files.createDirectories path with
  | mk result files =>
    cases result with
    | error fault => exact .inl ⟨_, rfl, nofun⟩
    | ok => exact .inr ((FileTree.locate_of_createDirectories hcreate).imp fun _ h => ⟨rfl, h⟩)

/-- Writing leaves all places but one as they are.  It fails only if the path leads
nowhere or to a directory, and then leaves them all. -/
theorem runOn_write (path text : String) (m : Machine) :
    (∃ stop, (write path text).runOn m = (.error stop, m)
        ∧ ∀ place, m.files.locate path = .ok place → m.files.node? place = some .directory)
      ∨ ∃ place mode files, m.files.locate path = .ok place
        ∧ m.files.Writes files place (Utf8.encode text) mode
        ∧ (write path text).runOn m = (.ok (), { m with files }) := by
  cases hwrite : m.files.write path (Utf8.encode text) with
  | error fault =>
    left
    exact ⟨_, by rw [write, runOn_change, hwrite], fun _ => FileTree.directory_of_write hwrite⟩
  | ok files =>
    right
    obtain ⟨place, mode, hlocate, hwrites⟩ := FileTree.write_eq_ok hwrite
    exact ⟨place, mode, files, hlocate, hwrites, by rw [write, runOn_change, hwrite]⟩

/-- A file that was written can be set apart for its owner. -/
theorem runOn_writePrivate (path text : String) (m : Machine) :
    (∃ stop, (writePrivate path text).runOn m = (.error stop, m)
        ∧ ∀ place, m.files.locate path = .ok place → m.files.node? place = some .directory)
      ∨ ∃ place files, m.files.locate path = .ok place
        ∧ m.files.Writes files place (Utf8.encode text) FileTree.privateMode
        ∧ (writePrivate path text).runOn m = (.ok (), { m with files }) := by
  rcases runOn_write path text m with
    ⟨stop, hwrite, hfault⟩ | ⟨place, mode, files, hlocate, hwrites, hwrite⟩
  · left
    exact ⟨stop, by rw [writePrivate, runOn_bind_of_error hwrite], hfault⟩
  · right
    obtain ⟨kept, hset, hkept⟩ := hwrites.setMode hlocate FileTree.privateMode
    exact ⟨place, kept, hlocate, hkept, by
      rw [writePrivate, runOn_bind_of_ok hwrite, runOn_change, hset]⟩

end Enrollment.Command.Job
