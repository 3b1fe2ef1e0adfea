/-
Peeling results apart: what a computation that may fail has done when it
gave a result.
-/
import Enrollment.Failure
import Mathlib.Data.List.Forall2

namespace Enrollment

variable {α β ε φ : Type}

theorem ok_bind (a : α) (f : α → Except ε β) : (.ok a >>= f) = f a := rfl

/-- A result of two steps is one of the first and then one of the second. -/
theorem bind_eq_ok {x : Except ε α} {f : α → Except ε β} {b : β} (h : x >>= f = .ok b) :
    ∃ a, x = .ok a ∧ f a = .ok b := by
  cases x with
  | error e => cases h
  | ok a => exact ⟨a, rfl, h⟩

/-- A failure of two steps is one of the first or one of the second. -/
theorem bind_eq_error {x : Except ε α} {f : α → Except ε β} {e : ε} (h : x >>= f = .error e) :
    x = .error e ∨ ∃ a, x = .ok a ∧ f a = .error e := by
  cases x with
  | error cause =>
    cases h
    exact .inl rfl
  | ok a => exact .inr ⟨a, rfl, h⟩

/-- What does not fail has a result. -/
theorem exists_eq_ok {x : Except ε α} (h : x.isOk = true) : ∃ a, x = .ok a := by
  cases x with
  | error e => cases h
  | ok a => exact ⟨a, rfl⟩

/-- A result that was mapped. -/
theorem map_eq_ok {x : Except ε α} {f : α → β} {b : β} (h : x.map f = .ok b) :
    ∃ a, x = .ok a ∧ f a = b := by
  cases x with
  | error e => cases h
  | ok a =>
    cases h
    exact ⟨a, rfl, rfl⟩

/-- A step that was taken for every member gave its result for each of them. -/
theorem forall₂_of_mapM {as : List α} {f : α → Except ε β} {bs : List β}
    (h : as.mapM f = .ok bs) : List.Forall₂ (fun a b => f a = .ok b) as bs := by
  induction as generalizing bs with
  | nil =>
    cases h
    exact .nil
  | cons a as ih =>
    rw [List.mapM_cons] at h
    obtain ⟨first, hfirst, h⟩ := bind_eq_ok h
    obtain ⟨rest, hrest, h⟩ := bind_eq_ok h
    cases h
    exact .cons hfirst (ih hrest)

/-- A list of results is made exactly when each of them is. -/
theorem mapM_eq_ok_iff {as : List α} {f : α → Except ε β} {bs : List β} :
    as.mapM f = .ok bs ↔ List.Forall₂ (fun a b => f a = .ok b) as bs := by
  refine ⟨forall₂_of_mapM, fun h => ?_⟩
  induction h with
  | nil => rfl
  | cons hfirst _ ih =>
    rw [List.mapM_cons, hfirst, ih]
    rfl

/-- Each of the results comes from some element. -/
theorem exists_of_mem_mapM {as : List α} {f : α → Except ε β} {bs : List β}
    (h : as.mapM f = .ok bs) {b : β} (hb : b ∈ bs) : ∃ a ∈ as, f a = .ok b := by
  have hall := forall₂_of_mapM h
  clear h
  induction hall with
  | nil => cases hb
  | cons hfirst _ ih =>
    cases hb with
    | head => exact ⟨_, List.mem_cons_self, hfirst⟩
    | tail _ hb =>
      obtain ⟨a, ha, hfound⟩ := ih hb
      exact ⟨a, List.mem_cons_of_mem _ ha, hfound⟩

/-- A step that has a result for every member has one for them all. -/
theorem mapM_map_eq_pure {γ : Type} {m : Type → Type} [Monad m] [LawfulMonad m] {as : List α}
    {g : α → β} {f : β → m γ} {r : α → γ} (h : ∀ a ∈ as, f (g a) = pure (r a)) :
    (as.map g).mapM f = pure (as.map r) := by
  induction as with
  | nil => rfl
  | cons a as ih =>
    have hrest := ih fun b hb => h b (List.mem_cons_of_mem _ hb)
    rw [List.map_cons, List.mapM_cons, h a List.mem_cons_self, hrest]
    simp only [pure_bind, List.map_cons]

/-- There are results for all members if there is one for each. -/
theorem isSome_mapM_iff {as : List α} {f : α → Option β} :
    (as.mapM f).isSome ↔ ∀ a ∈ as, (f a).isSome := by
  induction as with
  | nil => simp
  | cons a as ih =>
    rw [List.mapM_cons, List.forall_mem_cons, ← ih]
    cases f a with
    | none => simp
    | some b => cases as.mapM f <;> simp

/-- Renaming failures leaves results alone. -/
theorem mapError_eq_ok {x : Except ε α} {f : ε → φ} {a : α} (h : x.mapError f = .ok a) :
    x = .ok a := by
  cases x with
  | error e => cases h
  | ok b =>
    cases h
    rfl

/-- A failure that was renamed. -/
theorem mapError_eq_error {x : Except ε α} {f : ε → φ} {e : φ} (h : x.mapError f = .error e) :
    ∃ cause, x = .error cause ∧ f cause = e := by
  cases x with
  | error cause =>
    cases h
    exact ⟨cause, rfl, rfl⟩
  | ok b => cases h

theorem Halt.lift_eq_ok {x : Except Failure α} {a : α} (h : Halt.lift x = .ok a) : x = .ok a :=
  mapError_eq_ok h

end Enrollment
