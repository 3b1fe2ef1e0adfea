/-
Bodies: however the bytes of a body are cut into pieces, reading it gives
the bytes when they are within the limit and refuses them when they are
not (`Body.read_carries`).

Reading takes one piece after another, each with `Gathered.add`.  `Body.Reaches` says
what is held and which pieces are still to come at the points it passes; what is held
there is within the limit, also of a body that is refused in the end or never ends
(`Body.Reaches.length_add_left`), and a body is read exactly when reading passes
through all of its pieces (`Body.read_eq_ok_iff`).
-/
import Enrollment.Http
import Enrollment.Proofs.Except

namespace Enrollment.Http

variable {limit : Nat} {b : Body} {g next : Gathered} {piece : Bytes} {pieces : List Bytes}

-- ================================================================ one piece

/-- A piece that may still come is put after what is held. -/
theorem Gathered.add_of_le (h : piece.length ≤ g.left) :
    g.add piece = .ok ⟨g.bytes ++ piece, g.left - piece.length⟩ :=
  if_neg (Nat.not_lt.2 h)

/-- A piece that goes beyond what may still come is refused. -/
theorem Gathered.add_of_lt (h : g.left < piece.length) : g.add piece = .error .tooLarge :=
  if_pos h

/-- What is taken could still come, and is put after what was held. -/
theorem Gathered.add_eq_ok (h : g.add piece = .ok next) :
    piece.length ≤ g.left ∧ next = ⟨g.bytes ++ piece, g.left - piece.length⟩ := by
  rw [add] at h
  split at h
  case isTrue => cases h
  case isFalse hpiece =>
    cases h
    exact ⟨Nat.le_of_not_lt hpiece, rfl⟩

/-- What is held already goes before what is gathered of the rest. -/
theorem gather_eq (g : Gathered) (pieces : List Bytes) (ending : Ending) :
    gather g pieces ending = (collect g.left pieces ending).map (g.bytes ++ ·) := by
  induction pieces generalizing g with
  | nil =>
    cases ending with
    | complete => exact congrArg Except.ok (List.append_nil g.bytes).symm
    | broken => rfl
    | stalled => rfl
  | cons piece pieces ih =>
    rw [collect, gather, gather]
    by_cases hpiece : piece.length ≤ g.left
    · -- both go on with as many bytes allowed, with or without what was held before
      have hfirst : (⟨[], g.left⟩ : Gathered).add piece = .ok ⟨piece, g.left - piece.length⟩ :=
        Gathered.add_of_le hpiece
      rw [Gathered.add_of_le hpiece, hfirst, ok_bind, ok_bind, ih, ih ⟨piece, _⟩]
      cases collect (g.left - piece.length) pieces ending with
      | error fault => rfl
      | ok rest => exact congrArg Except.ok (List.append_assoc g.bytes piece rest)
    · have hfirst : (⟨[], g.left⟩ : Gathered).add piece = .error .tooLarge :=
        Gathered.add_of_lt (Nat.lt_of_not_le hpiece)
      rw [Gathered.add_of_lt (Nat.lt_of_not_le hpiece), hfirst]
      rfl

/-- Pieces that come to an end are all that counts, and only by their total
length. -/
theorem gather_complete (g : Gathered) (pieces : List Bytes) :
    gather g pieces .complete
      = if g.left < pieces.flatten.length then .error .tooLarge
        else .ok (g.bytes ++ pieces.flatten) := by
  induction pieces generalizing g with
  | nil => exact congrArg Except.ok (List.append_nil g.bytes).symm
  | cons piece pieces ih =>
    rw [gather, List.flatten_cons, List.length_append]
    by_cases hpiece : piece.length ≤ g.left
    · rw [Gathered.add_of_le hpiece, ok_bind, ih, List.append_assoc]
      by_cases hrest : g.left - piece.length < pieces.flatten.length
      · rw [if_pos hrest, if_pos (by omega)]
      · rw [if_neg hrest, if_neg (by omega)]
    · rw [Gathered.add_of_lt (Nat.lt_of_not_le hpiece), if_pos (by omega)]
      rfl

-- ============================================================ whole bodies

/-- The body brings these bytes: it comes to its end, and a length that was
declared is theirs. -/
structure Body.Carries (body : Body) (bytes : Bytes) : Prop where
  complete : body.ending = .complete
  pieces : body.pieces.flatten = bytes
  declared : ∀ n ∈ body.declared, n = bytes.length

/-- A body is read as its bytes, within the limit. -/
theorem Body.read_carries {body : Body} {bytes : Bytes} (h : body.Carries bytes) (limit : Nat) :
    body.read limit = if limit < bytes.length then .error .tooLarge else .ok bytes := by
  obtain ⟨declared, pieces, ending⟩ := body
  obtain ⟨rfl, rfl, hdeclared⟩ := h
  rw [Body.read, collect, gather_complete, List.nil_append]
  cases declared with
  | none => rfl
  | some n =>
    rw [hdeclared n rfl]
    by_cases hlimit : limit < pieces.flatten.length
    · rw [if_pos hlimit, if_pos (by simpa using hlimit)]
    · rw [if_neg hlimit, if_neg (by simpa using hlimit)]

/-- A body that is made of bytes brings them. -/
theorem Body.carries_ofBytes (bytes : Bytes) : (Body.ofBytes bytes).Carries bytes where
  complete := rfl
  pieces := List.append_nil bytes
  declared n h := by
    cases h
    rfl

-- ============================================================== on the way

/-- What is held at some point of the reading, and the pieces that are still to come. -/
inductive Body.Reaches (limit : Nat) (b : Body) : Gathered → List Bytes → Prop where
  | start (h : ∀ n ∈ b.declared, n ≤ limit) : Reaches limit b ⟨[], limit⟩ b.pieces
  | take {g next : Gathered} {piece : Bytes} {pieces : List Bytes}
      (h : Reaches limit b g (piece :: pieces)) (hadd : g.add piece = .ok next) :
      Reaches limit b next pieces

/-- What is held and what may still come make up the limit. -/
theorem Body.Reaches.length_add_left (h : b.Reaches limit g pieces) :
    g.bytes.length + g.left = limit := by
  induction h with
  | start => exact Nat.zero_add limit
  | take _ hadd ih =>
    obtain ⟨hpiece, rfl⟩ := Gathered.add_eq_ok hadd
    rw [List.length_append, Nat.add_assoc, Nat.add_sub_cancel' hpiece, ih]

/-- What is held are the pieces that were taken. -/
theorem Body.Reaches.append_flatten (h : b.Reaches limit g pieces) :
    g.bytes ++ pieces.flatten = b.pieces.flatten := by
  induction h with
  | start => rfl
  | take _ hadd ih =>
    obtain ⟨-, rfl⟩ := Gathered.add_eq_ok hadd
    rw [← ih, List.flatten_cons, List.append_assoc]

/-- A body is taken up unless it is declared to be too long. -/
theorem Body.not_any_iff :
    ¬b.declared.any (limit < ·) = true ↔ ∀ n ∈ b.declared, n ≤ limit := by
  simp only [Option.any_eq_true, decide_eq_true_iff, not_exists, not_and, Nat.not_lt,
    Option.mem_def]

/-- Reading comes to the same from each point on. -/
theorem Body.Reaches.read_eq_gather (h : b.Reaches limit g pieces) :
    b.read limit = gather g pieces b.ending := by
  induction h with
  | start hdeclared => rw [read, if_neg (not_any_iff.2 hdeclared), collect]
  | take _ hadd ih => rw [ih, gather, hadd, ok_bind]

/-- From any point on, reading goes on with the pieces that are still to come. -/
theorem Body.Reaches.read_eq (h : b.Reaches limit g pieces) :
    b.read limit = (collect g.left pieces b.ending).map (g.bytes ++ ·) :=
  h.read_eq_gather.trans (gather_eq g pieces b.ending)

/-- What is gathered from some point on is held in the end. -/
theorem Body.Reaches.of_gather (h : b.Reaches limit g pieces) {bytes : Bytes}
    (hall : gather g pieces b.ending = .ok bytes) :
    b.ending = .complete ∧ ∃ left, b.Reaches limit ⟨bytes, left⟩ [] := by
  induction pieces generalizing g with
  | nil =>
    cases hending : b.ending with
    | complete =>
      rw [hending] at hall
      cases hall
      exact ⟨rfl, g.left, h⟩
    | broken =>
      rw [hending] at hall
      cases hall
    | stalled =>
      rw [hending] at hall
      cases hall
  | cons piece pieces ih =>
    obtain ⟨next, hadd, hnext⟩ := bind_eq_ok hall
    exact ih (h.take hadd) hnext

/-- A body is read when reading reaches its end, and this is complete. -/
theorem Body.read_eq_ok_iff {bytes : Bytes} :
    b.read limit = .ok bytes
      ↔ b.ending = .complete ∧ ∃ left, b.Reaches limit ⟨bytes, left⟩ [] := by
  constructor
  · intro h
    rw [read] at h
    split at h
    case isTrue => cases h
    case isFalse hdeclared => exact (Reaches.start (not_any_iff.1 hdeclared)).of_gather h
  · rintro ⟨hcomplete, left, hreach⟩
    rw [hreach.read_eq_gather, hcomplete]
    rfl

-- ============================================================= responses

/-- The statuses that say so are those from 200 to 299. -/
theorem Response.isSuccess_iff {r : Response} :
    r.isSuccess = true ↔ 200 ≤ r.status ∧ r.status ≤ 299 := by
  rw [isSuccess, Bool.and_eq_true, decide_eq_true_iff, decide_eq_true_iff]

end Enrollment.Http
