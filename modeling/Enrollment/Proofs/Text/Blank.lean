/-
White space: what trimming leaves of a text that has white space put around it.
-/
import Enrollment.Text.Blank

namespace Enrollment.Text

/-- Nothing but white space. -/
def IsBlank (cs : List Char) : Prop :=
  ∀ c ∈ cs, isBlank c = true

instance (cs : List Char) : Decidable (IsBlank cs) :=
  decidable_of_iff (cs.all isBlank = true) List.all_eq_true

/-- No white space at either end. -/
structure IsTrimmed (cs : List Char) : Prop where
  head : ∀ c ∈ cs.head?, isBlank c = false
  last : ∀ c ∈ cs.getLast?, isBlank c = false

variable {front cs back : List Char}

/-- A text whose first and last characters are no white space is trimmed. -/
theorem IsTrimmed.of_ends {first last : Char} (hfirst : cs.head? = some first)
    (hlast : cs.getLast? = some last) (h : isBlank first = false) (h' : isBlank last = false) :
    IsTrimmed cs where
  head c hc := by
    rw [hfirst] at hc
    exact Option.some.inj hc ▸ h
  last c hc := by
    rw [hlast] at hc
    exact Option.some.inj hc ▸ h'

/-- Where a text begins without white space, there is none to drop. -/
theorem dropWhile_of_head (h : ∀ c ∈ cs.head?, isBlank c = false) (back : List Char)
    (hne : cs ≠ []) : (cs ++ back).dropWhile isBlank = cs ++ back := by
  cases cs with
  | nil => exact absurd rfl hne
  | cons c cs =>
    have hfirst : isBlank c = false := h c rfl
    rw [List.cons_append, List.dropWhile_cons_of_neg (by rw [hfirst]; decide)]

theorem trim_blank (h : IsBlank cs) : trim cs = [] := by
  have hleft : cs.dropWhile isBlank = [] := by
    rw [← List.append_nil cs, List.dropWhile_append_of_pos h, List.dropWhile_nil]
  rw [trim, trimLeft, hleft]
  rfl

/-- A text is what is left when white space around it is trimmed away. -/
theorem trim_padded (hfront : IsBlank front) (hback : IsBlank back) (h : IsTrimmed cs)
    (hne : cs ≠ []) : trim (front ++ (cs ++ back)) = cs := by
  have hleft : trimLeft (front ++ (cs ++ back)) = cs ++ back := by
    rw [trimLeft, List.dropWhile_append_of_pos hfront]
    exact dropWhile_of_head h.head back hne
  have hlast : ∀ c ∈ cs.reverse.head?, isBlank c = false := by
    rw [List.head?_reverse]
    exact h.last
  have hback' : ∀ c ∈ back.reverse, isBlank c = true :=
    fun c hc => hback c (List.mem_reverse.1 hc)
  have hright := dropWhile_of_head hlast [] (mt List.reverse_eq_nil_iff.1 hne)
  rw [List.append_nil] at hright
  rw [trim, hleft, trimRight, List.reverse_append, List.dropWhile_append_of_pos hback', hright,
    List.reverse_reverse]

/-- White space is all that trimming takes away, and none is left at the ends. -/
theorem exists_padding (cs : List Char) :
    ∃ front back, IsBlank front ∧ IsBlank back ∧ IsTrimmed (trim cs)
      ∧ cs = front ++ (trim cs ++ back) := by
  have hleft : cs.takeWhile isBlank ++ trimLeft cs = cs := List.takeWhile_append_dropWhile
  have hright (ds : List Char) : trimRight ds ++ (ds.reverse.takeWhile isBlank).reverse = ds := by
    rw [trimRight, ← List.reverse_append, List.takeWhile_append_dropWhile, List.reverse_reverse]
  have hblank (ds : List Char) : IsBlank (ds.takeWhile isBlank) :=
    List.all_eq_true.1 List.all_takeWhile
  have hstart (ds : List Char) : ∀ c ∈ (ds.dropWhile isBlank).head?, isBlank c = false := by
    intro c hc
    have hnot := List.head?_dropWhile_not isBlank ds
    rw [Option.mem_def.1 hc] at hnot
    exact hnot
  refine ⟨cs.takeWhile isBlank, ((trimLeft cs).reverse.takeWhile isBlank).reverse, hblank _,
    fun c hc => hblank _ c (List.mem_reverse.1 hc), ⟨fun c hc => ?_, ?_⟩, ?_⟩
  · -- what begins the trimmed text begins the text without the white space at its left
    refine hstart cs c ?_
    have htrim : (trimRight (trimLeft cs)).head? = some c := hc
    show c ∈ (trimLeft cs).head?
    rw [← hright (trimLeft cs), List.head?_append, htrim]
    rfl
  · rw [trim, trimRight, List.getLast?_reverse]
    exact hstart _
  · rw [trim, hright, hleft]

end Enrollment.Text
