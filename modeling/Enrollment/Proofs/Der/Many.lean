/-
Elements in a row: what was written one by one is read as the list it was.

A reader of many goes on for as long as there is something it can read.  So
all that is asked of the single reader is that it reads each item back in
front of anything, and that it reads nothing from no bytes; it follows that
every item takes a byte, which is what keeps the reader going.
-/
import Enrollment.Proofs.Der.Reader

namespace Enrollment.Der

variable {α : Type} {item : Reader α} {encode : α → Bytes} {as : List α}

/-- Items that are written one after another are read one after another. -/
theorem readMany_written (hnil : item [] = none)
    (h : ∀ a ∈ as, ∀ rest, item (encode a ++ rest) = some (a, rest)) :
    readMany item (as.map encode).flatten = (as, []) := by
  induction as with
  | nil => rw [List.map_nil, List.flatten_nil, readMany, hnil]
  | cons a as ih =>
    have ha := h a List.mem_cons_self
    have hrest := ih fun b hb => h b (List.mem_cons_of_mem _ hb)
    -- an item that takes no bytes would be read from none
    have hpos : 0 < (encode a).length := by
      refine List.length_pos_iff.2 fun hempty => ?_
      have hread := ha []
      rw [hempty, List.append_nil, hnil] at hread
      cases hread
    rw [List.map_cons, List.flatten_cons, readMany, ha]
    simp only [List.length_append]
    rw [if_pos (by omega), hrest]

/-- They are all that is read. -/
theorem readAll_written (hnil : item [] = none)
    (h : ∀ a ∈ as, ∀ rest, item (encode a ++ rest) = some (a, rest)) :
    readAll item (as.map encode).flatten = some as := by
  rw [readAll, readMany_written hnil h]

/-- Everything that was read was read as one item from some bytes. -/
theorem exists_of_mem_readMany {bs : Bytes} {a : α} (h : a ∈ (readMany item bs).1) :
    ∃ bs rest, item bs = some (a, rest) := by
  fun_induction readMany item bs with
  | case1 => cases h
  | case2 bs b rest hitem hlt as left hrest ih =>
    rcases List.mem_cons.1 h with rfl | hmem
    · exact ⟨bs, rest, hitem⟩
    · exact ih (by rw [hrest]; exact hmem)
  | case3 => cases h

/-- There is no element in no bytes. -/
theorem ReadsOne.nil {read : Reader α} (h : ReadsOne read) : read [] = none := by
  obtain ⟨f, hf⟩ := h
  rw [hf]
  rfl

theorem readObjectId_readsOne : ReadsOne readObjectId :=
  readElement_readsOne.judged (j := fun e => if e.tag.constructed then none else some ⟨e.contents⟩)
    fun bs => by
      unfold readObjectId
      cases readElement bs with
      | none => rfl
      | some found =>
        simp only [Option.bind_eq_bind, Option.bind_some]
        split <;> rfl

-- ================================================== sequences of one kind

/-- What one reader makes of all the elements of a sequence. -/
def readItems (item : Reader α) : Reader (List α) := fun bs => do
  let (e, rest) ← readNumbered TagNumber.sequence bs
  return (← readAll item e.contents, rest)

/-- The items of a sequence are read back. -/
theorem readItems_sequence (hitem : ReadsOne item)
    (hlen : (sequence (as.map encode)).length < 2 ^ 64)
    (h : ∀ a ∈ as, (encode a).length < 2 ^ 64 →
      ∀ rest, item (encode a ++ rest) = some (a, rest)) (rest : Bytes) :
    readItems item (sequence (as.map encode) ++ rest) = some (as, rest) := by
  have heach : ∀ a ∈ as, ∀ after, item (encode a ++ after) = some (a, after) := by
    intro a ha
    exact h a ha (Nat.lt_trans (length_lt_sequence (List.mem_map_of_mem ha)) hlen)
  have hread := readNumbered_sequence (Nat.lt_trans (length_lt_write _ _) hlen) rest
  unfold readItems
  rw [hread]
  simp only [Option.bind_eq_bind, Option.bind_some, readAll_written hitem.nil heach]
  rfl

end Enrollment.Der
