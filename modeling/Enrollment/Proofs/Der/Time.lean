/-
Points in time: what is written is read back.

A second up to the end of the year 9999 is written in digits that the reader
takes, in either form (`read_write`).  There is no digit for a sign, so a year
before the first one is written as the year zero; that is a leap year, so no day
gets lost.  From 1970 on nothing gets lost at all: a second is read back as itself,
in the form that its year needs (`readBack_eq`), and so it stands where it should
among other points in time (`follows_ofSeconds`, `precedes_ofSeconds`).
-/
import Enrollment.Der.Time
import Enrollment.Proofs.Der.Element
import Enrollment.Proofs.Time.Calendar

namespace Enrollment.Der.ZonedTime

open Time

-- ================================================================ digits

theorem digit?_byte {n : Nat} (h : n < 10) : digit? (UInt8.ofNat (48 + n)) = some n := by
  have hbyte : (UInt8.ofNat (48 + n)).toNat = 48 + n := Bytes.toNat_byte (by omega)
  have hdigit : 48 ≤ UInt8.ofNat (48 + n) ∧ UInt8.ofNat (48 + n) ≤ 57 := by
    rw [UInt8.le_iff_toNat_le, UInt8.le_iff_toNat_le, hbyte]
    exact ⟨Nat.le_add_right 48 n, by show 48 + n ≤ 57; omega⟩
  rw [digit?, if_pos hdigit, hbyte, Nat.add_sub_cancel_left]

theorem readPair_pair {n : Nat} (h : n < 100) (rest : Bytes) :
    readPair (pair n ++ rest) = some (n, rest) := by
  have hten : n / 10 % 10 = n / 10 := by omega
  have hfirst := digit?_byte (n := n / 10) (by omega)
  have hsecond := digit?_byte (n := n % 10) (by omega)
  unfold readPair pair
  simp only [List.cons_append, List.nil_append, hten, hfirst, hsecond, Option.bind_eq_bind,
    Option.bind_some, Nat.div_add_mod]
  rfl

theorem isVisible_append (a b : Bytes) : isVisible (a ++ b) = (isVisible a && isVisible b) :=
  List.all_append

theorem isVisible_pair (n : Nat) : isVisible (pair n) = true := by
  have hbyte : ∀ d < 10, (0x20 ≤ UInt8.ofNat (48 + d) && UInt8.ofNat (48 + d) ≤ 0x7F) = true := by
    decide
  unfold isVisible pair
  rw [List.all_cons, List.all_cons, List.all_nil, hbyte _ (by omega), hbyte _ (by omega)]
  rfl

-- ================================================================= times

/-- The day and the time that are written for a second. -/
def written (seconds : Int) : Civil :=
  let c := Civil.ofSeconds seconds
  { c with date := { c.date with year := c.date.year.toNat } }

/-- What is written for a second is a time that there is. -/
theorem isValid_written (seconds : Int) : (written seconds).isValid = true := by
  have hvalid := Civil.isValid_ofSeconds seconds
  unfold Civil.isValid at hvalid ⊢
  simp only [Bool.and_eq_true] at hvalid ⊢
  obtain ⟨⟨⟨hdate, hhour⟩, hminute⟩, hsecond⟩ := hvalid
  refine ⟨⟨⟨?_, hhour⟩, hminute⟩, hsecond⟩
  by_cases hyear : 0 ≤ (Civil.ofSeconds seconds).date.year
  · unfold written
    dsimp only
    rw [Int.toNat_of_nonneg hyear]
    exact hdate
  · -- a year before the year zero is written as that year
    have hzero : (Civil.ofSeconds seconds).date.year.toNat = 0 := by omega
    unfold written
    dsimp only
    rw [hzero]
    exact Date.isValid_of_leap (by decide) hdate

variable {seconds : Int}

/-- The digits of what is written are those of numbers below a hundred. -/
theorem written_lt (seconds : Int) :
    (written seconds).date.month < 100 ∧ (written seconds).date.day < 100
      ∧ (written seconds).hour < 100 ∧ (written seconds).minute < 100
      ∧ (written seconds).second < 100 := by
  have hvalid := isValid_written seconds
  unfold Civil.isValid Date.isValid at hvalid
  simp only [Bool.and_eq_true, decide_eq_true_eq] at hvalid
  have hdays : daysInMonth (written seconds).date.year (written seconds).date.month ≤ 31 := by
    unfold daysInMonth
    split
    · split <;> decide
    all_goals decide
  omega

/-- From the month to the minute, a time is read back as it was written. -/
theorem readFields_writeTail (seconds : Int) :
    readFields (writeTail (written seconds))
      = some (⟨(written seconds).date.month, (written seconds).date.day, (written seconds).hour,
          (written seconds).minute⟩, pair (written seconds).second ++ [0x5A]) := by
  obtain ⟨hmonth, hday, hhour, hminute, -⟩ := written_lt seconds
  unfold readFields writeTail
  simp only [List.append_assoc, readPair_pair hmonth, readPair_pair hday, readPair_pair hhour,
    readPair_pair hminute, Option.bind_eq_bind, Option.bind_some]
  rfl

theorem isVisible_writeTail (c : Civil) : isVisible (writeTail c) = true := by
  unfold writeTail
  simp only [isVisible_append, isVisible_pair, Bool.true_and]
  decide

/-- The time that a second is read as. -/
def readBack (seconds : Int) (isLong : Bool) : ZonedTime :=
  ⟨(written seconds).toSeconds, 0, 0, isLong⟩

/-- The fields of a second make up the time that it is read as. -/
theorem ofFields?_written (seconds : Int) (isLong : Bool) :
    ofFields? (Civil.ofSeconds seconds).date.year.toNat ⟨(written seconds).date.month,
      (written seconds).date.day, (written seconds).hour, (written seconds).minute⟩
      (written seconds).second 0 0 isLong = some (readBack seconds isLong) := by
  have hoffset : (written seconds).toSeconds - 0 * 60 = (written seconds).toSeconds := by omega
  unfold ofFields? readBack
  rw [← hoffset]
  exact if_pos (by rw [Bool.and_eq_true]; exact ⟨isValid_written seconds, by decide⟩)

/-- The form with two digits for the year is read back where the year is one it can stand
for. -/
theorem ofShort?_written (h0 : 1950 ≤ (Civil.ofSeconds seconds).date.year)
    (h1 : (Civil.ofSeconds seconds).date.year < longYear) :
    ofShort? (pair ((Civil.ofSeconds seconds).date.year.toNat % 100)
      ++ writeTail (written seconds)) = some (readBack seconds false) := by
  have hlow : (Civil.ofSeconds seconds).date.year.toNat % 100 < 100 := Nat.mod_lt _ (by decide)
  have hsecond := (written_lt seconds).2.2.2.2
  have hyear : (if 50 ≤ (Civil.ofSeconds seconds).date.year.toNat % 100
        then 1900 + (Civil.ofSeconds seconds).date.year.toNat % 100
        else 2000 + (Civil.ofSeconds seconds).date.year.toNat % 100)
      = (Civil.ofSeconds seconds).date.year.toNat := by
    unfold longYear at h1
    split <;> omega
  unfold ofShort?
  simp only [readPair_pair hlow, readFields_writeTail, readPair_pair hsecond, Option.bind_eq_bind,
    Option.bind_some, hyear]
  exact ofFields?_written seconds false

/-- The form with four digits is read back up to the year 9999. -/
theorem ofLong?_written (h : (Civil.ofSeconds seconds).date.year ≤ 9999) :
    ofLong? (pair ((Civil.ofSeconds seconds).date.year.toNat / 100)
      ++ pair ((Civil.ofSeconds seconds).date.year.toNat % 100)
      ++ writeTail (written seconds)) = some (readBack seconds true) := by
  have hhigh : (Civil.ofSeconds seconds).date.year.toNat / 100 < 100 := by omega
  have hlow : (Civil.ofSeconds seconds).date.year.toNat % 100 < 100 := Nat.mod_lt _ (by decide)
  have hyear : (Civil.ofSeconds seconds).date.year.toNat / 100 * 100
      + (Civil.ofSeconds seconds).date.year.toNat % 100
      = (Civil.ofSeconds seconds).date.year.toNat := by omega
  have hsecond := readPair_pair (written_lt seconds).2.2.2.2 [0x5A]
  have hfraction : readFraction [0x5A] = some (0, [0x5A]) := by decide
  unfold ofLong?
  simp only [List.append_assoc, readPair_pair hhigh, readPair_pair hlow, readFields_writeTail,
    Option.bind_eq_bind, Option.bind_some, hyear]
  unfold pair at hsecond ⊢
  simp only [List.cons_append, List.nil_append] at hsecond ⊢
  simp only [hsecond, Option.bind_some, hfraction]
  exact ofFields?_written seconds true

/-- A time is read from contents that are those of one of the two forms. -/
theorem read_of_contents {number : Nat} {contents : Bytes} {t : ZonedTime}
    (hlen : contents.length < 2 ^ 64) (hvisible : isVisible contents = true)
    (h : (number = TagNumber.utcTime ∧ ofShort? contents = some t)
      ∨ (number = TagNumber.generalizedTime ∧ ofLong? contents = some t)) (rest : Bytes) :
    read (Der.write (.primitive number) contents ++ rest) = some (t, rest) := by
  obtain ⟨rfl, htime⟩ | ⟨rfl, htime⟩ := h
  · have hread := readElement_write (t := .primitive TagNumber.utcTime) (by decide) hlen rest
    simp only [read, hread, Option.bind_eq_bind, Option.bind_some, hvisible, htime]
    rfl
  · have hread := readElement_write (t := .primitive TagNumber.generalizedTime) (by decide) hlen rest
    simp only [read, hread, Option.bind_eq_bind, Option.bind_some, hvisible, htime]
    rfl

/-- Is a second written in the form with four digits for the year? -/
def isWrittenLong (seconds : Int) : Bool :=
  !decide (1950 ≤ (Civil.ofSeconds seconds).date.year
    ∧ (Civil.ofSeconds seconds).date.year < longYear)

/-- A second up to the end of the year 9999 is read back from its own encoding, as
the time of the day that was written. -/
theorem read_write (h : seconds ≤ lastSecond) (rest : Bytes) :
    read (write seconds ++ rest) = some (readBack seconds (isWrittenLong seconds), rest) := by
  have hyear := Civil.year_ofSeconds_le h
  unfold write isWrittenLong
  dsimp only
  split
  case isTrue hshort =>
    rw [decide_eq_true hshort]
    refine read_of_contents ?_ ?_ (.inl ⟨rfl, ofShort?_written hshort.1 hshort.2⟩) rest
    · exact show 13 < 2 ^ 64 by decide
    · rw [isVisible_append, isVisible_pair]
      exact isVisible_writeTail _
  case isFalse hlong =>
    rw [decide_eq_false hlong]
    refine read_of_contents ?_ ?_ (.inr ⟨rfl, ofLong?_written hyear⟩) rest
    · exact show 15 < 2 ^ 64 by decide
    · rw [isVisible_append, isVisible_append, isVisible_pair, isVisible_pair]
      exact isVisible_writeTail _

-- ========================================================= whole seconds

/-- A whole second in UTC, in the form that its year needs. -/
def ofSeconds (seconds : Int) : ZonedTime :=
  ⟨seconds, 0, 0, needsLong ⟨seconds, 0⟩⟩

/-- A second from 1970 on is read back as it was. -/
theorem readBack_eq (h : 0 ≤ seconds) :
    readBack seconds (isWrittenLong seconds) = ofSeconds seconds := by
  have hyear := Civil.le_year_ofSeconds h
  have hwritten : written seconds = Civil.ofSeconds seconds := by
    unfold written
    dsimp only
    rw [Int.toNat_of_nonneg (by omega)]
  have hform : isWrittenLong seconds = needsLong ⟨seconds, 0⟩ := by
    unfold isWrittenLong needsLong longYear
    rw [← decide_not]
    exact decide_eq_decide.2 (by dsimp only; omega)
  rw [readBack, hwritten, Civil.toSeconds_ofSeconds, hform]
  rfl

variable {p : Instant}

theorem instant_ofSeconds (seconds : Int) : (ofSeconds seconds).instant = ⟨seconds, 0⟩ := by
  simp only [instant, ofSeconds, Nat.zero_mul]

/-- An instant that is a whole second is in the form of that second, so the forms never
decide between them. -/
theorem needsLong_eq (h : (p == (ofSeconds seconds).instant) = true) :
    needsLong p = (ofSeconds seconds).isLong := by
  rw [beq_iff_eq.1 h, instant_ofSeconds]
  rfl

/-- An instant comes before a whole second if its own second does. -/
theorem follows_ofSeconds : (ofSeconds seconds).follows p = true ↔ p.seconds < seconds := by
  have hform : (p == (ofSeconds seconds).instant && (ofSeconds seconds).isLong && !needsLong p)
      = false := by
    cases hsame : p == (ofSeconds seconds).instant with
    | false => rfl
    | true => rw [needsLong_eq hsame, Bool.true_and, Bool.and_not_self]
  rw [follows, hform, Bool.or_false, Instant.before, instant_ofSeconds]
  simp only [Bool.or_eq_true, Bool.and_eq_true, decide_eq_true_eq, Nat.not_lt_zero, and_false,
    or_false]

/-- An instant comes after a whole second if its own second does, or if it lies within that
second and not at its start. -/
theorem precedes_ofSeconds :
    (ofSeconds seconds).precedes p = true
      ↔ seconds < p.seconds ∨ (seconds = p.seconds ∧ 0 < p.nanos) := by
  have hform : (p == (ofSeconds seconds).instant && !(ofSeconds seconds).isLong && needsLong p)
      = false := by
    cases hsame : p == (ofSeconds seconds).instant with
    | false => rfl
    | true => rw [needsLong_eq hsame, Bool.true_and, Bool.not_and_self]
  rw [precedes, hform, Bool.or_false, Instant.before, instant_ofSeconds]
  simp only [Bool.or_eq_true, Bool.and_eq_true, decide_eq_true_eq, beq_iff_eq]

end Enrollment.Der.ZonedTime
