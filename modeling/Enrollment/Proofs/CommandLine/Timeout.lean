/-
The time limit that a certificate is requested with.

What every option keeps when its value is stored, reading all options keeps
(`Options.read_keeps`): the arguments are gone through by induction, and in between only the
values read so far and the option met last are carried along.  The limit is thirty seconds
or what a text was read as, so it is never zero (`RequestOptions.isTimeout_of_read`), and a
text is read exactly if it is written as a length of time (`timeout_exact`).
-/
import Enrollment.Proofs.Duration
import Enrollment.Proofs.Except
import Enrollment.CommandLine.Program

namespace Enrollment.CommandLine

variable {σ : Type} {P : σ → Prop}

-- ================================================================ keeping

/-- Storing any value of an option keeps a property of the record. -/
def Parameter.Keeps (o : Parameter σ) (P : σ → Prop) : Prop :=
  ∀ text record record', P record → o.store text record = .ok record' → P record'

namespace Options

/-- The values read so far have a property, and the option that was met last keeps it. -/
structure Progress.Keeping (P : σ → Prop) (p : Progress σ) : Prop where
  values : P p.values
  pending : ∀ o value, p.pending = some (o, value) → o.Keeps P

variable {spec : Options σ} {p p' : Progress σ} {o : Parameter σ}

theorem Progress.Keeping.of_none (h : P p.values) (hnone : p.pending = none) :
    p.Keeping P := by
  refine ⟨h, fun o value hsome => ?_⟩
  rw [hnone] at hsome
  cases hsome

/-- Storing a value of an option that keeps the property keeps it. -/
theorem Progress.Keeping.store {value : String} (hp : p.Keeping P) (ho : o.Keeps P)
    (h : p.store o value = .ok p') : p'.Keeping P := by
  unfold Progress.store at h
  split at h
  · cases h
  · obtain ⟨values, hvalues, h⟩ := bind_eq_ok h
    cases h
    exact ⟨ho value p.values values hp.values hvalues, hp.pending⟩

theorem Progress.Keeping.settle (hp : p.Keeping P) (h : p.settle = .ok p') : p'.Keeping P := by
  unfold Progress.settle at h
  split at h
  · cases h
    exact hp
  · cases h
  · rename_i o value hpending
    have hnone : Progress.Keeping P { p with pending := none } := .of_none hp.values rfl
    exact hnone.store (hp.pending o (some value) hpending) h

theorem Progress.Keeping.meet (hp : p.Keeping P) (ho : o.Keeps P) (value : Option String) :
    Progress.Keeping P { p with pending := some (o, value) } := by
  refine ⟨hp.values, fun o' value' h => ?_⟩
  cases h
  exact ho

/-- Reading the arguments keeps what every option keeps. -/
theorem readArguments_keeps (hspec : ∀ o ∈ spec.parameters, o.Keeps P)
    {arguments : List String} (hp : p.Keeping P)
    (h : readArguments spec arguments p = .ok p') : p'.Keeping P := by
  -- the option that was met last is carried along until its value is there
  induction arguments generalizing p with
  | nil => exact hp.settle h
  | cons argument rest ih =>
    rw [readArguments] at h
    cases hargument : Argument.of argument with
    | terminator =>
      simp only [hargument] at h
      split at h
      · exact hp.settle h
      · cases h
    | long name value =>
      simp only [hargument] at h
      split at h
      · split at h
        · cases h
        · obtain ⟨-, -, h⟩ := bind_eq_ok h
          cases h
      · cases hfind : spec.parameters.find? (·.name == name) with
        | none =>
          simp only [hfind] at h
          cases h
        | some o =>
          have ho : o.Keeps P := hspec o (List.mem_of_find?_eq_some hfind)
          simp only [hfind] at h
          cases value with
          | none =>
            obtain ⟨settled, hsettled, h⟩ := bind_eq_ok h
            exact ih ((hp.settle hsettled).meet ho none) h
          | some value =>
            obtain ⟨settled, hsettled, h⟩ := bind_eq_ok h
            obtain ⟨stored, hstored, h⟩ := bind_eq_ok h
            exact ih ((hp.settle hsettled).store ho hstored) h
    | short letter =>
      simp only [hargument] at h
      split at h
      · obtain ⟨-, -, h⟩ := bind_eq_ok h
        cases h
      · cases h
    | plain text =>
      simp only [hargument] at h
      split at h
      · rename_i o hpending
        exact ih (hp.meet (hp.pending o none hpending) _) h
      · cases h

theorem readEnvironment_keeps {environment : List (String × String)}
    {parameters : List (Parameter σ)} (hparameters : ∀ o ∈ parameters, o.Keeps P)
    (hp : p.Keeping P) (h : readEnvironment environment parameters p = .ok p') :
    p'.Keeping P := by
  induction parameters generalizing p with
  | nil =>
    cases h
    exact hp
  | cons o rest ih =>
    obtain ⟨ho, hrest⟩ := List.forall_mem_cons.1 hparameters
    unfold readEnvironment at h
    dsimp only at h
    split at h
    · exact ih hrest hp h
    · obtain ⟨stored, hstored, h⟩ := bind_eq_ok h
      exact ih hrest (hp.store ho hstored) h

/-- Whatever the arguments and the environment, reading the options keeps what every option
keeps. -/
theorem read_keeps (hstart : P spec.start) (hspec : ∀ o ∈ spec.parameters, o.Keeps P)
    {environment : List (String × String)} {arguments : List String} {record : σ}
    (h : spec.read environment arguments = .ok record) : P record := by
  unfold read at h
  obtain ⟨read, hread, h⟩ := bind_eq_ok h
  obtain ⟨filled, hfilled, h⟩ := bind_eq_ok h
  have hkeeping := readArguments_keeps hspec (.of_none hstart rfl) hread
  have hfinal := readEnvironment_keeps hspec hkeeping hfilled
  split at h
  · cases h
  · cases h
    exact hfinal.values

end Options

-- ================================================================ time limit

/-- A time limit is the usual one, or was given. -/
def IsTimeout (d : Duration) : Prop :=
  d = ⟨30, 0⟩ ∨ ∃ text, Duration.parse text = .ok d

/-- A time limit has at least one second, and its seconds fit 64 bits. -/
theorem IsTimeout.seconds {d : Duration} (h : IsTimeout d) :
    1 ≤ d.seconds ∧ d.seconds < 2 ^ 64 := by
  rcases h with rfl | ⟨text, hparse⟩
  · decide
  · obtain ⟨hpos, hle⟩ := Duration.seconds_of_parse hparse
    exact ⟨hpos, Nat.lt_of_le_of_lt hle (by decide)⟩

/-- Only the option for the time limit changes it, to what its value is read as. -/
theorem RequestOptions.keeps_isTimeout :
    ∀ o ∈ RequestOptions.spec.parameters,
      o.Keeps fun record : RequestOptions => IsTimeout record.settings.timeout := by
  intro o ho text record record' hrecord h
  simp only [spec, List.mem_cons, List.not_mem_nil, or_false] at ho
  rcases ho with rfl | rfl | rfl | rfl | rfl | rfl | rfl | rfl
  all_goals
    simp only [setting, storing] at h
    obtain ⟨value, hvalue, rfl⟩ := map_eq_ok h
    first
    | exact hrecord
    | exact .inr ⟨text, mapError_eq_ok hvalue⟩

/-- The limit of a request that is carried out is the usual one or was given. -/
theorem RequestOptions.isTimeout_of_read {program : Program}
    {environment : List (String × String)} {arguments : List String} {o : RequestOptions}
    (h : program.read environment arguments = .ok (.request o)) :
    IsTimeout o.settings.timeout := by
  cases arguments with
  | nil => cases h
  | cons argument rest =>
    cases hfind : program.commands.find? (·.name == argument) with
    | none =>
      simp only [Program.read, hfind] at h
      split at h
      · cases h
      · cases h
    | some command =>
      simp only [Program.read, hfind] at h
      have hcommand : command ∈ program.commands := List.mem_of_find?_eq_some hfind
      cases program with
      | authority =>
        rcases List.mem_pair.1 hcommand with rfl | rfl
        · obtain ⟨_, -, h⟩ := map_eq_ok h
          cases h
        · obtain ⟨_, -, h⟩ := map_eq_ok h
          cases h
      | host =>
        cases List.mem_singleton.1 hcommand
        obtain ⟨record, hread, h⟩ := map_eq_ok h
        cases h
        exact Options.read_keeps (P := fun record => IsTimeout record.settings.timeout)
          (.inl rfl) keeps_isTimeout hread

/-- A time limit is read exactly if it is written as a number from one to the greatest one
of 64 bits, with perhaps the letter of a unit: it is that many units in seconds, or the
greatest number of seconds if that is less.  Any other text is refused, and the limit that
a certificate is requested with is never zero. -/
theorem timeout_exact :
    (∀ text d, Duration.parse text = .ok d
        ↔ ∃ w : Duration.Written, w.Spells text ∧ 1 ≤ w.value ∧ w.value < 2 ^ 64
          ∧ d = ⟨min (w.value * w.factor) (2 ^ 64 - 1), 0⟩)
      ∧ (∀ text fault, Duration.parse text = .error fault
        ↔ fault = .zero (Duration.trimmed text)
            ∧ (∃ w : Duration.Written, w.Spells text ∧ w.value = 0)
          ∨ fault = .malformed (Duration.trimmed text)
            ∧ ∀ w : Duration.Written, w.Spells text → 2 ^ 64 ≤ w.value)
      ∧ ∀ (program : Program) environment arguments o,
        program.read environment arguments = .ok (.request o) →
        IsTimeout o.settings.timeout ∧ 1 ≤ o.settings.timeout.seconds := by
  have hlt (n : Nat) : n ≤ Duration.maxSeconds ↔ n < 2 ^ 64 := by
    unfold Duration.maxSeconds
    omega
  have hge (n : Nat) : Duration.maxSeconds < n ↔ 2 ^ 64 ≤ n := by
    unfold Duration.maxSeconds
    omega
  refine ⟨fun text d => ?_, fun text fault => ?_, fun program environment arguments o h => ?_⟩
  · rw [Duration.parse_eq_ok_iff]
    simp only [hlt]
    rfl
  · rw [Duration.parse_eq_error_iff]
    simp only [hge]
  · have htimeout := RequestOptions.isTimeout_of_read h
    exact ⟨htimeout, htimeout.seconds.1⟩

-- =========================================================== small samples

/-- A plus sign, digits, a blank and the letter of a unit. -/
def signed (digits : List Char) (h : digits ≠ [])
    (h' : digits.all Text.isAsciiDigit = true) (u : Duration.TimeUnit) : Duration.Written where
  numeral := ⟨true, digits, h, List.all_eq_true.1 h'⟩
  gap := [' ']
  unit := some u
  isBlank_gap := List.forall_mem_singleton.2 rfl

def ninetyMinutes : Duration.Written :=
  signed ['0', '0', '9', '0'] (by decide) (by decide) .minute

/-- The least number of hours that is more than the seconds of 64 bits. -/
def tooManyHours : Duration.Written :=
  signed "5124095576030432".toList (by decide) (by decide) .hour

def noTime : Duration.Written :=
  signed ['0'] (by decide) (by decide) .second

/-- A request with two minutes for its limit. -/
def shortRequest : RequestOptions where
  token := "t"
  subject := "CN=h"
  settings := { host := "h", timeout := ⟨120, 0⟩ }

/-- The limit may stand in the environment. -/
theorem read_shortRequest :
    Program.host.read [("KEYGATE_TIMEOUT", "2m")]
        ["request", "--ca-hostname", "h", "--token=t", "--dn", "CN=h"]
      = .ok (.request shortRequest) := by
  decide +kernel

/-- A sign, zeros and white space do not change a time limit, too many hours are the
greatest limit, zero is told apart from what is malformed, and a limit from the environment
is one that was given. -/
theorem timeout_exact_written :
    Duration.parse " +0090 m\t" = .ok ⟨5400, 0⟩
      ∧ Duration.parse "+5124095576030432 h" = .ok ⟨2 ^ 64 - 1, 0⟩
      ∧ Duration.parse " +0 s" = .error (.zero "+0 s")
      ∧ IsTimeout shortRequest.settings.timeout := by
  obtain ⟨hok, herror, htimeout⟩ := timeout_exact
  refine ⟨(hok _ _).2 ⟨ninetyMinutes, ⟨[' '], ['\t'], by decide, by decide, rfl⟩, ?_, ?_, ?_⟩,
    (hok _ _).2 ⟨tooManyHours, ⟨[], [], by decide, by decide, rfl⟩, ?_, ?_, ?_⟩,
    (herror _ _).2 (.inl ⟨?_, noTime, ⟨[' '], [], by decide, by decide, rfl⟩, rfl⟩),
    (htimeout .host _ _ _ read_shortRequest).1⟩
  all_goals decide +kernel

end Enrollment.CommandLine
