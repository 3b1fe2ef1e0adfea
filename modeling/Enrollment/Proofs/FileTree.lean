/-
Files: what the operations on them leave alone.

A walk goes through directories only, so it ends where it did as long as
directories stay (`locate_of_keeps`); no operation takes one away.  Making
directories puts some where nothing stood (`Extends`), and after it the path
leads to a directory (`locate_of_createDirectories`).  A plain name leads one
step down from there (`locate_join`), and what is put there is seen nowhere
else (`node?_put`).
-/
import Enrollment.FileTree
import Enrollment.Proofs.Except
import Enrollment.Proofs.Text.Utf8

namespace Enrollment

-- ================================================================== paths

namespace Path

/-- A name that leads one step down: not empty, without slashes, and neither of the
names that directories have for themselves and for what they stand in. -/
structure IsPlain (name : String) : Prop where
  slash : ∀ c ∈ name.toList, c ≠ '/'
  empty : name ≠ ""
  dot : name ≠ "."
  dots : name ≠ ".."

/-- The names between the slashes of a text. -/
def steps (text : List Char) : List String :=
  ((text.splitOn '/').map String.ofList).filter fun step => step ≠ "" && step ≠ "."

theorem names_eq (path : String) :
    names path = (if path.toList.head? = some '/' then ["/"] else []) ++ steps path.toList := rfl

/-- A slash divides the steps before it from those behind it. -/
theorem steps_append (front back : List Char) :
    steps (front ++ '/' :: back) = steps front ++ steps back := by
  have hsplit : (front ++ '/' :: back).splitOn '/' = front.splitOn '/' ++ back.splitOn '/' :=
    @List.splitOnP_append_cons _ (· == '/') front back '/' rfl
  rw [steps, hsplit, List.map_append, List.filter_append]
  rfl

variable {name : String}

theorem steps_of_isPlain (h : IsPlain name) : steps name.toList = [name] := by
  have hwhole : name.toList.splitOn '/' = [name.toList] := by
    rw [List.splitOn]
    exact List.splitOnP_eq_singleton fun c hc => beq_eq_false_iff_ne.2 (h.slash c hc)
  rw [steps, hwhole, List.map_singleton, String.ofList_toList]
  simp [h.empty, h.dot]

/-- A plain name in a directory is one name more. -/
theorem names_join (directory : String) (h : IsPlain name) :
    names (join directory name) = names directory ++ [name] := by
  have hsteps := steps_of_isPlain h
  -- by what the directory ends with
  cases hlast : directory.toList.getLast? with
  | none =>
    have hempty : directory = "" := by
      rw [← String.toList_inj, List.getLast?_eq_none_iff.1 hlast]
      rfl
    have hhead : name.toList.head? ≠ some '/' := fun hhead =>
      h.slash '/' (List.mem_of_head? hhead) rfl
    subst hempty
    rw [show join "" name = name from rfl, names_eq, names_eq, if_neg hhead, hsteps]
    rfl
  | some last =>
    obtain ⟨front, hfront⟩ := List.getLast?_eq_some_iff.1 hlast
    have hhead : ∀ back, (directory.toList ++ back).head? = directory.toList.head? := by
      intro back
      rw [hfront]
      cases front <;> rfl
    by_cases hslash : last = '/'
    · subst hslash
      have hjoin : (join directory name).toList = directory.toList ++ name.toList := by
        have hpath : join directory name = directory ++ name := by
          unfold join
          rw [hlast]
          rfl
        rw [hpath, String.toList_append]
      rw [names_eq, names_eq, hjoin, hhead, List.append_assoc, hfront, List.append_assoc,
        List.singleton_append, steps_append, hsteps, steps_append]
      rw [show steps [] = [] from rfl, List.append_nil]
    · have hjoin : (join directory name).toList = directory.toList ++ '/' :: name.toList := by
        have hpath : join directory name = directory ++ "/" ++ name := by
          unfold join
          rw [hlast]
          split
          · contradiction
          · rename_i heq
            exact absurd (Option.some.inj heq) hslash
          · rfl
        rw [hpath, String.toList_append, String.toList_append, List.append_assoc]
        rfl
      rw [names_eq, names_eq, hjoin, hhead, List.append_assoc, steps_append, hsteps]

end Path

namespace FileTree

variable {t t' : FileTree} {place next : List String} {name path : String}

-- ============================================================== what stands

/-- What is put at a place is there, and nothing else has changed. -/
theorem node?_put (h : t.node? place ≠ some .directory) (node : FileNode) (other : List String) :
    (t.put place node).node? other = if other = place then some node else t.node? other := by
  by_cases hsame : other = place
  · subst hsame
    rw [if_pos rfl]
    unfold node? at h ⊢
    split
    · exact absurd rfl h
    · exact absurd rfl h
    · simp [put]
  · rw [if_neg hsame]
    unfold node?
    split
    · rfl
    · rfl
    · rw [put, List.lookup_cons, beq_eq_false_iff_ne.2 hsame]

/-- Directories stay. -/
def KeepsDirectories (t t' : FileTree) : Prop :=
  ∀ place, t.node? place = some .directory → t'.node? place = some .directory

/-- Away from some places there is nothing new but directories. -/
def Extends (places : List (List String)) (t t' : FileTree) : Prop :=
  ∀ place, place ∉ places → t'.node? place = t.node? place
    ∨ (t.node? place = none ∧ t'.node? place = some .directory)

variable {places more : List (List String)}

theorem Extends.refl (t : FileTree) : Extends places t t := fun _ _ => .inl rfl

theorem Extends.mono (h : Extends places t t') (hsub : places ⊆ more) : Extends more t t' :=
  fun place hplace => h place fun hmem => hplace (hsub hmem)

/-- Where nothing but directories is new, those that were there stay. -/
theorem Extends.keepsDirectories (h : Extends [] t t') : KeepsDirectories t t' := by
  intro place hplace
  rcases h place List.not_mem_nil with hsame | ⟨hnone, -⟩
  · rw [hsame, hplace]
  · rw [hplace] at hnone
    cases hnone

theorem Extends.trans {u : FileTree} (h : Extends places t t') (h' : Extends places t' u) :
    Extends places t u := by
  intro place hplace
  rcases h' place hplace with hsame | ⟨hnone, hnew⟩
  · rw [hsame]
    exact h place hplace
  · rcases h place hplace with hsame | ⟨-, hthere⟩
    · exact .inr ⟨hsame ▸ hnone, hnew⟩
    · rw [hthere] at hnone
      cases hnone

theorem extends_put_directory (h : t.node? place = none) :
    Extends [] t (t.put place .directory) := by
  have hne : t.node? place ≠ some .directory := by
    rw [h]
    exact nofun
  intro other _
  rw [node?_put hne]
  by_cases hsame : other = place
  · rw [if_pos hsame, hsame]
    exact .inr ⟨h, rfl⟩
  · rw [if_neg hsame]
    exact .inl rfl

/-- A file is written at a place where no directory stands. -/
structure Writes (t t' : FileTree) (place : List String) (contents : Bytes) (mode : Nat) :
    Prop where
  free : t.node? place ≠ some .directory
  written : t'.node? place = some (.file contents mode)
  others : ∀ other, other ≠ place → t'.node? other = t.node? other

variable {contents : Bytes} {mode : Nat}

theorem writes_put (h : t.node? place ≠ some .directory) (contents : Bytes) (mode : Nat) :
    Writes t (t.put place (.file contents mode)) place contents mode where
  free := h
  written := by rw [node?_put h, if_pos rfl]
  others other hne := by rw [node?_put h, if_neg hne]

theorem Writes.free_after (h : Writes t t' place contents mode) :
    t'.node? place ≠ some .directory := by
  rw [h.written]
  exact nofun

/-- Writing puts a directory nowhere. -/
theorem Writes.keepsFree (h : Writes t t' place contents mode) {other : List String}
    (hfree : t.node? other ≠ some .directory) : t'.node? other ≠ some .directory := by
  by_cases hsame : other = place
  · rw [hsame]
    exact h.free_after
  · rw [h.others other hsame]
    exact hfree

/-- Writing once more at the same place counts alone. -/
theorem Writes.again {u : FileTree} {contents' : Bytes} {mode' : Nat}
    (h : Writes t t' place contents mode) (h' : Writes t' u place contents' mode') :
    Writes t u place contents' mode' where
  free := h.free
  written := h'.written
  others other hne := (h'.others other hne).trans (h.others other hne)

theorem Writes.keepsDirectories (h : Writes t t' place contents mode) :
    KeepsDirectories t t' := by
  intro other hother
  have hne : other ≠ place := fun hsame => h.free (hsame ▸ hother)
  rw [h.others other hne, hother]

theorem Writes.extends (h : Writes t t' place contents mode) : Extends [place] t t' := by
  intro other hother
  exact .inl (h.others other fun hsame => hother (hsame ▸ List.mem_singleton_self _))

-- ================================================================ walking

/-- A step is taken from a directory. -/
theorem directory_of_step (h : t.step place name = .ok next) :
    t.node? place = some .directory := by
  by_contra hne
  rw [step, if_pos hne] at h
  cases h

theorem step_of_keeps (h : KeepsDirectories t t') (hstep : t.step place name = .ok next) :
    t'.step place name = .ok next := by
  have hdirectory := directory_of_step hstep
  rw [step, if_neg (not_not.2 hdirectory)] at hstep
  rw [step, if_neg (not_not.2 (h place hdirectory)), hstep]

theorem foldlM_step_of_keeps (h : KeepsDirectories t t') {names : List String}
    (hwalk : names.foldlM t.step place = .ok next) : names.foldlM t'.step place = .ok next := by
  induction names generalizing place with
  | nil => exact hwalk
  | cons name names ih =>
    rw [List.foldlM_cons] at hwalk ⊢
    obtain ⟨first, hfirst, hrest⟩ := bind_eq_ok hwalk
    rw [step_of_keeps h hfirst]
    exact ih hrest

/-- A path leads where it did as long as directories stay. -/
theorem locate_of_keeps (h : KeepsDirectories t t') (hlocate : t.locate path = .ok place) :
    t'.locate path = .ok place :=
  foldlM_step_of_keeps h hlocate

/-- A plain name leads one step down. -/
theorem step_of_isPlain (hdirectory : t.node? place = some .directory) (h : Path.IsPlain name) :
    t.step place name
      = if maxName < Utf8.size name then .error .nameTooLong else .ok (place ++ [name]) := by
  rw [step, if_neg (not_not.2 hdirectory), if_neg (fun hup => h.dots hup.1 : ¬(name = ".." ∧ _))]

/-- A plain name behind the path of a directory leads one step down from it, unless it is too
long. -/
theorem locate_join {directory : String} (hlocate : t.locate directory = .ok place)
    (hdirectory : t.node? place = some .directory) (h : Path.IsPlain name) :
    t.locate (Path.join directory name)
      = if maxName < Utf8.size name then .error .nameTooLong else .ok (place ++ [name]) := by
  rw [locate] at hlocate
  rw [locate, Path.names_join directory h, List.foldlM_append, hlocate,
    ← step_of_isPlain hdirectory h]
  show [name].foldlM t.step place = _
  rw [List.foldlM_cons]
  cases t.step place name <;> rfl

/-- What a plain name leads to is one step down. -/
theorem place_of_locate_join {directory : String} {below : List String}
    (hlocate : t.locate directory = .ok place) (hdirectory : t.node? place = some .directory)
    (h : Path.IsPlain name) (hjoin : t.locate (Path.join directory name) = .ok below) :
    below = place ++ [name] := by
  rw [locate_join hlocate hdirectory h] at hjoin
  split at hjoin
  · cases hjoin
  · cases hjoin
    rfl

-- ====================================================== making directories

/-- Making the directories on a way makes nothing else. -/
theorem createFrom_extends (t : FileTree) (place names : List String) :
    Extends [] t (t.createFrom place names).2 := by
  induction names generalizing t place with
  | nil => exact .refl t
  | cons name names ih =>
    rw [createFrom]
    split
    · exact .refl t
    · split
      · exact ih t _
      · exact .refl t
      case h_3 hnone => exact (extends_put_directory hnone).trans (ih _ _)

/-- Where directories were made, the names lead to one. -/
theorem foldlM_step_of_createFrom {names : List String}
    (hdirectory : t.node? place = some .directory)
    (h : t.createFrom place names = (.ok (), t')) :
    ∃ final, names.foldlM t'.step place = .ok final ∧ t'.node? final = some .directory := by
  induction names generalizing t place with
  | nil =>
    cases h
    exact ⟨place, rfl, hdirectory⟩
  | cons name names ih =>
    -- a step into a directory of the first tree can be taken in the last one
    have hkeeps := (createFrom_extends t place (name :: names)).keepsDirectories
    rw [h] at hkeeps
    rw [createFrom] at h
    split at h
    case h_1 => cases h
    case h_2 next hstep =>
      have hstep := step_of_keeps hkeeps hstep
      split at h
      case h_1 hthere =>
        obtain ⟨final, hwalk, hfinal⟩ := ih hthere h
        rw [List.foldlM_cons, hstep]
        exact ⟨final, hwalk, hfinal⟩
      case h_2 => cases h
      case h_3 hnone =>
        have hmade : (t.put next .directory).node? next = some .directory := by
          rw [node?_put (by rw [hnone]; exact nofun), if_pos rfl]
        obtain ⟨final, hwalk, hfinal⟩ := ih hmade h
        rw [List.foldlM_cons, hstep]
        exact ⟨final, hwalk, hfinal⟩

/-- Where the names lead to a directory already, nothing is made. -/
theorem createFrom_of_walk {names final : List String}
    (hwalk : names.foldlM t.step place = .ok final) (hfinal : t.node? final = some .directory) :
    t.createFrom place names = (.ok (), t) := by
  induction names generalizing place with
  | nil => rfl
  | cons name names ih =>
    rw [List.foldlM_cons] at hwalk
    obtain ⟨next, hstep, hrest⟩ := bind_eq_ok hwalk
    -- a walk has come to a directory where it goes on, and where it ends
    have hnext : t.node? next = some .directory := by
      cases names with
      | nil =>
        cases hrest
        exact hfinal
      | cons second names =>
        rw [List.foldlM_cons] at hrest
        obtain ⟨_, hsecond, -⟩ := bind_eq_ok hrest
        exact directory_of_step hsecond
    rw [createFrom, hstep]
    simp only [hnext]
    exact ih hrest

/-- A directory that is there need not be made. -/
theorem createDirectories_of_located (hlocate : t.locate path = .ok place)
    (hdirectory : t.node? place = some .directory) :
    t.createDirectories path = (.ok (), t) :=
  createFrom_of_walk hlocate hdirectory

/-- A path for which the directories were made leads to one. -/
theorem locate_of_createDirectories (h : t.createDirectories path = (.ok (), t')) :
    ∃ place, t'.locate path = .ok place ∧ t'.node? place = some .directory :=
  foldlM_step_of_createFrom rfl h

-- ================================================================ writing

/-- Writing succeeds only at the place that the path leads to. -/
theorem write_eq_ok (h : t.write path contents = .ok t') :
    ∃ place mode, t.locate path = .ok place ∧ Writes t t' place contents mode := by
  obtain ⟨place, hlocate, h⟩ := bind_eq_ok h
  split at h
  case h_1 => cases h
  case h_2 mode hnode =>
    cases h
    exact ⟨place, mode, hlocate, writes_put (by rw [hnode]; exact nofun) _ _⟩
  case h_3 hnode =>
    cases h
    exact ⟨place, newMode, hlocate, writes_put (by rw [hnode]; exact nofun) _ _⟩

/-- A file is not written where a directory stands, and that is all that is in the way. -/
theorem directory_of_write {fault : FileFault} (h : t.write path contents = .error fault)
    (hlocate : t.locate path = .ok place) : t.node? place = some .directory := by
  unfold write at h
  rw [hlocate] at h
  simp only [bind, Except.bind] at h
  split at h
  case h_1 hnode => exact hnode
  case h_2 => cases h
  case h_3 => cases h

/-- The access rights of a file that was written can be set. -/
theorem Writes.setMode (h : Writes t t' place contents mode) (hlocate : t.locate path = .ok place)
    (mode' : Nat) :
    ∃ u, t'.setMode path mode' = .ok u ∧ Writes t u place contents mode' := by
  have hthere := locate_of_keeps h.keepsDirectories hlocate
  refine ⟨t'.put place (.file contents mode'), ?_, h.again (writes_put h.free_after _ _)⟩
  simp only [FileTree.setMode, hthere, bind, Except.bind, h.written]
  rfl

/-- The text in a file is read back. -/
theorem readText_of_file {text : String} {mode : Nat} (hlocate : t.locate path = .ok place)
    (hnode : t.node? place = some (.file (Utf8.encode text) mode)) :
    t.readText path = .ok text := by
  have hread : t.read path = .ok (Utf8.encode text) := by
    simp only [read, hlocate, bind, Except.bind, hnode]
    rfl
  have hdecode : Utf8.decode? (Utf8.encode text) = some text := by
    rw [Utf8.encode, Utf8.decode?_encodeChars, String.ofList_toList]
  simp only [readText, hread, bind, Except.bind, hdecode]
  rfl

end FileTree

end Enrollment
