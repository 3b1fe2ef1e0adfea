/-
What is carried over from a request, and what the request asked for.

`hosts` are the host names and addresses that the extensions of a request ask
for, whatever else they ask for.  Content that was taken from a request has
just these among its names (`alternativeNames_of_ofFields`), so two requests
that agree in subject, key, signature algorithm and hosts give content that
agrees in all that a certificate takes from it.
-/
import Enrollment.Proofs.Certificate.AlternativeName
import Enrollment.SigningRequest.Content

namespace Enrollment.SigningRequest

/-- The host names and addresses that an extension asks for. -/
def hostsOf (e : Extension) : List AlternativeName :=
  if e.id = ExtensionId.alternativeNames then
    ((AlternativeName.readElements? e.value).getD []).filterMap AlternativeName.host?
  else []

/-- The host names and addresses that are asked for, in order. -/
def Fields.hosts (f : Fields) : List AlternativeName :=
  f.extensions.flatMap hostsOf

namespace Content

/-- An extension that is granted asks for names or for nothing that is carried
over. -/
theorem namesOf_eq_ok {e : Extension} {names : List AlternativeName} (h : namesOf e = .ok names) :
    (e.id = ExtensionId.alternativeNames ∧ ∃ es, AlternativeName.readElements? e.value = some es
        ∧ es.mapM AlternativeName.ofElement = .ok names)
      ∨ (e.id ≠ ExtensionId.alternativeNames ∧ names = []) := by
  unfold namesOf at h
  by_cases hid : e.id = ExtensionId.alternativeNames
  · rw [if_pos hid] at h
    split at h
    case h_1 es hes => exact .inl ⟨hid, es, hes, h⟩
    case h_2 => cases h
  · rw [if_neg hid] at h
    refine .inr ⟨hid, ?_⟩
    split_ifs at h with husage hpurposes hconstraints
    · cases h
      rfl
    · cases h
      rfl
    · obtain ⟨_, -, hnil⟩ := map_eq_ok h
      exact hnil.symm

/-- The hosts among the names of an extension are those it asks for. -/
theorem filter_isHost_of_namesOf {e : Extension} {names : List AlternativeName}
    (h : namesOf e = .ok names) : names.filter AlternativeName.isHost = hostsOf e := by
  obtain ⟨hid, es, hes, hnames⟩ | ⟨hid, rfl⟩ := namesOf_eq_ok h
  · rw [hostsOf, if_pos hid, hes]
    exact AlternativeName.filter_isHost_of_mapM hnames
  · rw [hostsOf, if_neg hid]
    rfl

theorem filter_isHost_of_mapM {es : List Extension} {names : List (List AlternativeName)}
    (h : es.mapM namesOf = .ok names) :
    names.flatten.filter AlternativeName.isHost = es.flatMap hostsOf := by
  have hall := forall₂_of_mapM h
  clear h
  induction hall with
  | nil => rfl
  | cons hfirst _ ih =>
    rw [List.flatten_cons, List.filter_append, filter_isHost_of_namesOf hfirst, ih,
      List.flatMap_cons]

/-- Every name of an extension is what some element stands for. -/
theorem exists_ofElement_of_namesOf {e : Extension} {names : List AlternativeName}
    (h : namesOf e = .ok names) {name : AlternativeName} (hname : name ∈ names) :
    ∃ element, AlternativeName.ofElement element = .ok name := by
  obtain ⟨-, es, -, hnames⟩ | ⟨-, rfl⟩ := namesOf_eq_ok h
  · obtain ⟨element, -, helement⟩ := exists_of_mem_mapM hnames hname
    exact ⟨element, helement⟩
  · cases hname

variable {f : Fields} {content : Content}

/-- Where everything that is carried over comes from. -/
theorem ofFields_eq_ok (h : ofFields f = .ok content) :
    keyKindOf f.signed.algorithm.algorithm = .ok content.keyKind
      ∧ Entries.ofSets [] f.subject.sets = .ok content.subject
      ∧ (∃ names, f.extensions.mapM namesOf = .ok names
        ∧ content.alternativeNames = names.flatten)
      ∧ content.key = f.publicKey.key := by
  obtain ⟨kind, hkind, h⟩ := bind_eq_ok h
  obtain ⟨subject, hsubject, h⟩ := bind_eq_ok h
  obtain ⟨names, hnames, h⟩ := bind_eq_ok h
  cases h
  exact ⟨hkind, hsubject, ⟨names, hnames, rfl⟩, rfl⟩

/-- Of the names that are carried over, the hosts are those that were asked for. -/
theorem alternativeNames_of_ofFields (h : ofFields f = .ok content) :
    content.alternativeNames.filter AlternativeName.isHost = f.hosts := by
  obtain ⟨-, -, ⟨names, hnames, hall⟩, -⟩ := ofFields_eq_ok h
  rw [hall]
  exact filter_isHost_of_mapM hnames

/-- Every name that is carried over is what some element stands for. -/
theorem exists_ofElement (h : ofFields f = .ok content) {name : AlternativeName}
    (hname : name ∈ content.alternativeNames) :
    ∃ e, AlternativeName.ofElement e = .ok name := by
  obtain ⟨-, -, ⟨names, hnames, hall⟩, -⟩ := ofFields_eq_ok h
  rw [hall] at hname
  obtain ⟨part, hpart, hname⟩ := List.mem_flatten.1 hname
  obtain ⟨e, -, he⟩ := exists_of_mem_mapM hnames hpart
  exact exists_ofElement_of_namesOf he hname

end Content

end Enrollment.SigningRequest
