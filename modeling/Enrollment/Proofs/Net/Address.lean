/-
Addresses that were read from a text are whole: four octets, or eight groups of
sixteen bits, whatever was left out or written as octets.
-/
import Enrollment.Net.Address
import Enrollment.Proofs.Bytes
import Mathlib.Data.List.TakeWhile

namespace Enrollment.Net.Address

/-- An address has the octets or the groups of its version. -/
def Whole : Address → Prop
  | .v4 octets => octets.length = 4
  | .v6 groups => groups.length = 8 ∧ ∀ g ∈ groups, g < 2 ^ 16

-- ================================================================ octets

/-- What is read as an address of version four has four octets. -/
theorem length_of_readV4 {cs rest : List Char} {octets : Bytes}
    (h : readV4 cs = some (octets, rest)) : octets.length = 4 := by
  simp only [readV4, Option.bind_eq_bind] at h
  obtain ⟨⟨a, c1⟩, -, h⟩ := Option.bind_eq_some_iff.1 h
  obtain ⟨c2, -, h⟩ := Option.bind_eq_some_iff.1 h
  obtain ⟨⟨b, c3⟩, -, h⟩ := Option.bind_eq_some_iff.1 h
  obtain ⟨c4, -, h⟩ := Option.bind_eq_some_iff.1 h
  obtain ⟨⟨c, c5⟩, -, h⟩ := Option.bind_eq_some_iff.1 h
  obtain ⟨c6, -, h⟩ := Option.bind_eq_some_iff.1 h
  obtain ⟨⟨d, c7⟩, -, h⟩ := Option.bind_eq_some_iff.1 h
  cases h
  rfl

/-- Four octets make two groups. -/
theorem pairOctets_whole (octets : Bytes) :
    (pairOctets octets).length ≤ 2 ∧ ∀ g ∈ pairOctets octets, g < 2 ^ 16 := by
  unfold pairOctets
  split
  case h_1 a b c d =>
    refine ⟨Nat.le_refl _, fun g hg => ?_⟩
    have ha := a.toNat_lt
    have hb := b.toNat_lt
    have hc := c.toNat_lt
    have hd := d.toNat_lt
    rcases List.mem_cons.1 hg with rfl | hg
    · omega
    · obtain rfl := List.mem_singleton.1 hg
      omega
  case h_2 => exact ⟨Nat.zero_le _, fun g hg => by cases hg⟩

-- ================================================================ groups

theorem hexValue?_lt {c : Char} {n : Nat} (h : Bytes.hexValue? c = some n) : n < 16 := by
  unfold Bytes.hexValue? at h
  simp only [Char.le_def, UInt32.le_iff_toNat_le] at h
  split_ifs at h with hdigit hlower hupper
  · cases h
    have hlast := hdigit.2
    have h9 : ('9' : Char).val.toNat = 57 := rfl
    show c.val.toNat - 48 < 16
    omega
  · cases h
    have hlast := hlower.2
    have hf : ('f' : Char).val.toNat = 102 := rfl
    show c.val.toNat - 87 < 16
    omega
  · cases h
    have hlast := hupper.2
    have hF : ('F' : Char).val.toNat = 70 := rfl
    show c.val.toNat - 55 < 16
    omega

theorem readGroup_lt {cs rest : List Char} {group : Nat} (h : readGroup cs = some (group, rest)) :
    group < 2 ^ 16 := by
  unfold readGroup at h
  dsimp only at h
  split_ifs at h with hlength
  cases h
  simp only [Bool.or_eq_true, decide_eq_true_eq, not_or, Nat.not_lt] at hlength
  generalize hdigits : cs.takeWhile (fun c => (Bytes.hexValue? c).isSome) = digits at hlength
  have hvalues : ∀ d ∈ digits.map fun c => (Bytes.hexValue? c).getD 0, d < 16 := by
    intro d hd
    obtain ⟨c, hc, rfl⟩ := List.mem_map.1 hd
    rw [← hdigits] at hc
    have hsome := List.mem_takeWhile_imp (p := fun c => (Bytes.hexValue? c).isSome) hc
    obtain ⟨n, hn⟩ := Option.isSome_iff_exists.1 hsome
    rw [hn]
    exact hexValue?_lt hn
  have hlt := Bytes.foldl_digits_lt hvalues
  rw [List.foldl_map, List.length_map] at hlt
  calc digits.foldl (fun n c => n * 16 + (Bytes.hexValue? c).getD 0) 0
      < 16 ^ digits.length := hlt
    _ ≤ 16 ^ 4 := Nat.pow_le_pow_right (by decide) hlength.2

/-- There are no more groups than were asked for. -/
theorem readGroups_whole (limit : Nat) (first : Bool) (cs : List Char) :
    (readGroups limit first cs).1.length ≤ limit
      ∧ ∀ g ∈ (readGroups limit first cs).1, g < 2 ^ 16 := by
  induction limit generalizing first cs with
  | zero =>
    rw [readGroups]
    exact ⟨Nat.le_refl _, fun g hg => by cases hg⟩
  | succ limit ih =>
    rw [readGroups]
    split
    case h_1 => exact ⟨Nat.zero_le _, fun g hg => by cases hg⟩
    case h_2 tail _ =>
      split
      case h_1 octets rest hoctets =>
        -- octets stand for two groups, so they are not looked for where one is left
        have hlimit : limit ≠ 0 := by
          rintro rfl
          cases hoctets
        obtain ⟨hlength, hgroups⟩ := pairOctets_whole octets
        exact ⟨by dsimp only; omega, hgroups⟩
      case h_2 =>
        split
        case h_1 group rest hgroup =>
          obtain ⟨hlength, hgroups⟩ := ih false rest
          refine ⟨Nat.succ_le_succ hlength, fun g hg => ?_⟩
          rcases List.mem_cons.1 hg with rfl | hg
          · exact readGroup_lt hgroup
          · exact hgroups g hg
        case h_2 => exact ⟨Nat.zero_le _, fun g hg => by cases hg⟩

/-- What is read as an address of version six has eight groups of sixteen bits. -/
theorem whole_of_readV6 {cs rest : List Char} {groups : List Nat}
    (h : readV6 cs = some (groups, rest)) : Whole (.v6 groups) := by
  obtain ⟨hlength, hgroups⟩ := readGroups_whole 8 true cs
  unfold readV6 at h
  generalize readGroups 8 true cs = found at h hlength hgroups
  obtain ⟨head, mixed, after⟩ := found
  dsimp only at h hlength hgroups
  by_cases hall : head.length = 8
  · rw [if_pos hall] at h
    cases h
    exact ⟨hall, hgroups⟩
  · rw [if_neg hall] at h
    cases mixed with
    | true => cases h
    | false =>
      simp only [Bool.false_eq_true, if_false, Option.bind_eq_bind] at h
      obtain ⟨c1, -, h⟩ := Option.bind_eq_some_iff.1 h
      obtain ⟨c2, -, h⟩ := Option.bind_eq_some_iff.1 h
      -- what the two colons stand for is made up of zeros
      obtain ⟨hlength', hgroups'⟩ := readGroups_whole (7 - head.length) true c2
      cases h
      refine ⟨?_, fun g hg => ?_⟩
      · rw [List.length_append, List.length_append, List.length_replicate]
        omega
      · rcases List.mem_append.1 hg with hg | hg
        · rcases List.mem_append.1 hg with hg | hg
          · exact hgroups g hg
          · rw [List.eq_of_mem_replicate hg]
            decide
        · exact hgroups' g hg

/-- An address that was read is whole. -/
theorem whole_of_parse {text : String} {a : Address} (h : parse text = some a) : a.Whole := by
  unfold parse at h
  split at h
  case h_1 octets hoctets =>
    cases h
    exact length_of_readV4 hoctets
  case h_2 =>
    split at h
    case h_1 groups hgroups =>
      cases h
      exact whole_of_readV6 hgroups
    case h_2 => cases h

end Enrollment.Net.Address
