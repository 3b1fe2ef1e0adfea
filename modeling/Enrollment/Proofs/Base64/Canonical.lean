/-
Base64: a text that is read is the one spelling of what it is read as.

Each group that passes the reader spells its bytes, because its symbols are
the digits of one number (`digits_injective`) and the bits that no byte uses
were checked to be zero.  So the reader and the writer are inverse to each
other (`decode_eq_ok_iff`), and no two texts spell the same bytes.
-/
import Enrollment.Proofs.Base64
import Enrollment.Proofs.Except

namespace Enrollment.Base64

-- =============================================================== symbols

/-- A byte that has a value is the symbol of that value. -/
theorem symbolByte_of_value? {b : UInt8} {n : Nat} (h : value? b = some n) :
    n < 64 ∧ symbolByte n = b := by
  have hall : ∀ k < 256, ∀ n ∈ value? (UInt8.ofNat k), n < 64 ∧ symbolByte n = UInt8.ofNat k := by
    decide +kernel
  have hb := hall b.toNat b.toNat_lt n
  rw [UInt8.ofNat_toNat] at hb
  exact hb h

theorem valueAt_eq_ok {offset : Nat} {b : UInt8} {n : Nat} (h : valueAt offset b = .ok n) :
    n < 64 ∧ symbolByte n = b := by
  unfold valueAt at h
  split at h
  case h_1 m hm =>
    cases h
    exact symbolByte_of_value? hm
  case h_2 => cases h

/-- The bytes of symbols are those of their values. -/
theorem encodeChars_map_symbol {values : List Nat} (h : ∀ n ∈ values, n < 64) :
    Utf8.encodeChars (values.map symbol) = values.map symbolByte := by
  have happend := encodeChars_symbols h []
  rw [List.append_nil] at happend
  exact happend.trans (List.append_nil _)

/-- As many digits that come to the same number are the same. -/
theorem digits_injective {as bs : List Nat} (hlength : as.length = bs.length)
    (ha : ∀ n ∈ as, n < 64) (hb : ∀ n ∈ bs, n < 64)
    (h : as.foldl (fun n v => n * 64 + v) 0 = bs.foldl (fun n v => n * 64 + v) 0) : as = bs := by
  -- from the right, as each number gives its last digit away
  induction as using List.reverseRecOn generalizing bs with
  | nil => exact (List.length_eq_zero_iff.1 hlength.symm).symm
  | append_singleton as a ih =>
    rcases List.eq_nil_or_concat bs with rfl | ⟨bs, b, rfl⟩
    · simp at hlength
    · rw [List.concat_eq_append] at hlength hb h ⊢
      simp only [List.foldl_append, List.foldl_cons, List.foldl_nil] at h
      simp only [List.length_append, List.length_singleton, Nat.add_right_cancel_iff] at hlength
      have halast := ha a List.mem_concat_self
      have hblast := hb b List.mem_concat_self
      have hlast : a = b := by omega
      have hfront := ih hlength (fun n hn => ha n (List.mem_append_left _ hn))
        (fun n hn => hb n (List.mem_append_left _ hn)) (by omega)
      rw [hlast, hfront]

-- ================================================================ groups

/-- A full group that is read is what is written for its bytes. -/
theorem fullGroup_eq_ok {offset : Nat} {a b c d : UInt8} {bytes : Bytes}
    (h : fullGroup offset a b c d = .ok bytes) :
    ∃ x y z, bytes = [x, y, z] ∧ Utf8.encodeChars (group x y z) = [a, b, c, d] := by
  obtain ⟨p, hp, h⟩ := bind_eq_ok h
  obtain ⟨q, hq, h⟩ := bind_eq_ok h
  obtain ⟨r, hr, h⟩ := bind_eq_ok h
  obtain ⟨s, hs, h⟩ := bind_eq_ok h
  cases h
  obtain ⟨hp, rfl⟩ := valueAt_eq_ok hp
  obtain ⟨hq, rfl⟩ := valueAt_eq_ok hq
  obtain ⟨hr, rfl⟩ := valueAt_eq_ok hr
  obtain ⟨hs, rfl⟩ := valueAt_eq_ok hs
  have hlength := Bytes.length_ofNat 3 (p * 262144 + q * 4096 + r * 64 + s)
  have hnumber := Bytes.toNat_ofNat 3 (p * 262144 + q * 4096 + r * 64 + s)
  rw [Nat.mod_eq_of_lt (by omega)] at hnumber
  obtain ⟨x, y, z, hbytes⟩ := List.length_eq_three.1 hlength
  rw [hbytes] at hnumber
  refine ⟨x, y, z, hbytes, ?_⟩
  obtain ⟨p', q', r', s', hvalues, hgroup, hnumber'⟩ := group_values x y z
  have hsame : [p', q', r', s'] = [p, q, r, s] := by
    simp only [List.forall_mem_cons] at hvalues
    rw [hnumber] at hnumber'
    obtain ⟨hp', hq', hr', hs', -⟩ := hvalues
    simp only [List.cons.injEq, and_true]
    omega
  rw [hgroup, encodeChars_map_symbol hvalues, hsame]
  rfl

/-- The last group is taken apart into its symbols and its padding. -/
theorem splitLast_eq_ok {start index : Nat} {symbols out : List (UInt8 × Nat)}
    {pads count at? : Nat} {text : Bytes}
    (h : splitLast start index symbols pads at? text = .ok (out, count)) :
    ∃ values k, (∀ n ∈ values, n < 64) ∧ text = values.map symbolByte ++ List.replicate k pad
      ∧ out = symbols.reverse ++ values.map (fun n => (symbolByte n, n)) ∧ count = pads + k
      ∧ (0 < pads → values = []) := by
  induction text generalizing index symbols pads at? with
  | nil =>
    cases h
    exact ⟨[], 0, by simp, rfl, by simp, rfl, fun _ => rfl⟩
  | cons b text ih =>
    rw [splitLast] at h
    split at h
    case isTrue hpad =>
      split at h
      case isTrue => cases h
      case isFalse =>
        -- after padding there is nothing but padding
        obtain ⟨values, k, -, htext, hout, hcount, hnone⟩ := ih h
        have hvalues := hnone (Nat.succ_pos pads)
        subst hvalues
        refine ⟨[], k + 1, by simp, ?_, hout, by omega, fun _ => rfl⟩
        rw [hpad, htext, List.replicate_succ]
        rfl
    case isFalse hpad =>
      split at h
      case isTrue => cases h
      case isFalse hpads =>
        obtain ⟨n, hn, h⟩ := bind_eq_ok h
        obtain ⟨hlt, rfl⟩ := valueAt_eq_ok hn
        obtain ⟨values, k, hvalues, htext, hout, hcount, -⟩ := ih h
        refine ⟨n :: values, k, List.forall_mem_cons.2 ⟨hlt, hvalues⟩, ?_, ?_, hcount,
          fun hpos => absurd hpos hpads⟩
        · rw [htext]
          rfl
        · rw [hout, List.reverse_cons, List.append_assoc]
          rfl

/-- Bytes are spelled in one way only. -/
theorem Spells.unique {as bs : List Nat} {count count' unused unused' : Nat} {bytes : Bytes}
    (ha : Spells as count bytes unused) (hb : Spells bs count' bytes unused') :
    as = bs ∧ count = count' := by
  have hlength : as.length = bs.length := by
    have h₁ := ha.length_eq
    have h₂ := hb.length_eq
    have h₃ := ha.unused_lt
    have h₄ := hb.unused_lt
    have h₅ := ha.two_le
    have h₆ := hb.two_le
    have h₇ := ha.full
    have h₈ := hb.full
    -- one, two or three bytes take two, three or four symbols
    have hbytes : bytes.length = 1 ∨ bytes.length = 2 ∨ bytes.length = 3 := by omega
    rcases hbytes with hbytes | hbytes | hbytes <;> omega
  have hunused : unused = unused' := by
    have h₁ := ha.length_eq
    have h₂ := hb.length_eq
    omega
  refine ⟨digits_injective hlength ha.lt_of_mem hb.lt_of_mem ?_, ?_⟩
  · rw [ha.number_eq, hb.number_eq, hunused]
  · have h₁ := ha.full
    have h₂ := hb.full
    omega

/-- The bits that bytes are made of, and zeros after them. -/
theorem bits_of_unused {count bits : Nat} (htwo : 2 ≤ count) (hfour : count ≤ 4)
    (hlt : bits < 64 ^ count) (hzero : bits % 2 ^ (count * 6 % 8) = 0) :
    bits / 2 ^ (count * 6 % 8) % 256 ^ (count * 6 / 8) * 2 ^ (count * 6 % 8) = bits := by
  have hcases : count = 2 ∨ count = 3 ∨ count = 4 := by omega
  rcases hcases with rfl | rfl | rfl <;> simp only [Nat.reduceMul, Nat.reduceMod, Nat.reduceDiv,
    Nat.reducePow] at * <;> omega

/-- A last group that is read spells its bytes. -/
theorem spells_of_lastGroup {start : Nat} {text bytes : Bytes} (hshort : text.length ≤ 4)
    (h : lastGroup start text = .ok bytes) :
    ∃ values count unused, Spells values count bytes unused
      ∧ text = values.map symbolByte ++ List.replicate count pad := by
  obtain ⟨⟨symbols, pads⟩, hsplit, h⟩ := bind_eq_ok h
  obtain ⟨values, k, hvalues, htext, hsymbols, hpads, -⟩ := splitLast_eq_ok hsplit
  rw [List.reverse_nil, List.nil_append] at hsymbols
  rw [Nat.zero_add] at hpads
  subst hsymbols hpads
  have hbits : (values.map fun n => (symbolByte n, n)).foldl (fun n s => n * 64 + s.2) 0
      = values.foldl (fun n v => n * 64 + v) 0 := List.foldl_map
  simp only [List.length_map, hbits] at h
  have hlength := congrArg List.length htext
  rw [List.length_append, List.length_map, List.length_replicate] at hlength
  -- the three checks: enough symbols, a full group, nothing in the bits left over
  split at h
  case isTrue => cases h
  case isFalse htwo =>
    split at h
    case isTrue => cases h
    case isFalse hfull =>
      split at h
      case isTrue => cases h
      case isFalse hzero =>
        cases h
        have hlt := Bytes.foldl_digits_lt hvalues
        have hsum : pads + values.length = 4 := by omega
        refine ⟨values, pads, values.length * 6 % 8, ⟨hvalues, by omega, hsum, by omega, ?_, ?_⟩,
          htext⟩
        · rw [Bytes.length_ofNat]
          omega
        · rw [Bytes.toNat_ofNat]
          exact (bits_of_unused (by omega) (by omega) hlt (not_not.1 hzero)).symm

/-- A short text that is read is what is written for its bytes. -/
theorem lastGroup_eq_ok {start : Nat} {text bytes : Bytes} (hshort : text.length ≤ 4)
    (h : lastGroup start text = .ok bytes) : text = Utf8.encodeChars (encode bytes) := by
  obtain ⟨values, count, unused, hspells, rfl⟩ := spells_of_lastGroup hshort h
  have hne : bytes ≠ [] := by
    rintro rfl
    have h₁ := hspells.length_eq
    have h₂ := hspells.unused_lt
    have h₃ := hspells.two_le
    rw [List.length_nil] at h₁
    omega
  have hthree : bytes.length ≤ 3 := by
    have h₁ := hspells.length_eq
    have h₂ := hspells.full
    omega
  obtain ⟨values', count', unused', hspells', hencode⟩ := encode_short bytes hne hthree
  obtain ⟨rfl, rfl⟩ := hspells.unique hspells'
  have hpads : Utf8.encodeChars (List.replicate count '=') = List.replicate count pad := by
    rw [Utf8.encodeChars, List.flatMap_replicate]
    exact List.flatten_replicate_singleton
  rw [hencode, encodeChars_symbols hspells.lt_of_mem, hpads]

-- ============================================================= canonicity

/-- A text that is read is what is written for the bytes that it adds. -/
theorem decodeOnto_eq_ok {acc : Bytes} {offset : Nat} {text out : Bytes}
    (h : decodeOnto acc offset text = .ok out) :
    ∃ bs, out = acc.reverse ++ bs ∧ text = Utf8.encodeChars (encode bs) := by
  fun_induction decodeOnto acc offset text with
  | case1 acc offset a b c d e rest ih =>
    obtain ⟨bytes, hbytes, h⟩ := bind_eq_ok h
    obtain ⟨x, y, z, rfl, hgroup⟩ := fullGroup_eq_ok hbytes
    obtain ⟨bs, rfl, htext⟩ := ih _ h
    refine ⟨x :: y :: z :: bs, ?_, ?_⟩
    · rw [List.reverse_append, List.reverse_reverse, List.append_assoc]
      rfl
    · rw [encode_group, Utf8.encodeChars_append, hgroup, ← htext]
      rfl
  | case2 acc offset group hgroup =>
    obtain ⟨bytes, hbytes, h⟩ := bind_eq_ok h
    cases h
    refine ⟨bytes, rfl, lastGroup_eq_ok ?_ hbytes⟩
    -- five bytes and more would have been taken for a full group
    match group, hgroup with
    | [], _ | [_], _ | [_, _], _ | [_, _, _], _ | [_, _, _, _], _ => simp
    | a :: b :: c :: d :: e :: rest, hgroup => exact (hgroup a b c d e rest rfl).elim

/-- A text is read as some bytes exactly when it is what is written for them. -/
theorem decode_eq_ok_iff {text bs : Bytes} :
    decode text = .ok bs ↔ text = Utf8.encodeChars (encode bs) := by
  refine ⟨fun h => ?_, fun h => h ▸ decode_encode bs⟩
  unfold decode at h
  split at h
  case isTrue hempty =>
    cases h
    exact List.isEmpty_iff.1 hempty
  case isFalse =>
    split at h
    case h_1 => cases h
    case h_2 =>
      obtain ⟨bytes, rfl, htext⟩ := decodeOnto_eq_ok h
      exact htext

end Enrollment.Base64
