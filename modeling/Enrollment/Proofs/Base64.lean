/-
Base64: every byte string is read back from its spelling.

Groups of three bytes are read back as groups of four symbols
(`fullGroup_group`); only the last group may be short, and its padding says
by how much.  What is left over in the last symbol of a short group is zero,
which the reader insists on.
-/
import Enrollment.Base64
import Enrollment.Proofs.Text.Utf8

namespace Enrollment.Base64

-- =============================================================== symbols

/-- The byte of a symbol. -/
def symbolByte (n : Nat) : UInt8 :=
  UInt8.ofNat (symbol n).toNat

theorem value?_symbolByte {n : Nat} (h : n < 64) : value? (symbolByte n) = some n := by
  revert n
  decide +kernel

theorem symbolByte_ne_pad {n : Nat} (h : n < 64) : symbolByte n ≠ pad := by
  revert n
  decide +kernel

theorem symbol_ascii {n : Nat} (h : n < 64) : (symbol n).toNat < 0x80 := by
  revert n
  decide +kernel

theorem encodeChar_symbol {n : Nat} (h : n < 64) :
    Utf8.encodeChar (symbol n) = [symbolByte n] :=
  Utf8.encodeChar_ascii (symbol_ascii h)

theorem valueAt_symbolByte {n : Nat} (h : n < 64) (offset : Nat) :
    valueAt offset (symbolByte n) = .ok n := by
  rw [valueAt, value?_symbolByte h]

-- ================================================================ writing

/-- What was written before is only ever a front. -/
theorem encodeOnto_eq_append :
    ∀ (bs : Bytes) (acc : List Char), encodeOnto acc bs = acc.reverse ++ encode bs
  | [], acc => by rw [encode, encodeOnto, encodeOnto, List.reverse_nil, List.append_nil]
  | [a], acc => by
    simp only [encode, encodeOnto, List.reverse_nil, List.nil_append, List.append_assoc]
  | [a, b], acc => by
    simp only [encode, encodeOnto, List.reverse_nil, List.nil_append, List.append_assoc]
  | a :: b :: c :: rest, acc => by
    rw [encode, encodeOnto, encodeOnto, encodeOnto_eq_append rest, encodeOnto_eq_append rest,
      List.reverse_append, List.reverse_reverse, List.append_nil, List.reverse_reverse,
      List.append_assoc]

/-- Three bytes are written as a group of their own. -/
theorem encode_group (a b c : UInt8) (rest : Bytes) :
    encode (a :: b :: c :: rest) = group a b c ++ encode rest := by
  rw [encode, encodeOnto, encodeOnto_eq_append, List.append_nil, List.reverse_reverse]

/-- Four symbols for every three bytes that are begun. -/
theorem length_encode : ∀ bs : Bytes, (encode bs).length = 4 * ((bs.length + 2) / 3)
  | [] => rfl
  | [_] => by simp [encode, encodeOnto, group]
  | [_, _] => by simp [encode, encodeOnto, group]
  | a :: b :: c :: rest => by
    rw [encode_group, List.length_append, length_encode rest, group]
    simp only [List.length_cons, List.length_nil]
    omega

-- ================================================================ reading

/-- The values of the four symbols of a group, and the number they spell. -/
theorem group_values (a b c : UInt8) :
    ∃ p q r s, (∀ n ∈ [p, q, r, s], n < 64)
      ∧ group a b c = [p, q, r, s].map symbol
      ∧ p * 262144 + q * 4096 + r * 64 + s = Bytes.toNat [a, b, c] := by
  have ha : a.toNat < 256 := a.toNat_lt
  have hb : b.toNat < 256 := b.toNat_lt
  have hc : c.toNat < 256 := c.toNat_lt
  have hn : Bytes.toNat [a, b, c] = a.toNat * 65536 + b.toNat * 256 + c.toNat := by
    simp only [Bytes.toNat, List.foldl_cons, List.foldl_nil]
    omega
  refine ⟨_, _, _, _, ?_, rfl, ?_⟩
  · simp only [List.forall_mem_cons, List.not_mem_nil, false_imp_iff, implies_true, and_true]
    omega
  · omega

/-- A full group is read back. -/
theorem fullGroup_symbols {p q r s : Nat} (h : ∀ n ∈ [p, q, r, s], n < 64) {a b c : UInt8}
    (hnumber : p * 262144 + q * 4096 + r * 64 + s = Bytes.toNat [a, b, c]) (offset : Nat) :
    fullGroup offset (symbolByte p) (symbolByte q) (symbolByte r) (symbolByte s)
      = .ok [a, b, c] := by
  simp only [List.forall_mem_cons] at h
  obtain ⟨hp, hq, hr, hs, -⟩ := h
  simp only [fullGroup, valueAt_symbolByte, hp, hq, hr, hs]
  show Except.ok (Bytes.ofNat 3 (p * 262144 + q * 4096 + r * 64 + s)) = _
  rw [hnumber]
  exact congrArg Except.ok (Bytes.ofNat_toNat [a, b, c])

/-- The symbols of the last group are taken one after the other. -/
theorem splitLast_symbols (start : Nat) {values : List Nat} (h : ∀ n ∈ values, n < 64)
    (index : Nat) (symbols : List (UInt8 × Nat)) (at? : Nat) (rest : Bytes) :
    splitLast start index symbols 0 at? (values.map symbolByte ++ rest)
      = splitLast start (index + values.length)
          ((values.map fun n => (symbolByte n, n)).reverse ++ symbols) 0 at? rest := by
  induction values generalizing index symbols with
  | nil => rfl
  | cons n values ih =>
    have hn : n < 64 := h n List.mem_cons_self
    have hrest : ∀ m ∈ values, m < 64 := fun m hm => h m (List.mem_cons_of_mem n hm)
    rw [List.map_cons, List.cons_append, splitLast, if_neg (symbolByte_ne_pad hn),
      if_neg (Nat.lt_irrefl 0), valueAt_symbolByte hn]
    show splitLast start (index + 1) ((symbolByte n, n) :: symbols) 0 at? _ = _
    rw [ih hrest, List.length_cons, List.map_cons, List.reverse_cons, List.append_assoc,
      Nat.add_assoc, Nat.add_comm 1]
    rfl

/-- The padding of the last group is counted. -/
theorem splitLast_pads (start : Nat) (count : Nat) {index : Nat} (h : 2 ≤ index)
    (symbols : List (UInt8 × Nat)) (pads at? : Nat) :
    splitLast start index symbols pads at? (List.replicate count pad)
      = .ok (symbols.reverse, pads + count) := by
  induction count generalizing index pads at? with
  | zero => rfl
  | succ count ih =>
    rw [List.replicate_succ, splitLast, if_pos rfl, if_neg (by omega), ih (by omega)]
    rw [Nat.add_assoc, Nat.add_comm 1]

/-- Values of symbols and a count of padding that fill up a group and spell some
bytes, with nothing in the bits that are left over. -/
structure Spells (values : List Nat) (count : Nat) (bs : Bytes) (unused : Nat) : Prop where
  lt_of_mem : ∀ n ∈ values, n < 64
  two_le : 2 ≤ values.length
  full : count + values.length = 4
  unused_lt : unused < 8
  length_eq : values.length * 6 = bs.length * 8 + unused
  number_eq : values.foldl (fun n v => n * 64 + v) 0 = Bytes.toNat bs * 2 ^ unused

/-- The last group is read back. -/
theorem lastGroup_symbols {values : List Nat} {count : Nat} {bs : Bytes} {unused : Nat}
    (h : Spells values count bs unused) (start : Nat) :
    lastGroup start (values.map symbolByte ++ List.replicate count pad) = .ok bs := by
  obtain ⟨hvalues, htwo, hfull, hunused, hlength, hnumber⟩ := h
  have hsplit : splitLast start 0 [] 0 0 (values.map symbolByte ++ List.replicate count pad)
      = .ok (values.map fun n => (symbolByte n, n), count) := by
    rw [splitLast_symbols start hvalues, splitLast_pads start count (by omega), List.append_nil,
      List.reverse_reverse, Nat.zero_add]
  have hbits : (values.map fun n => (symbolByte n, n)).foldl (fun n s => n * 64 + s.2) 0
      = Bytes.toNat bs * 2 ^ unused := by
    rw [List.foldl_map]
    exact hnumber
  have hmod : values.length * 6 % 8 = unused := by omega
  have hdiv : values.length * 6 / 8 = bs.length := by omega
  -- enough symbols, a full group, and nothing in the bits that are left over
  simp only [lastGroup, hsplit, bind, Except.bind, hbits, List.length_map, hmod, hdiv]
  rw [if_neg (by omega), if_neg (by omega),
    if_neg (not_not.2 (Nat.mul_mod_left _ _)), Nat.mul_div_cancel _ (Nat.two_pow_pos unused),
    Bytes.ofNat_toNat]
  rfl

/-- What is left at the end, up to four symbols, is one group. -/
theorem decodeOnto_short {group : Bytes} (h : group.length ≤ 4) (acc : Bytes) (offset : Nat) :
    decodeOnto acc offset group = (lastGroup offset group).map (acc.reverse ++ ·) := by
  match group, h with
  | [], _ => rfl
  | [_], _ => rfl
  | [_, _], _ => rfl
  | [_, _, _], _ => rfl
  | [_, _, _, _], _ => rfl

theorem encodeChars_symbols {values : List Nat} (h : ∀ n ∈ values, n < 64) (rest : List Char) :
    Utf8.encodeChars (values.map symbol ++ rest)
      = values.map symbolByte ++ Utf8.encodeChars rest := by
  induction values with
  | nil => rfl
  | cons n values ih =>
    rw [List.map_cons, List.cons_append, Utf8.encodeChars_cons,
      encodeChar_symbol (h n List.mem_cons_self),
      ih fun m hm => h m (List.mem_cons_of_mem n hm)]
    rfl

/-- The spelling of one to three bytes: their symbols and the padding. -/
theorem encode_short : ∀ bs : Bytes, bs ≠ [] → bs.length ≤ 3 →
    ∃ values count unused, Spells values count bs unused
      ∧ encode bs = values.map symbol ++ List.replicate count '='
  | [], hne, _ => absurd rfl hne
  | [a], _, _ => by
    -- a short group is cut from the group with zeros for the bytes that it lacks
    obtain ⟨p, q, r, s, hvalues, hgroup, hnumber⟩ := group_values a 0 0
    simp only [List.forall_mem_cons] at hvalues
    simp only [Bytes.toNat, List.foldl_cons, List.foldl_nil, UInt8.toNat_zero] at hnumber
    refine ⟨[p, q], 2, 4, ⟨?_, Nat.le_refl 2, rfl, by decide, ?_, ?_⟩, ?_⟩
    · exact List.forall_mem_cons.2 ⟨hvalues.1, List.forall_mem_singleton.2 hvalues.2.1⟩
    · simp only [List.length_cons, List.length_nil]
    · simp only [Bytes.toNat, List.foldl_cons, List.foldl_nil]
      omega
    · rw [encode, encodeOnto, hgroup]
      rfl
  | [a, b], _, _ => by
    obtain ⟨p, q, r, s, hvalues, hgroup, hnumber⟩ := group_values a b 0
    simp only [List.forall_mem_cons] at hvalues
    simp only [Bytes.toNat, List.foldl_cons, List.foldl_nil, UInt8.toNat_zero] at hnumber
    refine ⟨[p, q, r], 1, 2, ⟨?_, Nat.le_add_left 2 _, rfl, by decide, ?_, ?_⟩, ?_⟩
    · exact List.forall_mem_cons.2 ⟨hvalues.1,
        List.forall_mem_cons.2 ⟨hvalues.2.1, List.forall_mem_singleton.2 hvalues.2.2.1⟩⟩
    · simp only [List.length_cons, List.length_nil]
    · simp only [Bytes.toNat, List.foldl_cons, List.foldl_nil]
      omega
    · rw [encode, encodeOnto, hgroup]
      rfl
  | [a, b, c], _, _ => by
    obtain ⟨p, q, r, s, hvalues, hgroup, hnumber⟩ := group_values a b c
    refine ⟨[p, q, r, s], 0, 0, ⟨hvalues, Nat.le_add_left 2 _, rfl, by decide, ?_, ?_⟩, ?_⟩
    · simp only [List.length_cons, List.length_nil]
    · rw [← hnumber]
      simp only [List.foldl_cons, List.foldl_nil]
      omega
    · rw [encode_group, hgroup]
      rfl
  | _ :: _ :: _ :: _ :: _, _, h => by
    simp only [List.length_cons] at h
    omega

-- ========================================================== characters

/-- The characters that spellings are made of. -/
def IsSpelling (c : Char) : Prop :=
  c = '=' ∨ ∃ n < 64, c = symbol n

/-- What holds of the padding and of each symbol holds of all of them. -/
theorem IsSpelling.elim {P : Char → Prop} (hpad : P '=') (hsymbol : ∀ n < 64, P (symbol n))
    {c : Char} (h : IsSpelling c) : P c := by
  rcases h with rfl | ⟨n, hn, rfl⟩
  · exact hpad
  · exact hsymbol n hn

theorem IsSpelling.ascii {c : Char} (h : IsSpelling c) : c.toNat < 0x80 :=
  h.elim (P := fun c => c.toNat < 0x80) (by decide) fun _ => symbol_ascii

/-- The symbols of values are such characters. -/
theorem isSpelling_of_mem_map {values : List Nat} (h : ∀ n ∈ values, n < 64) {c : Char}
    (hc : c ∈ values.map symbol) : IsSpelling c := by
  obtain ⟨n, hn, rfl⟩ := List.mem_map.1 hc
  exact .inr ⟨n, h n hn, rfl⟩

theorem isSpelling_short {bs : Bytes} (hne : bs ≠ []) (h : bs.length ≤ 3) {c : Char}
    (hc : c ∈ encode bs) : IsSpelling c := by
  obtain ⟨values, count, unused, hspells, hencode⟩ := encode_short bs hne h
  rw [hencode] at hc
  rcases List.mem_append.1 hc with hc | hc
  · exact isSpelling_of_mem_map hspells.lt_of_mem hc
  · exact .inl (List.eq_of_mem_replicate hc)

/-- A spelling is made of symbols and padding. -/
theorem isSpelling_of_mem : ∀ {bs : Bytes} {c : Char}, c ∈ encode bs → IsSpelling c
  | [], _, h => by
    rw [encode, encodeOnto] at h
    exact absurd h List.not_mem_nil
  | [a], _, h => isSpelling_short (List.cons_ne_nil a []) (show 1 ≤ 3 by decide) h
  | [a, b], _, h => isSpelling_short (List.cons_ne_nil a [b]) (show 2 ≤ 3 by decide) h
  | a :: b :: c :: rest, d, h => by
    rw [encode_group, List.mem_append] at h
    rcases h with h | h
    · obtain ⟨p, q, r, s, hvalues, hgroup, -⟩ := group_values a b c
      rw [hgroup] at h
      exact isSpelling_of_mem_map hvalues h
    · exact isSpelling_of_mem h

/-- A spelling has a byte for each character. -/
theorem length_encodeChars_encode (bs : Bytes) :
    (Utf8.encodeChars (encode bs)).length = (encode bs).length :=
  Utf8.length_encodeChars_ascii fun _ hc => (isSpelling_of_mem hc).ascii

-- ============================================================= round trip

/-- One to three bytes are read back. -/
theorem decodeOnto_encode_short {bs : Bytes} (hne : bs ≠ []) (h : bs.length ≤ 3) (acc : Bytes)
    (offset : Nat) :
    decodeOnto acc offset (Utf8.encodeChars (encode bs)) = .ok (acc.reverse ++ bs) := by
  obtain ⟨values, count, unused, hspells, hencode⟩ := encode_short bs hne h
  have hpads : Utf8.encodeChars (List.replicate count '=') = List.replicate count pad := by
    rw [Utf8.encodeChars, List.flatMap_replicate]
    exact List.flatten_replicate_singleton
  have hlength : (values.map symbolByte ++ List.replicate count pad).length ≤ 4 := by
    rw [List.length_append, List.length_map, List.length_replicate]
    have := hspells.full
    omega
  rw [hencode, encodeChars_symbols hspells.lt_of_mem, hpads, decodeOnto_short hlength,
    lastGroup_symbols hspells]
  rfl

theorem encodeChars_encode_ne_nil {bs : Bytes} (h : bs ≠ []) :
    Utf8.encodeChars (encode bs) ≠ [] := by
  have hpos := List.length_pos_iff.2 h
  rw [← List.length_pos_iff, length_encodeChars_encode, length_encode]
  omega

/-- Groups are read back one after the other, up to the last. -/
theorem decodeOnto_encode : ∀ (bs : Bytes), bs ≠ [] → ∀ (acc : Bytes) (offset : Nat),
    decodeOnto acc offset (Utf8.encodeChars (encode bs)) = .ok (acc.reverse ++ bs)
  | [], hne, _, _ => absurd rfl hne
  | [_], hne, acc, offset => decodeOnto_encode_short hne (show 1 ≤ 3 by decide) acc offset
  | [_, _], hne, acc, offset => decodeOnto_encode_short hne (show 2 ≤ 3 by decide) acc offset
  | [_, _, _], hne, acc, offset => decodeOnto_encode_short hne (Nat.le_refl 3) acc offset
  -- that a group is not the last is only told by a byte that follows it
  | a :: b :: c :: d :: rest, _, acc, offset => by
    obtain ⟨p, q, r, s, hvalues, hgroup, hnumber⟩ := group_values a b c
    have hbytes : Utf8.encodeChars (encode (a :: b :: c :: d :: rest))
        = [p, q, r, s].map symbolByte ++ Utf8.encodeChars (encode (d :: rest)) := by
      rw [encode_group, hgroup]
      exact encodeChars_symbols hvalues _
    have ih := decodeOnto_encode (d :: rest) (List.cons_ne_nil d rest)
    obtain ⟨e, more, hmore⟩ :=
      List.exists_cons_of_ne_nil (encodeChars_encode_ne_nil (List.cons_ne_nil d rest))
    rw [hmore] at hbytes ih
    rw [hbytes]
    show (fullGroup offset (symbolByte p) (symbolByte q) (symbolByte r) (symbolByte s)).bind _ = _
    rw [fullGroup_symbols hvalues hnumber]
    show decodeOnto ([a, b, c].reverse ++ acc) (offset + 4) (e :: more) = _
    rw [ih, List.reverse_append, List.reverse_reverse, List.append_assoc]
    rfl

/-- The spelling of bytes has no byte too many. -/
theorem trailing?_encode (bs : Bytes) : trailing? (Utf8.encodeChars (encode bs)) = none := by
  rw [trailing?, length_encodeChars_encode, length_encode, if_neg (by omega)]

/-- Bytes are read back from their spelling. -/
theorem decode_encode (bs : Bytes) : decode (Utf8.encodeChars (encode bs)) = .ok bs := by
  by_cases h : bs = []
  · subst h
    rfl
  · have hne := encodeChars_encode_ne_nil h
    rw [decode, if_neg (by rwa [List.isEmpty_iff]), trailing?_encode]
    exact decodeOnto_encode bs h [] 0

end Enrollment.Base64
