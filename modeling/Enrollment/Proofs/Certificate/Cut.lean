/-
Documents that were cut off: how many certificates are read of them.

Four runs of dashes make a block, so what has fewer dashes is none
(`twenty_le_count`), and of a block that is written every dash but the last can be
kept without one being found (`frame?_of_cut`).  A text that is cut off is
therefore read as the blocks that are whole in it, and reading stops at the block
that is not (`frames_cut`).

For a chain this means that the certificates in front of the cut are read as if
nothing had been behind them (`read_of_cut`).  Nobody is told of the others, unless
the cut is inside the first block (`ofPem_cut`).
-/
import Enrollment.Proofs.Certificate.Chain

namespace Enrollment

namespace Pem

-- ================================================================= dashes

variable {marker owed acc text before rest : List Char}

/-- What a marker is made of stands in the text in front of what is left. -/
theorem count_of_splitOnto (howed : owed <:+ marker)
    (h : splitOnto marker owed acc text = some (before, rest)) (c : Char) :
    owed.count c + rest.count c ≤ text.count c := by
  induction text generalizing owed acc with
  | nil =>
    cases owed with
    | nil =>
      cases h
      exact Nat.le_refl _
    | cons m owed => cases h
  | cons d text ih =>
    cases owed with
    | nil =>
      cases h
      rw [List.count_nil, Nat.zero_add]
    | cons m owed =>
      rw [splitOnto] at h
      split at h
      case isTrue hmatch =>
        have hrest := ih ((List.suffix_cons m owed).trans howed) h
        rw [hmatch, List.count_cons, List.count_cons]
        omega
      case isFalse =>
        -- the marker is matched anew, so all of it is still to come
        have hrest := ih (List.suffix_refl marker) h
        have hle := howed.sublist.count_le c
        have htext := List.count_le_count_cons (a := c) (b := d) (l := text)
        omega

/-- Where a text is split, no character is there more often than before. -/
theorem count_of_splitAt? (h : splitAt? marker text = some (before, rest)) (c : Char) :
    marker.count c + rest.count c ≤ text.count c :=
  count_of_splitOnto (List.suffix_refl marker) h c

theorem count_markers :
    beginMarker.count '-' = 5 ∧ endMarker.count '-' = 5 ∧ dashes.count '-' = 5 := by decide

/-- A block has four runs of five dashes. -/
theorem twenty_le_count {f : Frame} (h : frame? text = some (f, rest)) :
    20 ≤ text.count '-' := by
  simp only [frame?, Option.bind_eq_bind, Option.bind_eq_some_iff] at h
  obtain ⟨⟨_, afterBegin⟩, hbegin, ⟨_, afterTag⟩, htag, ⟨_, afterEnd⟩, hend, ⟨_, after⟩, hclose,
    -⟩ := h
  dsimp only at htag hend hclose
  have hskip : (afterTag.dropWhile isGap).count '-' ≤ afterTag.count '-' :=
    (List.dropWhile_sublist isGap).count_le '-'
  have h₁ := count_of_splitAt? hbegin '-'
  have h₂ := count_of_splitAt? htag '-'
  have h₃ := count_of_splitAt? hend '-'
  have h₄ := count_of_splitAt? hclose '-'
  have hmarkers := count_markers
  omega

-- ================================================================= blocks

theorem block_ne_nil (ending : LineEnd) (p : Pem) : block ending p ≠ [] :=
  List.append_ne_nil_of_left_ne_nil (by decide) _

/-- A block has four times five dashes, if its tag has none. -/
theorem count_block {p : Pem} (htag : '-' ∉ p.tag.toList) (ending : LineEnd) :
    (block ending p).count '-' = 20 := by
  have hbody : (bodyOf ending p).count '-' = 0 :=
    List.count_eq_zero.2 (dash_not_mem_bodyOf ending p)
  have hending : ending.chars.count '-' = 0 := by cases ending <;> decide
  simp only [block, List.count_append, List.count_eq_zero.2 htag, hbody, hending, count_markers]

/-- No block is found in a block that is not whole: the last dash at least is missing. -/
theorem frame?_of_cut {p : Pem} (htag : '-' ∉ p.tag.toList) {ending : LineEnd}
    (h : text <+: block ending p) (hne : text ≠ block ending p) : frame? text = none := by
  obtain ⟨missing, hblock⟩ := h
  have hmissing : missing ≠ [] := by
    rintro rfl
    exact hne ((List.append_nil text).symm.trans hblock)
  have hlast : missing.getLast hmissing = '-' := by
    have hdashes : (block ending p).getLast? = some '-' := by
      simp only [block, List.getLast?_append]
      rfl
    rw [← hblock, List.getLast?_append_of_ne_nil _ hmissing,
      List.getLast?_eq_some_getLast hmissing] at hdashes
    exact Option.some.inj hdashes
  have hdash : 0 < missing.count '-' :=
    List.count_pos_iff.2 (hlast ▸ List.getLast_mem hmissing)
  have hcount := count_block htag ending
  rw [← hblock, List.count_append] at hcount
  cases hframe : frame? text with
  | none => rfl
  | some found =>
    have := twenty_le_count hframe
    omega

-- =============================================================== documents

/-- What a text of blocks begins with does not start with anything that is skipped. -/
theorem dropWhile_of_prefix {blocks : List (LineEnd × Pem)}
    (h : text <+: (document blocks).toList) : text.dropWhile isGap = text := by
  obtain ⟨missing, hdocument⟩ := h
  cases text with
  | nil => rfl
  | cons c text =>
    have hkept := dropWhile_document blocks
    rw [← hdocument, List.cons_append] at hkept
    have hc : ¬isGap c = true := by
      intro hgap
      rw [List.dropWhile_cons_of_pos hgap] at hkept
      have hle := dropWhile_length_le isGap (text ++ missing)
      rw [hkept, List.length_cons] at hle
      omega
    exact List.dropWhile_cons_of_neg hc

/-- Where the first block is whole it is found, and what is left then is the beginning of
the blocks behind it. -/
theorem exists_left {b : LineEnd × Pem} {blocks : List (LineEnd × Pem)}
    (htag : '-' ∉ b.2.tag.toList) (h : text <+: (document (b :: blocks)).toList)
    (hwhole : block b.1 b.2 <+: text) :
    ∃ left, left <+: (document blocks).toList ∧ frame? text = some (frameOf b, left)
      ∧ ∀ more ≠ [], (encode b.1 b.2).toList ++ more <+: text ↔ more <+: left := by
  obtain ⟨after, rfl⟩ := hwhole
  have hframe := frame?_written htag b.1 after
  rw [document_cons, toList_encode, List.append_assoc, List.prefix_append_right_inj] at h
  rcases List.prefix_or_prefix_of_prefix h (List.prefix_append b.1.chars _) with
    hend | ⟨left, rfl⟩
  · -- nothing is left but a part of the line end
    have hnone : after.dropWhile isGap = [] :=
      List.dropWhile_eq_nil_iff.2 fun c hc => isGap_of_mem_chars b.1 c (hend.subset hc)
    refine ⟨[], List.nil_prefix, by rw [hframe, hnone]; rfl, fun more hmore => ?_⟩
    rw [toList_encode, List.append_assoc, List.prefix_append_right_inj, List.prefix_nil]
    refine ⟨fun hmore' => ?_, fun hnil => absurd hnil hmore⟩
    have hle := hmore'.length_le
    have hlength := hend.length_le
    rw [List.length_append] at hle
    exact List.length_eq_zero_iff.1 (by omega)
  · rw [List.prefix_append_right_inj] at h
    refine ⟨left, h, ?_, fun more _ => ?_⟩
    · rw [hframe, List.dropWhile_append_of_pos (isGap_of_mem_chars b.1), dropWhile_of_prefix h]
      rfl
    · rw [toList_encode, List.append_assoc, List.prefix_append_right_inj,
        List.prefix_append_right_inj]

/-- Of a text of blocks that was cut off, those blocks are found that are whole in it. -/
theorem frames_cut {blocks : List (LineEnd × Pem)} (htag : ∀ b ∈ blocks, '-' ∉ b.2.tag.toList)
    (h : text <+: (document blocks).toList) :
    ∃ n ≤ blocks.length, frames text = (blocks.take n).map frameOf
      ∧ ∀ front b, front ++ [b] <+: blocks →
        (front.length < n ↔ (document front).toList ++ block b.1 b.2 <+: text) := by
  induction blocks generalizing text with
  | nil =>
    cases List.prefix_nil.1 h
    refine ⟨0, Nat.le_refl 0, frames_of_none rfl, fun front b hfront => ?_⟩
    exact absurd (List.prefix_nil.1 hfront) (List.append_ne_nil_of_right_ne_nil _ (by simp))
  | cons b blocks ih =>
    have hfirst : '-' ∉ b.2.tag.toList := htag b List.mem_cons_self
    by_cases hwhole : block b.1 b.2 <+: text
    · -- the first block is whole, and what is left of the text is cut in the others
      obtain ⟨left, hleft, hframe, hmore⟩ := exists_left hfirst h hwhole
      obtain ⟨n, hn, hframes, hplaces⟩ := ih (fun d hd => htag d (List.mem_cons_of_mem _ hd)) hleft
      refine ⟨n + 1, Nat.succ_le_succ hn, ?_, fun front d hfront => ?_⟩
      · rw [frames_of_frame? hframe, hframes, List.take_succ_cons, List.map_cons]
      · cases front with
        | nil =>
          obtain ⟨rfl, -⟩ := List.cons_prefix_cons.1 hfront
          exact ⟨fun _ => hwhole, fun _ => Nat.succ_pos n⟩
        | cons e front =>
          obtain ⟨rfl, hrest⟩ := List.cons_prefix_cons.1 hfront
          rw [List.length_cons, Nat.succ_lt_succ_iff, hplaces front d hrest, document_cons,
            List.append_assoc, hmore _ (List.append_ne_nil_of_right_ne_nil _ (block_ne_nil _ _))]
    · -- the first block is cut, so that there is none
      have hcut : text <+: block b.1 b.2 := by
        rw [document_cons, toList_encode, List.append_assoc] at h
        exact (List.prefix_or_prefix_of_prefix h (List.prefix_append _ _)).resolve_right hwhole
      have hne : text ≠ block b.1 b.2 := fun heq => hwhole (heq ▸ List.prefix_refl text)
      refine ⟨0, Nat.zero_le _, frames_of_none (frame?_of_cut hfirst hcut hne),
        fun front d hfront => ⟨fun hlt => absurd hlt (Nat.not_lt_zero _), fun hd => ?_⟩⟩
      refine absurd (List.IsPrefix.trans ?_ hd) hwhole
      cases front with
      | nil =>
        obtain ⟨rfl, -⟩ := List.cons_prefix_cons.1 hfront
        exact List.prefix_refl _
      | cons e front =>
        obtain ⟨rfl, -⟩ := List.cons_prefix_cons.1 hfront
        rw [document_cons, toList_encode, List.append_assoc, List.append_assoc]
        exact List.prefix_append _ _

end Pem

-- ================================================================= chains

namespace Chain

/-- The blocks of certificates, one after the other. -/
def written (certificates : List Certificate) : List Char :=
  (String.join (certificates.map Certificate.pem)).toList

/-- The line that opens a block. -/
def beginLine : List Char := "-----BEGIN CERTIFICATE-----".toList

/-- The block of a certificate, without the end of its last line. -/
def blockOf (x : Certificate) : List Char :=
  Pem.block .crlf ⟨Certificate.blockTag, x.der⟩

/-- Has the text the line that opens the block behind those of the certificates in
front? -/
def Begun (text : String) (front : List Certificate) : Prop :=
  written front ++ beginLine <+: text.toList

/-- Has the text the block of the certificate behind those in front? -/
def Whole (text : String) (front : List Certificate) (x : Certificate) : Prop :=
  written front ++ blockOf x <+: text.toList

/-- The text ends inside the block of the certificate behind those in front. -/
def CutInside (text : String) (front : List Certificate) (x : Certificate) : Prop :=
  ∃ cut, cut ≠ [] ∧ cut ≠ blockOf x ∧ cut <+: blockOf x ∧ text.toList = written front ++ cut

variable {text : String} {front : List Certificate} {x : Certificate}

theorem written_append (front back : List Certificate) :
    written (front ++ back) = written front ++ written back := by
  rw [written, List.map_append, String.join_append, String.toList_append]
  rfl

theorem written_singleton (x : Certificate) : written [x] = (Certificate.pem x).toList := by
  rw [written, List.map_singleton, String.join_cons, String.join_nil, String.append_empty]

theorem blockOf_begins (x : Certificate) : blockOf x <+: written [x] := by
  rw [written_singleton]
  exact ⟨_, (Pem.toList_encode .crlf _).symm⟩

theorem beginLine_begins (x : Certificate) : beginLine <+: blockOf x := by
  have hhead : beginLine = Pem.beginMarker ++ (Certificate.blockTag.toList ++ Pem.dashes) := by
    decide
  rw [hhead, blockOf, Pem.block, ← List.append_assoc Certificate.blockTag.toList,
    List.prefix_append_right_inj]
  exact List.prefix_append _ _

/-- Of a chain that was cut off, the certificates are read whose blocks are whole. -/
theorem read_of_cut {c : Chain} (h : text.toList <+: c.pem.toList) :
    ∃ n ≤ c.length, ofPem text = ofDers ((c.toList.take n).map (·.der))
      ∧ ∀ front x, front ++ [x] <+: c.toList → (front.length < n ↔ Whole text front x) := by
  rw [pem, ← document_blocksOf] at h
  obtain ⟨n, hn, hframes, hplaces⟩ := Pem.frames_cut dash_not_mem_of_mem_blocksOf h
  rw [blocksOf, ← List.map_take] at hframes
  refine ⟨n, by rwa [blocksOf, List.length_map] at hn, ?_, fun front x hfront => ?_⟩
  · rw [ofPem, Pem.parseMany_of_frames tag_ne_of_mem_blocksOf hframes]
    exact congrArg ofDers (contents_blocksOf _)
  · have hblocks : blocksOf front ++ [(.crlf, ⟨Certificate.blockTag, x.der⟩)]
        <+: blocksOf c.toList := by
      have hmap : blocksOf (front ++ [x]) <+: blocksOf c.toList := hfront.map _
      rwa [blocksOf, List.map_append] at hmap
    have hplace := hplaces _ _ hblocks
    rwa [document_blocksOf, blocksOf, List.length_map] at hplace

/-- Blocks in front of the cut are whole. -/
theorem whole_of_cutInside {y : Certificate} (h : CutInside text (front ++ [y]) x) :
    Whole text front y := by
  obtain ⟨cut, -, -, -, htext⟩ := h
  rw [Whole, htext, written_append, List.append_assoc, List.prefix_append_right_inj]
  exact (blockOf_begins y).trans (List.prefix_append _ _)

/-- The block the text ends in is not. -/
theorem not_whole_of_cutInside (h : CutInside text front x) : ¬Whole text front x := by
  obtain ⟨cut, -, hne, hcut, htext⟩ := h
  intro hwhole
  rw [Whole, htext, List.prefix_append_right_inj] at hwhole
  exact hne (hcut.eq_of_length_le hwhole.length_le)

/-- The outcome of reading one: a chain of the certificates whose blocks are whole, or a
failure if none is. -/
theorem ofPem_of_cut {c : Chain} (h : text.toList <+: c.pem.toList) :
    ∃ n ≤ c.length,
      (∀ front x, front ++ [x] <+: c.toList → (front.length < n ↔ Whole text front x))
        ∧ (n = 0 → ofPem text = .error (.protocol .emptyChain))
        ∧ (0 < n → ∃ d : Chain, ofPem text = .ok d ∧ d.toList = c.toList.take n) := by
  obtain ⟨n, hn, hread, hplaces⟩ := read_of_cut h
  refine ⟨n, hn, hplaces, fun hzero => ?_, fun hpos => ?_⟩
  · rw [hread, hzero]
    rfl
  · have hlength : (c.toList.take n).length = n := List.length_take_of_le hn
    have hne : c.toList.take n ≠ [] := List.length_pos_iff.1 (hlength.symm ▸ hpos)
    obtain ⟨d, hd⟩ := exists_toList_eq hne (hlength.symm ▸ Nat.le_trans hn c.length_le)
    exact ⟨d, by rw [hread, ← hd, ofDers_toList], hd⟩

/-- Every certificate that has begun is read if the last block that has begun is whole,
and only then, unless nothing is read. -/
theorem begun_read_iff {c : Chain} (h : text.toList <+: c.pem.toList) :
    (∀ d : Chain, ofPem text = .ok d →
        ∀ front x, front ++ [x] <+: c.toList → Begun text front → front ++ [x] <+: d.toList)
      ↔ ¬Whole text [] c.leaf
        ∨ ∀ front x, front ++ [x] <+: c.toList → Begun text front → Whole text front x := by
  obtain ⟨n, -, hplaces, hnone, hsome⟩ := ofPem_of_cut h
  have hleaf : 0 < n ↔ Whole text [] c.leaf := hplaces [] c.leaf (List.prefix_append [c.leaf] _)
  rcases Nat.eq_zero_or_pos n with hzero | hpos
  · refine ⟨fun _ => .inl (mt hleaf.2 (by omega)), fun _ d hd => ?_⟩
    cases hd.symm.trans (hnone hzero)
  · obtain ⟨e, he, hlist⟩ := hsome hpos
    constructor
    · intro hall
      refine .inr fun front x hfront hbegun => (hplaces front x hfront).1 ?_
      have hle := (hlist ▸ hall e he front x hfront hbegun).length_le
      rw [List.length_append, List.length_take, List.length_singleton] at hle
      omega
    · intro hor d hd front x hfront hbegun
      cases hd.symm.trans he
      have hwhole := hor.resolve_left (not_not.2 (hleaf.1 hpos)) front x hfront hbegun
      rw [hlist, List.prefix_take_iff, List.length_append]
      exact ⟨hfront, (hplaces front x hfront).2 hwhole⟩

/-- A cut inside a block is noticed if it is the first one, and at no other. -/
theorem fails_iff_of_cutInside {c : Chain} (h : text.toList <+: c.pem.toList)
    (hfront : front ++ [x] <+: c.toList) (hcut : CutInside text front x) :
    (∃ failure, ofPem text = .error failure) ↔ front = [] := by
  obtain ⟨n, -, hplaces, hnone, hsome⟩ := ofPem_of_cut h
  constructor
  · rintro ⟨failure, hfailure⟩
    rcases List.eq_nil_or_concat front with rfl | ⟨behind, y, rfl⟩
    · rfl
    · rw [List.concat_eq_append] at hcut hfront
      have hwhole := (hplaces behind y ((List.prefix_append _ _).trans hfront)).2
        (whole_of_cutInside hcut)
      obtain ⟨d, hd, -⟩ := hsome (by omega)
      cases hfailure.symm.trans hd
  · rintro rfl
    have hzero : ¬0 < n := fun hpos =>
      not_whole_of_cutInside hcut ((hplaces [] x hfront).1 hpos)
    exact ⟨_, hnone (by omega)⟩

/-- A text that a chain's document was cut off to is read as the chain of the
certificates whose blocks are whole in it, and as nothing if none is.  So it is read
without a certificate that has begun in it exactly if the cut is behind the first block
and the last block that has begun is not whole. -/
theorem ofPem_cut (c : Chain) {text : String} (h : text.toList <+: c.pem.toList) :
    (∃ n ≤ c.length,
        (∀ front x, front ++ [x] <+: c.toList → (front.length < n ↔ Whole text front x))
          ∧ (n = 0 → ofPem text = .error (.protocol .emptyChain))
          ∧ (0 < n → ∃ d : Chain, ofPem text = .ok d ∧ d.toList = c.toList.take n))
      ∧ ((∀ d : Chain, ofPem text = .ok d →
            ∀ front x, front ++ [x] <+: c.toList → Begun text front → front ++ [x] <+: d.toList)
          ↔ ¬Whole text [] c.leaf
            ∨ ∀ front x, front ++ [x] <+: c.toList → Begun text front → Whole text front x)
      ∧ ∀ front x, front ++ [x] <+: c.toList → CutInside text front x →
          ((∃ failure, ofPem text = .error failure) ↔ front = []) :=
  ⟨ofPem_of_cut h, begun_read_iff h, fun _ _ hfront hcut => fails_iff_of_cutInside h hfront hcut⟩

-- ============================================================ small samples

/-- The document of a chain of two, cut off behind the line that opens its second block. -/
def half : String := String.ofList (written [.double] ++ beginLine)

theorem toList_half : half.toList = written [.double] ++ beginLine := String.toList_ofList

theorem half_cut : half.toList <+: double.pem.toList := by
  have hpem : double.pem.toList = written [.double] ++ written [.small] :=
    written_append [.double] [.small]
  rw [hpem, toList_half, List.prefix_append_right_inj]
  exact (beginLine_begins .small).trans (blockOf_begins .small)

theorem cutInside_half : CutInside half [.double] .small := by
  have hne : beginLine ≠ blockOf .small := by
    intro heq
    have hcount := Pem.count_block (p := ⟨Certificate.blockTag, Certificate.small.der⟩)
      (by decide) .crlf
    rw [← blockOf, ← heq] at hcount
    exact absurd hcount (by decide)
  exact ⟨beginLine, by decide, hne, beginLine_begins .small, toList_half⟩

/-- This half is read as a chain of one, although the second certificate has begun in it. -/
theorem ofPem_half :
    half.toList <+: double.pem.toList ∧ double.toList = [.double, .small]
      ∧ Begun half [.double] ∧ CutInside half [.double] .small
      ∧ ∃ d : Chain, ofPem half = .ok d ∧ d.toList = [.double] ∧ .small ∉ d.toList := by
  obtain ⟨n, hn, hread, hplaces⟩ := read_of_cut half_cut
  have hfirst : 0 < n := (hplaces [] .double ⟨[.small], rfl⟩).2 (whole_of_cutInside cutInside_half)
  have hsecond : ¬1 < n := fun h =>
    not_whole_of_cutInside cutInside_half ((hplaces [.double] .small ⟨[], rfl⟩).1 h)
  obtain rfl : n = 1 := by omega
  have hbegun : Begun half [.double] := ⟨[], by rw [List.append_nil, toList_half]⟩
  refine ⟨half_cut, rfl, hbegun, cutInside_half,
    ⟨.double, [], by decide⟩, ?_, rfl, fun h => ?_⟩
  · exact hread.trans (ofDers_toList ⟨.double, [], by decide⟩)
  · have hne : Certificate.small.der ≠ Certificate.double.der := by decide +kernel
    exact hne (congrArg Certificate.der (List.mem_singleton.1 h))

/-- The same by the general result, which tells besides that a cut inside the first block
is noticed and this one is not. -/
theorem ofPem_cut_half :
    half.toList <+: double.pem.toList ∧ ¬∃ failure, ofPem half = .error failure := by
  refine ⟨half_cut, fun h => ?_⟩
  have hfront := ((ofPem_cut double half_cut).2.2 [.double] .small ⟨[], rfl⟩ cutInside_half).1 h
  cases hfront

end Chain

end Enrollment
