/-
PEM: a block that was written is the first block that is read.

The markers are found because their first character, the dash, stands
neither in a tag nor in base64 (`splitAt?_skip`), and the data part is the
whole body because written lines are never blank (`divide_wrap`).
`frame?_encode` has any text after the block, so it serves for the first of
several blocks as well; `parse_encode` reads the contents back.
-/
import Enrollment.Pem
import Enrollment.Proofs.Base64
import Enrollment.Proofs.Except

namespace Enrollment.Pem

-- =============================================================== markers

/-- What is left of a marker is matched. -/
theorem splitOnto_marker (marker owed acc rest : List Char) :
    splitOnto marker owed acc (owed ++ rest)
      = some (((owed.reverse ++ acc).drop marker.length).reverse, rest) := by
  induction owed generalizing acc with
  | nil => rw [List.nil_append, splitOnto, List.reverse_nil, List.nil_append]
  | cons m owed ih =>
    rw [List.cons_append, splitOnto, if_pos rfl, ih, List.reverse_cons, List.append_assoc]
    rfl

/-- Characters that do not start a marker are read over. -/
theorem splitOnto_skip {m : Char} {marker front : List Char} (h : m ∉ front)
    (acc rest : List Char) :
    splitOnto (m :: marker) (m :: marker) acc (front ++ rest)
      = splitOnto (m :: marker) (m :: marker) (front.reverse ++ acc) rest := by
  induction front generalizing acc with
  | nil => rfl
  | cons c front ih =>
    have hc : c ≠ m := fun heq => h (heq ▸ List.mem_cons_self)
    have hfront : m ∉ front := fun hm => h (List.mem_cons_of_mem c hm)
    rw [List.cons_append, splitOnto, if_neg hc, ih hfront, List.reverse_cons, List.append_assoc]
    rfl

/-- A marker is found after characters that do not start it. -/
theorem splitAt?_skip {m : Char} {marker front : List Char} (h : m ∉ front) (rest : List Char) :
    splitAt? (m :: marker) (front ++ (m :: marker ++ rest)) = some (front, rest) := by
  rw [splitAt?, splitOnto_skip h, splitOnto_marker, List.append_nil, List.drop_left' (by simp),
    List.reverse_reverse]

/-- A block is framed by its markers when no dash stands in its tag or its body. -/
theorem frame?_block {tag gap body : List Char} (htag : '-' ∉ tag) (hbody : '-' ∉ body)
    (hgap : ∀ c ∈ gap, isGap c = true) (hfirst : ∀ c ∈ body.head?, isGap c = false)
    (rest : List Char) :
    frame? (beginMarker ++ (tag ++ (dashes ++ (gap ++ (body ++ (endMarker ++ (tag ++
        (dashes ++ rest)))))))) = some (⟨tag, body, tag⟩, rest.dropWhile isGap) := by
  have hopen (text : List Char) : splitAt? beginMarker (beginMarker ++ text) = some ([], text) :=
    splitAt?_skip (m := '-') List.not_mem_nil text
  have htagged (text : List Char) : splitAt? dashes (tag ++ (dashes ++ text)) = some (tag, text) :=
    splitAt?_skip (m := '-') htag text
  have hclose (text : List Char) :
      splitAt? endMarker (body ++ (endMarker ++ text)) = some (body, text) :=
    splitAt?_skip (m := '-') hbody text
  have hdrop (text : List Char) :
      (gap ++ (body ++ (endMarker ++ text))).dropWhile isGap = body ++ (endMarker ++ text) := by
    rw [List.dropWhile_append_of_pos hgap]
    cases body with
    | nil => rfl
    | cons c body => rw [List.cons_append, List.dropWhile_cons_of_neg (by rw [hfirst c rfl]; decide)]
  simp only [frame?, hopen, htagged, hdrop, hclose, Option.bind_eq_bind, Option.bind_some]
  rfl

-- ================================================================= lines

/-- The characters of lines are those of the text and of the line ends. -/
theorem mem_wrap {ending : LineEnd} {left : Nat} {cs : List Char} {c : Char}
    (h : c ∈ wrap ending left cs) : c ∈ cs ∨ c ∈ ending.chars := by
  fun_induction wrap ending left cs with
  | case1 => exact absurd h List.not_mem_nil
  | case2 => exact .inr h
  | case3 d cs ih =>
    rcases List.mem_append.1 h with h | h
    · exact .inr h
    · rcases List.mem_cons.1 h with rfl | h
      · exact .inl List.mem_cons_self
      · exact (ih h).imp_left (List.mem_cons_of_mem d)
  | case4 left d cs ih =>
    rcases List.mem_cons.1 h with rfl | h
    · exact .inl List.mem_cons_self
    · exact (ih h).imp_left (List.mem_cons_of_mem d)

/-- Line ends are all that dividing a text into lines adds. -/
theorem filter_wrap {p : Char → Bool} {ending : LineEnd} (h : ending.chars.filter p = [])
    (left : Nat) (cs : List Char) : (wrap ending left cs).filter p = cs.filter p := by
  fun_induction wrap ending left cs with
  | case1 => rfl
  | case2 => exact h
  | case3 d cs ih =>
    rw [List.filter_append, h, List.nil_append, List.filter_cons, List.filter_cons, ih]
  | case4 left d cs ih => rw [List.filter_cons, List.filter_cons, ih]

/-- The marks that divide a body into its headers and its data. -/
def IsDivision (marker : List Char) : Prop :=
  marker = ['\n', '\n'] ∨ marker = ['\r', '\n', '\r', '\n']

/-- No line of a text that was divided into lines is blank. -/
theorem splitOnto_wrap {marker : List Char} (hmarker : IsDivision marker) {ending : LineEnd}
    {left : Nat} {cs : List Char} (h : ∀ c ∈ cs, c ≠ '\n' ∧ c ≠ '\r') (acc : List Char) :
    splitOnto marker marker acc (wrap ending left cs) = none := by
  fun_induction wrap ending left cs generalizing acc with
  | case1 => rcases hmarker with rfl | rfl <;> rfl
  | case2 => rcases hmarker with rfl | rfl <;> cases ending <;> rfl
  | case3 c cs ih =>
    -- a line end matches at most half of the mark, and then a symbol comes
    obtain ⟨hn, hr⟩ := h c List.mem_cons_self
    have ih := ih fun d hd => h d (List.mem_cons_of_mem c hd)
    rcases hmarker with rfl | rfl <;> cases ending <;>
      simp [LineEnd.chars, splitOnto, hn, hr, ih]
  | case4 left c cs ih =>
    obtain ⟨hn, hr⟩ := h c List.mem_cons_self
    have ih := ih fun d hd => h d (List.mem_cons_of_mem c hd)
    rcases hmarker with rfl | rfl <;> simp [splitOnto, hn, hr, ih]

/-- Lines are all data. -/
theorem divide_wrap {ending : LineEnd} {left : Nat} {cs : List Char}
    (h : ∀ c ∈ cs, c ≠ '\n' ∧ c ≠ '\r') :
    divide (wrap ending left cs) = ([], wrap ending left cs) := by
  rw [divide, splitAt?, splitOnto_wrap (.inl rfl) h, splitAt?, splitOnto_wrap (.inr rfl) h]

-- ============================================================ round trip

/-- The characters of base64 are neither dashes nor white space. -/
theorem spelling_plain {c : Char} (h : Base64.IsSpelling c) :
    c ≠ '-' ∧ Text.isBlank c = false ∧ isGap c = false ∧ c ≠ '\n' ∧ c ≠ '\r' :=
  h.elim (P := fun c => c ≠ '-' ∧ Text.isBlank c = false ∧ isGap c = false ∧ c ≠ '\n' ∧ c ≠ '\r')
    (by decide +kernel) (by decide +kernel)

/-- The body of a block that is written. -/
def bodyOf (ending : LineEnd) (p : Pem) : List Char :=
  wrap ending columns (Base64.encode p.contents)

theorem plain_of_mem_encode {bs : Bytes} :
    ∀ c ∈ Base64.encode bs, c ≠ '\n' ∧ c ≠ '\r' := fun _ hc =>
  (spelling_plain (Base64.isSpelling_of_mem hc)).2.2.2

/-- Neither base64 nor a line end has a dash. -/
theorem dash_not_mem_bodyOf (ending : LineEnd) (p : Pem) : '-' ∉ bodyOf ending p := by
  intro hmem
  rcases mem_wrap hmem with h | h
  · exact (spelling_plain (Base64.isSpelling_of_mem h)).1 rfl
  · revert h
    cases ending <;> decide

/-- A block without its last line end. -/
def block (ending : LineEnd) (p : Pem) : List Char :=
  beginMarker ++ (p.tag.toList ++ (dashes ++ (ending.chars ++ (bodyOf ending p
    ++ (endMarker ++ (p.tag.toList ++ dashes))))))

theorem toList_encode (ending : LineEnd) (p : Pem) :
    (encode ending p).toList = block ending p ++ ending.chars := by
  rw [encode, String.toList_ofList]
  simp only [block, bodyOf, List.append_assoc]

theorem isGap_of_mem_chars (ending : LineEnd) : ∀ c ∈ ending.chars, isGap c = true :=
  List.all_eq_true.1 (by cases ending <;> decide)

/-- A block in front of any text is the first block of it, whether or not its last line
has an end. -/
theorem frame?_written {p : Pem} (htag : '-' ∉ p.tag.toList) (ending : LineEnd)
    (rest : List Char) :
    frame? (block ending p ++ rest)
      = some (⟨p.tag.toList, bodyOf ending p, p.tag.toList⟩, rest.dropWhile isGap) := by
  have hfirst : ∀ c ∈ (bodyOf ending p).head?, isGap c = false := by
    intro c hc
    cases hcs : Base64.encode p.contents with
    | nil =>
      rw [bodyOf, hcs] at hc
      cases hc
    | cons d cs =>
      rw [bodyOf, hcs] at hc
      cases hc
      exact (spelling_plain (Base64.isSpelling_of_mem (hcs ▸ List.mem_cons_self))).2.2.1
  rw [← frame?_block htag (dash_not_mem_bodyOf ending p) (isGap_of_mem_chars ending)
    hfirst rest]
  simp only [block, List.append_assoc]

theorem frame?_encode {p : Pem} (htag : '-' ∉ p.tag.toList) (ending : LineEnd)
    (rest : List Char) :
    frame? ((encode ending p).toList ++ rest)
      = some (⟨p.tag.toList, bodyOf ending p, p.tag.toList⟩, rest.dropWhile isGap) := by
  rw [toList_encode, List.append_assoc, frame?_written htag,
    List.dropWhile_append_of_pos (isGap_of_mem_chars ending)]

/-- The frame of a block that is written holds the block. -/
theorem ofFrame_encode {p : Pem} (hne : p.tag ≠ "") (ending : LineEnd) :
    ofFrame ⟨p.tag.toList, bodyOf ending p, p.tag.toList⟩ = .ok p := by
  have htag : p.tag.toList.isEmpty = false := by
    rw [List.isEmpty_eq_false_iff]
    intro h
    exact hne (String.toList_eq_nil_iff.1 h)
  have hfilter : (bodyOf ending p).filter (fun c => !Text.isBlank c)
      = Base64.encode p.contents := by
    rw [bodyOf, filter_wrap (by cases ending <;> rfl), List.filter_eq_self]
    intro c hc
    rw [(spelling_plain (Base64.isSpelling_of_mem hc)).2.1]
    rfl
  have hdivide : divide (bodyOf ending p) = ([], bodyOf ending p) :=
    divide_wrap plain_of_mem_encode
  simp only [ofFrame, htag, hdivide, hfilter, Base64.decode_encode, Bool.false_eq_true, if_false,
    ne_eq, not_true_eq_false]
  show Except.ok (⟨String.ofList p.tag.toList, p.contents⟩ : Pem) = _
  rw [String.ofList_toList]

/-- A block is read back. -/
theorem parse_encode {p : Pem} (hne : p.tag ≠ "") (htag : '-' ∉ p.tag.toList)
    (ending : LineEnd) : parse (encode ending p) = .ok p := by
  have hframe := frame?_encode htag ending []
  rw [List.append_nil] at hframe
  rw [parse, hframe]
  exact ofFrame_encode hne ending

/-- Text in front of a block is read over, if there is no dash in it. -/
theorem frame?_skip {front : List Char} (h : '-' ∉ front) (text : List Char) :
    frame? (front ++ (beginMarker ++ text)) = frame? (beginMarker ++ text) := by
  have hfront : splitAt? beginMarker (front ++ (beginMarker ++ text)) = some (front, text) :=
    splitAt?_skip (m := '-') h text
  have hopen : splitAt? beginMarker (beginMarker ++ text) = some ([], text) :=
    splitAt?_skip (m := '-') List.not_mem_nil text
  simp only [frame?, hfront, hopen, Option.bind_eq_bind, Option.bind_some]

/-- A block is read back from any text around it that has no dash in front of the block. -/
theorem parse_surrounded {p : Pem} (hne : p.tag ≠ "") (htag : '-' ∉ p.tag.toList)
    (ending : LineEnd) {front : String} (hfront : '-' ∉ front.toList) (behind : String) :
    parse (front ++ encode ending p ++ behind) = .ok p := by
  have hframe := frame?_encode htag ending behind.toList
  have hskip : frame? (front.toList ++ ((encode ending p).toList ++ behind.toList))
      = frame? ((encode ending p).toList ++ behind.toList) := by
    simp only [toList_encode, block, List.append_assoc]
    exact frame?_skip hfront _
  rw [parse, String.toList_append, String.toList_append, List.append_assoc, hskip, hframe]
  exact ofFrame_encode hne ending

-- ============================================================ many blocks

/-- Blocks written one after the other, each with line ends of its own. -/
def document (blocks : List (LineEnd × Pem)) : String :=
  String.join (blocks.map fun b => encode b.1 b.2)

theorem document_cons (b : LineEnd × Pem) (blocks : List (LineEnd × Pem)) :
    (document (b :: blocks)).toList = (encode b.1 b.2).toList ++ (document blocks).toList := by
  rw [document, List.map_cons, String.join_cons, String.toList_append]
  rfl

/-- The frame of a block that is written. -/
def frameOf (b : LineEnd × Pem) : Frame :=
  ⟨b.2.tag.toList, bodyOf b.1 b.2, b.2.tag.toList⟩

/-- A text of blocks does not start with anything that is skipped. -/
theorem dropWhile_document (blocks : List (LineEnd × Pem)) :
    (document blocks).toList.dropWhile isGap = (document blocks).toList := by
  cases blocks with
  | nil => rfl
  | cons b blocks =>
    rw [document_cons, encode, String.toList_ofList]
    exact List.dropWhile_cons_of_neg (by decide)

theorem frames_of_frame? {text rest : List Char} {f : Frame} (h : frame? text = some (f, rest)) :
    frames text = f :: frames rest := by
  rw [frames]
  split
  case h_1 hfound =>
    cases h.symm.trans hfound
    rfl
  case h_2 hnone => cases h.symm.trans hnone

theorem frames_of_none {text : List Char} (h : frame? text = none) : frames text = [] := by
  rw [frames]
  split
  case h_1 hfound => cases h.symm.trans hfound
  case h_2 => rfl

/-- The blocks of a text that was written of them are found one by one. -/
theorem frames_document {blocks : List (LineEnd × Pem)}
    (htag : ∀ b ∈ blocks, '-' ∉ b.2.tag.toList) :
    frames (document blocks).toList = blocks.map frameOf := by
  induction blocks with
  | nil => exact frames_of_none rfl
  | cons b blocks ih =>
    have hrest := ih fun d hd => htag d (List.mem_cons_of_mem _ hd)
    have hframe := frame?_encode (htag b List.mem_cons_self) b.1 (document blocks).toList
    rw [dropWhile_document] at hframe
    rw [document_cons, frames_of_frame? hframe, hrest]
    rfl

/-- The frames of blocks that are written hold the blocks. -/
theorem parseMany_of_frames {text : String} {blocks : List (LineEnd × Pem)}
    (hne : ∀ b ∈ blocks, b.2.tag ≠ "") (h : frames text.toList = blocks.map frameOf) :
    parseMany text = .ok (blocks.map (·.2)) := by
  have hread : (blocks.map frameOf).mapM ofFrame = .ok (blocks.map (·.2)) :=
    mapM_map_eq_pure fun b hb => ofFrame_encode (hne b hb) b.1
  rw [parseMany, h, hread]

/-- Blocks that are written one after the other are read back. -/
theorem parseMany_document {blocks : List (LineEnd × Pem)} (hne : ∀ b ∈ blocks, b.2.tag ≠ "")
    (htag : ∀ b ∈ blocks, '-' ∉ b.2.tag.toList) :
    parseMany (document blocks) = .ok (blocks.map (·.2)) :=
  parseMany_of_frames hne (frames_document htag)

-- ================================================================== sizes

/-- Dividing a text into lines adds at most two characters for each of it, and
two at its end. -/
theorem length_wrap_le (ending : LineEnd) (left : Nat) (cs : List Char) :
    (wrap ending left cs).length ≤ 3 * cs.length + 2 := by
  have hending : ending.chars.length ≤ 2 := by cases ending <;> decide
  fun_induction wrap ending left cs with
  | case1 => exact Nat.zero_le _
  | case2 => rw [List.length_nil]; omega
  | case3 c cs ih =>
    rw [List.length_append, List.length_cons, List.length_cons]
    omega
  | case4 left c cs ih =>
    rw [List.length_cons, List.length_cons]
    omega

/-- Dividing a text into lines leaves nothing out. -/
theorem length_le_length_wrap (ending : LineEnd) (left : Nat) (cs : List Char) :
    cs.length ≤ (wrap ending left cs).length := by
  fun_induction wrap ending left cs with
  | case1 => exact Nat.zero_le _
  | case2 => exact Nat.zero_le _
  | case3 c cs ih =>
    rw [List.length_append, List.length_cons, List.length_cons]
    omega
  | case4 left c cs ih =>
    rw [List.length_cons, List.length_cons]
    omega

/-- A block takes the place of its lines and of the markers. -/
theorem size_encode {p : Pem} (htag : ∀ c ∈ p.tag.toList, c.toNat < 0x80) (ending : LineEnd) :
    Utf8.size (encode ending p) = (wrap ending columns (Base64.encode p.contents)).length
      + 2 * p.tag.toList.length + 2 * ending.chars.length + 30 := by
  have hending : ∀ c ∈ ending.chars, c.toNat < 0x80 :=
    Utf8.ascii_of_all (by cases ending <;> decide)
  have hmarkers : ∀ c ∈ beginMarker ++ endMarker ++ dashes, c.toNat < 0x80 :=
    Utf8.ascii_of_all (by decide +kernel)
  simp only [List.forall_mem_append] at hmarkers
  have hlines : ∀ c ∈ wrap ending columns (Base64.encode p.contents), c.toNat < 0x80 := by
    intro c hc
    rcases mem_wrap hc with hc | hc
    · exact (Base64.isSpelling_of_mem hc).ascii
    · exact hending c hc
  have hascii : ∀ c ∈ (encode ending p).toList, c.toNat < 0x80 := by
    simp only [encode, String.toList_ofList, List.forall_mem_append]
    exact ⟨⟨⟨⟨⟨⟨⟨⟨hmarkers.1.1, htag⟩, hmarkers.2⟩, hending⟩, hlines⟩, hmarkers.1.2⟩, htag⟩,
      hmarkers.2⟩, hending⟩
  have hbegin : beginMarker.length = 11 := by decide
  have hend : endMarker.length = 9 := by decide
  have hdashes : dashes.length = 5 := by decide
  rw [Utf8.size_eq_length, Utf8.length_encodeChars_ascii hascii, encode, String.toList_ofList]
  simp only [List.length_append, hbegin, hend, hdashes]
  omega

/-- A block takes at most four times the place of its contents, and the markers. -/
theorem size_encode_le {p : Pem} (htag : ∀ c ∈ p.tag.toList, c.toNat < 0x80) (ending : LineEnd) :
    Utf8.size (encode ending p) ≤ 4 * p.contents.length + 2 * p.tag.toList.length + 44 := by
  have hlength : ending.chars.length ≤ 2 := by cases ending <;> decide
  have hwrap := length_wrap_le ending columns (Base64.encode p.contents)
  rw [Base64.length_encode] at hwrap
  rw [size_encode htag]
  omega

/-- A block takes at least the place of its contents. -/
theorem length_contents_le {p : Pem} (htag : ∀ c ∈ p.tag.toList, c.toNat < 0x80)
    (ending : LineEnd) : p.contents.length ≤ Utf8.size (encode ending p) := by
  have hwrap := length_le_length_wrap ending columns (Base64.encode p.contents)
  rw [Base64.length_encode] at hwrap
  rw [size_encode htag]
  omega

end Enrollment.Pem
