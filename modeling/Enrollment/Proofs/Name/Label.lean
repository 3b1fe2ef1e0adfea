/-
Labels: what stands for an attribute type in the text of a name.

A label is made of few characters, none of which separates the parts of a name
(`not_mem_label`).  Two types have one label only if they stand for the same
arcs, or have the same bytes where these are no arcs (`same_of_label_eq`).  The
other way round this is not so: a type in an unusual spelling has its arcs for
a label.
-/
import Enrollment.Name.Label
import Enrollment.Proofs.Bytes
import Mathlib.Logic.Function.Basic

namespace Enrollment

open Der

-- ================================================================== texts

namespace Text

/-- Numbers are told apart by their digits. -/
theorem decimal_injective {m n : Nat} (h : decimal m = decimal n) : m = n := by
  have hdigits : Nat.toDigits 10 m = Nat.toDigits 10 n := String.ofList_injective h
  rw [← Nat.ofDigitChars_toDigits (b := 10) (n := m) (by decide) (by decide), hdigits,
    Nat.ofDigitChars_toDigits (by decide) (by decide)]

theorem isDigit_of_mem_decimal {n : Nat} {c : Char} (h : c ∈ (decimal n).toList) :
    c.isDigit = true := by
  rw [decimal, String.toList_ofList] at h
  exact Nat.isDigit_of_mem_toDigits (by decide) (Nat.le_refl 10) h

theorem toList_decimal_ne_nil (n : Nat) : (decimal n).toList ≠ [] := by
  rw [decimal, String.toList_ofList]
  exact Nat.toDigits_ne_nil

/-- What is in a text of parts is in a part or between them. -/
theorem mem_intercalate {c : Char} {separator : String} {parts : List String}
    (h : c ∈ (separator.intercalate parts).toList) :
    c ∈ separator.toList ∨ ∃ part ∈ parts, c ∈ part.toList := by
  rw [String.toList_intercalate] at h
  induction parts with
  | nil => simp at h
  | cons part parts ih =>
    cases parts with
    | nil =>
      rw [List.map_singleton, List.intercalate_singleton] at h
      exact .inr ⟨part, List.mem_cons_self, h⟩
    | cons next parts =>
      rw [List.map_cons, List.map_cons, List.intercalate_cons_cons, List.mem_append,
        List.mem_append] at h
      rcases h with (hpart | hseparator) | hrest
      · exact .inr ⟨part, List.mem_cons_self, hpart⟩
      · exact .inl hseparator
      · exact (ih hrest).imp_right fun ⟨other, hother, hc⟩ =>
          ⟨other, List.mem_cons_of_mem _ hother, hc⟩

/-- A text is told apart into its parts, if these are not empty and have no separator. -/
theorem intercalate_map_injective {α : Type} {c : Char} {f : α → List Char} (hne : ∀ a, f a ≠ [])
    (hc : ∀ a, c ∉ f a) (hf : ∀ a b, f a = f b → a = b) {as bs : List α}
    (h : [c].intercalate (as.map f) = [c].intercalate (bs.map f)) : as = bs := by
  have hnil : ∀ cs : List α, [c].intercalate (cs.map f) = [] → cs = [] := by
    intro cs hcs
    cases cs with
    | nil => rfl
    | cons a cs =>
      cases cs with
      | nil => exact absurd (List.intercalate_singleton.symm.trans hcs) (hne a)
      | cons b cs =>
        rw [List.map_cons, List.map_cons, List.intercalate_cons_cons, List.append_assoc] at hcs
        exact absurd (List.append_eq_nil_iff.1 hcs).1 (hne a)
  have hparts : ∀ cs : List α, ∀ part ∈ cs.map f, c ∉ part := fun cs =>
    List.forall_mem_map.2 fun a _ => hc a
  by_cases has : as = []
  · rw [has] at h
    rw [has, hnil bs h.symm]
  by_cases hbs : bs = []
  · rw [hbs] at h
    rw [hbs, hnil as h]
  · have hsplit : as.map f = bs.map f := by
      rw [← List.splitOn_intercalate c (hparts as) (mt List.map_eq_nil_iff.1 has), h,
        List.splitOn_intercalate c (hparts bs) (mt List.map_eq_nil_iff.1 hbs)]
    exact List.map_inj_right hf |>.1 hsplit

end Text

namespace Bytes

theorem isAlphanum_hexDigit : ∀ n < 16, (hexDigit n).isAlphanum = true := by
  decide

theorem toHex_singleton (b : UInt8) :
    (toHex [b]).toList = [hexDigit (b.toNat / 16), hexDigit (b.toNat % 16)] := by
  rw [toHex, String.toList_ofList, List.flatMap_singleton]

theorem isAlphanum_of_mem_toHex {b : UInt8} {c : Char} (h : c ∈ (toHex [b]).toList) :
    c.isAlphanum = true := by
  have hlt := b.toNat_lt
  rw [toHex_singleton, List.mem_cons, List.mem_singleton] at h
  rcases h with rfl | rfl
  · exact isAlphanum_hexDigit _ (by omega)
  · exact isAlphanum_hexDigit _ (by omega)

/-- Bytes are told apart by their digits. -/
theorem toHex_singleton_injective {a b : UInt8} (h : (toHex [a]).toList = (toHex [b]).toList) :
    a = b :=
  List.singleton_inj.1 (toHex_injective (String.toList_inj.1 h))

end Bytes

-- ================================================================== types

namespace Der.ObjectId

/-- Identifiers of one type: with the same arcs, or with the same bytes if these are no
arcs. -/
structure Same (a b : ObjectId) : Prop where
  arcs : a.arcs? = b.arcs?
  contents : a.arcs? = none → a = b

/-- What has no arcs has more than one byte. -/
theorem contents_of_arcs?_eq_none {id : ObjectId} (h : id.arcs? = none) :
    ∃ b c rest, id.contents = b :: c :: rest := by
  obtain ⟨contents⟩ := id
  cases contents with
  | nil => cases h
  | cons b rest =>
    cases rest with
    | nil =>
      simp only [arcs?] at h
      split at h <;> cases h
    | cons c rest => exact ⟨b, c, rest, rfl⟩

/-- Arcs and bytes as the parts of a text. -/
theorem toList_text_of_some {id : ObjectId} {arcs : List Nat} (h : id.arcs? = some arcs) :
    id.text.toList = ['.'].intercalate (arcs.map fun arc => (Text.decimal arc).toList) := by
  rw [text, h, String.toList_intercalate, List.map_map]
  rfl

/-- Without arcs, an identifier is shown as its bytes. -/
theorem toList_text_of_none {id : ObjectId} (h : id.arcs? = none) :
    id.text.toList = [' '].intercalate (id.contents.map fun b => (Bytes.toHex [b]).toList) := by
  rw [text, h, String.toList_intercalate, List.map_map]
  rfl

/-- There is a blank in the text of bytes, and none in that of arcs. -/
theorem blank_mem_text_iff {id : ObjectId} : ' ' ∈ id.text.toList ↔ id.arcs? = none := by
  constructor
  · intro h
    cases harcs : id.arcs? with
    | none => rfl
    | some arcs =>
      rw [text, harcs] at h
      rcases Text.mem_intercalate h with hdot | ⟨part, hpart, hc⟩
      · exact absurd hdot (by decide)
      · obtain ⟨arc, -, rfl⟩ := List.mem_map.1 hpart
        exact absurd (Text.isDigit_of_mem_decimal hc) (by decide)
  · intro h
    obtain ⟨b, c, rest, hcontents⟩ := contents_of_arcs?_eq_none h
    rw [toList_text_of_none h, hcontents, List.map_cons, List.map_cons,
      List.intercalate_cons_cons]
    simp

/-- The text of an identifier tells which type it stands for. -/
theorem same_of_text_eq {a b : ObjectId} (h : a.text = b.text) : Same a b := by
  have hblank : a.arcs? = none ↔ b.arcs? = none := by
    rw [← blank_mem_text_iff, ← blank_mem_text_iff, h]
  have hlists := congrArg String.toList h
  cases ha : a.arcs? with
  | none =>
    have hb := hblank.1 ha
    rw [toList_text_of_none ha, toList_text_of_none hb] at hlists
    have hcontents : a.contents = b.contents :=
      Text.intercalate_map_injective (fun _ => by rw [Bytes.toHex_singleton]; nofun)
        (fun _ hc => absurd (Bytes.isAlphanum_of_mem_toHex hc) (by decide))
        (fun _ _ => Bytes.toHex_singleton_injective) hlists
    have hsame : a = b := congrArg ObjectId.mk hcontents
    exact ⟨congrArg arcs? hsame, fun _ => hsame⟩
  | some arcs =>
    have hsome : b.arcs? ≠ none := fun hb => by
      rw [hblank.2 hb] at ha
      cases ha
    obtain ⟨arcs', hb⟩ := Option.ne_none_iff_exists'.1 hsome
    rw [toList_text_of_some ha, toList_text_of_some hb] at hlists
    have harcs : arcs = arcs' :=
      Text.intercalate_map_injective Text.toList_decimal_ne_nil
        (fun _ hc => absurd (Text.isDigit_of_mem_decimal hc) (by decide))
        (fun _ _ hdecimal => Text.decimal_injective (String.toList_inj.1 hdecimal)) hlists
    refine ⟨by rw [ha, hb, harcs], fun hnone => ?_⟩
    rw [ha] at hnone
    cases hnone

end Der.ObjectId

-- ================================================================= labels

namespace AttributeType

/-- The characters that labels are made of. -/
def isLabelChar (c : Char) : Bool :=
  c.isAlphanum || "(). ".toList.contains c

theorem mem_table_of_lookup {type : ObjectId} {found : String}
    (h : table.lookup type = some found) : (type, found) ∈ table := by
  obtain ⟨front, back, htable, -⟩ := List.lookup_eq_some_iff.1 h
  rw [htable]
  exact List.mem_append_right _ List.mem_cons_self

theorem isLabelChar_of_mem_text {type : ObjectId} {c : Char} (h : c ∈ type.text.toList) :
    isLabelChar c = true := by
  unfold ObjectId.text at h
  split at h
  · rcases Text.mem_intercalate h with hdot | ⟨part, hpart, hc⟩
    · rw [List.mem_singleton.1 hdot]
      decide
    · obtain ⟨arc, -, rfl⟩ := List.mem_map.1 hpart
      rw [isLabelChar, Char.isAlphanum, Text.isDigit_of_mem_decimal hc, Bool.or_true,
        Bool.true_or]
  · rcases Text.mem_intercalate h with hblank | ⟨part, hpart, hc⟩
    · rw [List.mem_singleton.1 hblank]
      decide
    · obtain ⟨b, -, rfl⟩ := List.mem_map.1 hpart
      rw [isLabelChar, Bytes.isAlphanum_of_mem_toHex hc, Bool.true_or]

/-- Every label is made of such characters. -/
theorem isLabelChar_of_mem {type : ObjectId} {c : Char} (h : c ∈ (label type).toList) :
    isLabelChar c = true := by
  unfold label at h
  split at h
  case h_1 found hfound =>
    have hall : ∀ entry ∈ table, entry.2.toList.all isLabelChar = true := by decide +kernel
    exact List.all_eq_true.1 (hall _ (mem_table_of_lookup hfound)) c h
  case h_2 =>
    have hall : ∀ text : String, text.toList.all isLabelChar = true → c ∈ text.toList →
        isLabelChar c = true := fun text htext hc => List.all_eq_true.1 htext c hc
    simp only [String.toList_append, List.mem_append] at h
    rcases h with (hopen | htext) | hclose
    · exact hall "OID(" (by decide) hopen
    · exact isLabelChar_of_mem_text htext
    · exact hall ")" (by decide) hclose

/-- No label has a character that labels are not made of. -/
theorem not_mem_label {c : Char} (h : isLabelChar c = false) (type : ObjectId) :
    c ∉ (label type).toList := by
  intro hc
  rw [isLabelChar_of_mem hc] at h
  cases h

/-- No label has an equals sign. -/
theorem equals_not_mem_label (type : ObjectId) : '=' ∉ (label type).toList :=
  not_mem_label (by decide) type

/-- A type that the table has is shown with its label. -/
theorem label_of_lookup_eq_some {type : ObjectId} {found : String}
    (h : table.lookup type = some found) : label type = found := by
  rw [label, h]

/-- Any other type is shown with its identifier. -/
theorem label_of_lookup_eq_none {type : ObjectId} (h : table.lookup type = none) :
    label type = "OID(" ++ type.text ++ ")" := by
  rw [label, h]

/-- No label in the table looks like that of a type which is not there. -/
theorem ne_of_mem_table {entry : ObjectId × String} (h : entry ∈ table) (text : String) :
    entry.2 ≠ "OID(" ++ text ++ ")" := by
  have hall : ∀ entry ∈ table, ¬"OID(".toList <+: entry.2.toList := by decide +kernel
  intro heq
  refine hall entry h ?_
  rw [heq, String.toList_append, String.toList_append, List.append_assoc]
  exact List.prefix_append _ _

/-- A label tells which type it stands for. -/
theorem same_of_label_eq {a b : ObjectId} (h : label a = label b) : a.Same b := by
  cases ha : table.lookup a with
  | none =>
    rw [label_of_lookup_eq_none ha] at h
    cases hb : table.lookup b with
    | none =>
      rw [label_of_lookup_eq_none hb] at h
      have htext : "OID(" ++ a.text = "OID(" ++ b.text := (String.append_left_inj ")").1 h
      exact ObjectId.same_of_text_eq ((String.append_right_inj "OID(").1 htext)
    | some found =>
      rw [label_of_lookup_eq_some hb] at h
      exact absurd h.symm (ne_of_mem_table (mem_table_of_lookup hb) a.text)
  | some found =>
    rw [label_of_lookup_eq_some ha] at h
    cases hb : table.lookup b with
    | none =>
      rw [label_of_lookup_eq_none hb] at h
      exact absurd h (ne_of_mem_table (mem_table_of_lookup ha) b.text)
    | some found' =>
      rw [label_of_lookup_eq_some hb] at h
      have hinjective : ∀ entry ∈ table, ∀ entry' ∈ table, entry.2 = entry'.2 →
          entry.1 = entry'.1 := by decide +kernel
      have hsame : a = b :=
        hinjective _ (mem_table_of_lookup ha) _ (mem_table_of_lookup hb) h
      exact ⟨congrArg ObjectId.arcs? hsame, fun _ => hsame⟩

end AttributeType

end Enrollment
