/-
Messages in any writing: of a body only the members count.

They may stand in any order, between white space and in any spelling, with null for those
that are absent and with any others among them (`Json.Document.Presents`).  Such a body
is read as the message that its members are of, and what is written of a message is one.
A body in which one of the members occurs twice is no message, so that nobody can take
the one for what another takes the other for.
-/
import Enrollment.Proofs.Message

namespace Enrollment

namespace Request

/-- A document that presents the members of a request is read as this request. -/
theorem ofJson_of_presents {r : Request} {d : Json.Document}
    (h : d.Presents ["hmac", "csr"]
      (Message.member "hmac" (r.hmac.map Message.codeText) ++ Message.member "csr" r.csr)) :
    ofJson d.bytes = .ok r := by
  rw [← members_parts] at h
  rw [ofJson, r.holds.ofDocument h]
  rfl

/-- What a request is written as is a document that presents its members. -/
theorem exists_document (r : Request) :
    ∃ d : Json.Document, d.bytes = r.toJson ∧ d.Presents ["hmac", "csr"]
      (Message.member "hmac" (r.hmac.map Message.codeText) ++ Message.member "csr" r.csr) := by
  rw [toJson, ← members_parts]
  exact r.holds.exists_document

end Request

namespace Response

/-- A document that presents the members of a response is read as this response. -/
theorem ofJson_of_presents {r : Response} {d : Json.Document}
    (h : d.Presents ["hmac", "certificate", "error"]
      (Message.member "hmac" (r.hmac.map Message.codeText)
        ++ Message.member "certificate" r.certificate ++ Message.member "error" r.error)) :
    ofJson d.bytes = .ok r := by
  rw [← members_parts] at h
  rw [ofJson, r.holds.ofDocument h]
  rfl

/-- What a response is written as is a document that presents its members. -/
theorem exists_document (r : Response) :
    ∃ d : Json.Document, d.bytes = r.toJson ∧ d.Presents ["hmac", "certificate", "error"]
      (Message.member "hmac" (r.hmac.map Message.codeText)
        ++ Message.member "certificate" r.certificate ++ Message.member "error" r.error) := by
  rw [toJson, ← members_parts]
  exact r.holds.exists_document

end Response

namespace Message

/-- Some member with one of the names occurs twice. -/
def Repeats (d : Json.Document) (names : List String) : Prop :=
  ∃ name ∈ names, 2 ≤ (d.members.map (·.name.text)).count name

/-- A document that is read repeats none of the members that are looked for. -/
theorem not_repeats_of_ofDocument {σ : Type} {shape : Json.Shape σ} {d : Json.Document} {s : σ}
    (h : Json.ofDocument shape d.bytes = .ok s) : ¬Repeats d shape.names := by
  rintro ⟨name, hname, htwice⟩
  have hle := List.nodup_iff_count_le_one.1 (Json.nodup_of_ofDocument h) name
  have hcount : ((d.members.map (·.name.text)).filter (· ∈ shape.names)).count name
      = (d.members.map (·.name.text)).count name := List.count_filter (decide_eq_true hname)
  omega

/-- A message is read from every body that presents its members, in whatever order and
writing and with whatever others, and what is written of it is such a body.  A body in
which one of the members of a message occurs twice is none. -/
theorem ofJson_presents :
    (∀ (r : Request) (d : Json.Document),
        d.Presents ["hmac", "csr"] (member "hmac" (r.hmac.map codeText) ++ member "csr" r.csr) →
          Request.ofJson d.bytes = .ok r)
      ∧ (∀ (r : Response) (d : Json.Document),
        d.Presents ["hmac", "certificate", "error"] (member "hmac" (r.hmac.map codeText)
            ++ member "certificate" r.certificate ++ member "error" r.error) →
          Response.ofJson d.bytes = .ok r)
      ∧ (∀ d : Json.Document, Repeats d ["hmac", "csr"] →
        ∃ failure, Request.ofJson d.bytes = .error failure ∧ failure.kind = .protocol)
      ∧ (∀ d : Json.Document, Repeats d ["hmac", "certificate", "error"] →
        ∃ failure, Response.ofJson d.bytes = .error failure ∧ failure.kind = .protocol)
      ∧ (∀ r : Request, ∃ d : Json.Document, d.bytes = r.toJson ∧ d.Presents ["hmac", "csr"]
        (member "hmac" (r.hmac.map codeText) ++ member "csr" r.csr))
      ∧ ∀ r : Response, ∃ d : Json.Document, d.bytes = r.toJson
        ∧ d.Presents ["hmac", "certificate", "error"] (member "hmac" (r.hmac.map codeText)
            ++ member "certificate" r.certificate ++ member "error" r.error) := by
  refine ⟨fun _ _ h => Request.ofJson_of_presents h, fun _ _ h => Response.ofJson_of_presents h,
    fun d h => ?_, fun d h => ?_, Request.exists_document, Response.exists_document⟩
  · cases hread : Request.ofJson d.bytes with
    | ok r => exact absurd h (not_repeats_of_ofDocument (mapError_eq_ok hread))
    | error failure => exact ⟨failure, rfl, Request.kind_of_ofJson hread⟩
  · cases hread : Response.ofJson d.bytes with
    | ok r => exact absurd h (not_repeats_of_ofDocument (mapError_eq_ok hread))
    | error failure => exact ⟨failure, rfl, Response.kind_of_ofJson hread⟩

-- ============================================================ small samples

/-- A line feed. -/
def smallGap : Json.Gap := ⟨[0x0A], by simp [Json.Blank]⟩

theorem hexDigits_small : Json.HexDigits 's'.toNat (Bytes.ofAscii "0073") := by
  have hzero : Json.HexDigit 0 0x30 := .decimal (d := 0) (by decide)
  have hthree : Json.HexDigit 3 0x33 := .decimal (d := 3) (by decide)
  have hseven : Json.HexDigit 7 0x37 := .decimal (d := 7) (by decide)
  exact .four hzero hzero hseven hthree

/-- The text `csr` with an escape for its second letter, as in `c\u0073r`. -/
def smallName : Json.Spelling where
  text := "csr"
  bytes := Bytes.ofAscii "c\\u0073r"
  spells := .cons (.plain (by decide) (by decide) (by decide)) <|
    .cons (.unit hexDigits_small) <|
    .cons (.plain (by decide) (by decide) (by decide)) .nil

theorem number_small : Json.Number (Bytes.ofAscii "-0.5e+3") := by
  have hdigit (d : UInt8) (h : 0x30 ≤ d ∧ d ≤ 0x39) : Json.Digital [d] :=
    ⟨List.cons_ne_nil d [], List.forall_mem_singleton.2 h⟩
  have hfraction : Json.Fraction [0x2E, 0x35] := .digits (hdigit 0x35 (by decide))
  have hthree : Json.Digital [0x33] := hdigit 0x33 (by decide)
  have hexponent : Json.Exponent (0x65 :: ([0x2B] ++ [0x33])) :=
    .digits (.inl rfl) (.inr (.inl rfl)) hthree
  have hnumber : Json.Number ([0x2D] ++ ([0x30] ++ ([0x2E, 0x35] ++ [0x65, 0x2B, 0x33]))) :=
    .parts (.inr rfl) .zero hfraction hexponent
  exact hnumber

/-- A list of an object with a member `hmac` and of a number. -/
def smallValue : Json.Value :=
  have hname : Json.Inside (Bytes.ofAscii "hmac") :=
    .plain (by decide) <| .plain (by decide) <| .plain (by decide) <| .plain (by decide) .nil
  have hobject := Json.Spelled.object
    (.member Json.Gap.none.blank hname Json.Gap.none.blank smallGap.blank .null Json.Gap.none.blank)
  .any _ (.list (.elements (.element Json.Gap.none.blank hobject Json.Gap.none.blank)
    (.element smallGap.blank (.number number_small) Json.Gap.none.blank)))

/-- A body with the two members the other way round, behind another one. -/
def smallDocument : Json.Document where
  front := smallGap
  inside := .none
  members := [
    ⟨.none, .plain "x", .none, smallGap, smallValue, .none⟩,
    ⟨smallGap, smallName, smallGap, .none, .null, smallGap⟩,
    ⟨.none, .plain "hmac", .none, .none, .text (.plain "AA=="), .none⟩]
  back := smallGap

/-- The same with all its members once more. -/
def smallTwice : Json.Document :=
  { smallDocument with members := smallDocument.members ++ smallDocument.members }

/-- The one is read as what it presents, which is a request and a response, and the other
is refused. -/
theorem ofJson_presents_small :
    smallDocument.bytes
        = Bytes.ofAscii "\n\x7b\"x\":\n[\x7b\"hmac\":\nnull\x7d,\n-0.5e+3],"
          ++ Bytes.ofAscii "\n\"c\\u0073r\"\n:null\n,\"hmac\":\"AA==\"\x7d\n"
      ∧ Request.ofJson smallDocument.bytes = .ok ⟨some [0], none⟩
      ∧ Response.ofJson smallDocument.bytes = .ok ⟨some [0], none, none⟩
      ∧ ∃ failure, Request.ofJson smallTwice.bytes = .error failure := by
  obtain ⟨hrequest, hresponse, htwice, -⟩ := ofJson_presents
  have hpresents (names : List String) (hnames : names = ["hmac", "csr"]
      ∨ names = ["hmac", "certificate", "error"]) :
      smallDocument.Presents names [("hmac", codeText [0])] := by
    rcases hnames with rfl | rfl
    all_goals exact ⟨by decide +kernel, by decide +kernel, by decide +kernel⟩
  refine ⟨by decide +kernel, hrequest ⟨some [0], none⟩ smallDocument (hpresents _ (.inl rfl)),
    hresponse ⟨some [0], none, none⟩ smallDocument (hpresents _ (.inr rfl)), ?_⟩
  obtain ⟨failure, hfailure, -⟩ := htwice smallTwice ⟨"hmac", by decide, by decide +kernel⟩
  exact ⟨failure, hfailure⟩

end Message

end Enrollment
