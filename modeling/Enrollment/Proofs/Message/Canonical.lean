/-
The two messages: what is written is read back, and a code has one spelling.

That a code cannot be spelled in two ways is said of whole bodies.  `texts`
reads a body as the message does, with the same members, but takes the text
of the code as it stands.  Whatever body a message is read from, in whatever
order and with whatever escapes, the text of its code there is the one that
is written for the code (`texts_of_ofJson`).
-/
import Enrollment.Proofs.Base64.Canonical
import Enrollment.Proofs.Json.Refine
import Enrollment.Proofs.Message

namespace Enrollment

-- ================================================================= texts

namespace Utf8

/-- Different texts have different bytes. -/
theorem encodeChars_injective {cs ds : List Char} (h : encodeChars cs = encodeChars ds) :
    cs = ds := by
  have hread := decode?_encodeChars cs
  rw [h, decode?_encodeChars ds] at hread
  exact (String.ofList_injective (Option.some.inj hread)).symm

end Utf8

namespace Message

/-- A text is read as a code exactly when it is the text of that code. -/
theorem codeOfText_eq_ok_iff {text : String} {code : Bytes} :
    codeOfText text = .ok code ↔ text = codeText code := by
  refine ⟨fun h => ?_, fun h => h ▸ codeOfText_codeText code⟩
  have hbytes := Base64.decode_eq_ok_iff.1 (mapError_eq_ok h)
  have hchars := Utf8.encodeChars_injective hbytes
  rw [codeText, ← hchars, String.ofList_toList]

end Message

-- ================================================================ request

namespace Request

/-- The members of a request as the texts that are given for them. -/
structure Texts where
  hmac : Option String := none
  csr : Option String := none
  deriving Repr, DecidableEq

/-- The fields of a request, each with its text as it stands. -/
def textShape : Json.Shape Texts where
  name := shape.name
  fields := [
    ⟨"hmac", fun text t => .ok { t with hmac := some text }⟩,
    ⟨"csr", fun text t => .ok { t with csr := some text }⟩]
  empty := {}

/-- The texts that a body gives for the members of a request. -/
def texts (body : Bytes) : Except Json.Fault Texts :=
  Json.ofDocument textShape body

/-- The texts of a request: the one spelling of its code, and what else it has. -/
def toTexts (r : Request) : Texts :=
  ⟨r.hmac.map Message.codeText, r.csr⟩

/-- The texts of a request are what is stored of it, each as it stands. -/
theorem shape_refines : shape.Refines (fun r t => t = r.toTexts) textShape where
  fields := by
    refine .cons ⟨rfl, ?_⟩ (.cons ⟨rfl, ?_⟩ .nil)
    · rintro text r r' _ rfl h
      obtain ⟨code, hcode, h⟩ := bind_eq_ok h
      cases h
      refine ⟨_, rfl, ?_⟩
      rw [Message.codeOfText_eq_ok_iff.1 hcode]
      rfl
    · rintro text r r' _ rfl h
      cases h
      exact ⟨_, rfl, rfl⟩
  empty := rfl

/-- A body that a request is read from gives its texts. -/
theorem texts_of_ofJson {body : Bytes} {r : Request} (h : ofJson body = .ok r) :
    texts body = .ok r.toTexts := by
  obtain ⟨t, htexts, rfl⟩ := Json.ofDocument_refines shape_refines (mapError_eq_ok h)
  exact htexts

end Request

-- =============================================================== response

namespace Response

/-- The members of a response as the texts that are given for them. -/
structure Texts where
  hmac : Option String := none
  certificate : Option String := none
  error : Option String := none
  deriving Repr, DecidableEq

/-- The fields of a response, each with its text as it stands. -/
def textShape : Json.Shape Texts where
  name := shape.name
  fields := [
    ⟨"hmac", fun text t => .ok { t with hmac := some text }⟩,
    ⟨"certificate", fun text t => .ok { t with certificate := some text }⟩,
    ⟨"error", fun text t => .ok { t with error := some text }⟩]
  empty := {}

/-- The texts that a body gives for the members of a response. -/
def texts (body : Bytes) : Except Json.Fault Texts :=
  Json.ofDocument textShape body

/-- The texts of a response: the one spelling of its code, and what else it has. -/
def toTexts (r : Response) : Texts :=
  ⟨r.hmac.map Message.codeText, r.certificate, r.error⟩

theorem shape_refines : shape.Refines (fun r t => t = r.toTexts) textShape where
  fields := by
    refine .cons ⟨rfl, ?_⟩ (.cons ⟨rfl, ?_⟩ (.cons ⟨rfl, ?_⟩ .nil))
    · rintro text r r' _ rfl h
      obtain ⟨code, hcode, h⟩ := bind_eq_ok h
      cases h
      refine ⟨_, rfl, ?_⟩
      rw [Message.codeOfText_eq_ok_iff.1 hcode]
      rfl
    all_goals
      rintro text r r' _ rfl h
      cases h
      exact ⟨_, rfl, rfl⟩
  empty := rfl

/-- A body that a response is read from gives its texts. -/
theorem texts_of_ofJson {body : Bytes} {r : Response} (h : ofJson body = .ok r) :
    texts body = .ok r.toTexts := by
  obtain ⟨t, htexts, rfl⟩ := Json.ofDocument_refines shape_refines (mapError_eq_ok h)
  exact htexts

end Response

-- ============================================================ both ways

namespace Message

/-- Every message is read back from its body, and a code has one spelling: the text
that any body gives for it, once its escapes are resolved, is the one that the
body made of the message gives. -/
theorem readBack_and_canonical :
    (∀ r : Request, Request.ofJson r.toJson = .ok r)
      ∧ (∀ r : Response, Response.ofJson r.toJson = .ok r)
      ∧ (∀ (body : Bytes) (r : Request), Request.ofJson body = .ok r →
        Request.texts body = .ok ⟨r.hmac.map codeText, r.csr⟩
          ∧ Request.texts r.toJson = Request.texts body)
      ∧ (∀ (body : Bytes) (r : Response), Response.ofJson body = .ok r →
        Response.texts body = .ok ⟨r.hmac.map codeText, r.certificate, r.error⟩
          ∧ Response.texts r.toJson = Response.texts body)
      ∧ ∀ (text : String) (code : Bytes), codeOfText text = .ok code ↔ text = codeText code := by
  refine ⟨Request.ofJson_toJson, Response.ofJson_toJson, fun body r h => ?_, fun body r h => ?_,
    fun _ _ => codeOfText_eq_ok_iff⟩
  · have hbody := Request.texts_of_ofJson h
    exact ⟨hbody, (Request.texts_of_ofJson (Request.ofJson_toJson r)).trans hbody.symm⟩
  · have hbody := Response.texts_of_ofJson h
    exact ⟨hbody, (Response.texts_of_ofJson (Response.ofJson_toJson r)).trans hbody.symm⟩

/-- A body with its members in another order, and with escapes in its texts. -/
def escapedBody : Bytes :=
  Bytes.ofAscii "\x7b\"error\": null, \"csr\": \"\\n\", \"hmac\":\"\\u0041A=\\u003d\"\x7d"

/-- Its code is given by the text that is written for that code. -/
theorem readBack_escaped :
    Request.ofJson escapedBody = .ok ⟨some [0], some "\n"⟩
      ∧ Request.texts escapedBody = .ok ⟨some "AA==", some "\n"⟩ := by
  have hread : Request.ofJson escapedBody = .ok ⟨some [0], some "\n"⟩ := by decide +kernel
  exact ⟨hread, (readBack_and_canonical.2.2.1 escapedBody _ hread).1⟩

end Message

end Enrollment
