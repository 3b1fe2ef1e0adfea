/-
The two messages: what is sent is what is understood.

Every field of a message may be absent, and each message that can be built
is read back from its body with the same fields present
(`Request.ofJson_toJson`, `Response.ofJson_toJson`).  It is read from every other
document as well that presents its members (`Message.Holds.ofDocument`).  A body is
bounded by the sizes of its texts, which is what keeps an honest message below the
limit of either side.
-/
import Enrollment.Message
import Enrollment.Proofs.Certificate.Basic
import Enrollment.Proofs.Hash.Hmac
import Enrollment.Proofs.Json.Document

namespace Enrollment

-- ================================================================== codes

namespace Token

/-- A code has the length of a hash. -/
theorem length_mac (t : Token) (message : Bytes) : (t.mac message).length = codeLength :=
  length_sha256 _

def small : Token := ⟨[1], by decide⟩

end Token

namespace Message

variable {σ : Type}

/-- A code is read back from its text. -/
theorem codeOfText_codeText (code : Bytes) : codeOfText (codeText code) = .ok code := by
  rw [codeOfText, codeText, Utf8.encode, String.toList_ofList, Base64.decode_encode]
  rfl

theorem size_codeText (code : Bytes) :
    Utf8.size (codeText code) = 4 * ((code.length + 2) / 3) := by
  rw [Utf8.size_eq_length, codeText, String.toList_ofList, Base64.length_encodeChars_encode,
    Base64.length_encode]

/-- A text for a field, if there is one. -/
def entry (field : Json.Field σ) (value : Option String) : List (Json.Field σ × String) :=
  value.toList.map (field, ·)

/-- A member is a text for the field of its name. -/
theorem member_eq (field : Json.Field σ) (value : Option String) :
    member field.name value = (entry field value).map fun e => (e.1.name, e.2) := by
  cases value <;> rfl

/-- The fields that are present are among all fields, in order. -/
theorem fields_sublist (parts : List (Json.Field σ × Option String)) :
    ((parts.flatMap fun p => entry p.1 p.2).map (·.1)).Sublist (parts.map (·.1)) := by
  induction parts with
  | nil => exact List.Sublist.refl []
  | cons p parts ih =>
    obtain ⟨field, value⟩ := p
    rw [List.flatMap_cons, List.map_append, List.map_cons]
    cases value with
    | none => exact ih.cons field
    | some text => exact ih.cons_cons field

theorem find?_name {fields : List (Json.Field σ)} (h : (fields.map (·.name)).Nodup)
    {field : Json.Field σ} (hmem : field ∈ fields) :
    fields.find? (·.name == field.name) = some field := by
  induction fields with
  | nil => exact absurd hmem List.not_mem_nil
  | cons f fields ih =>
    rw [List.map_cons, List.nodup_cons] at h
    rw [List.find?_cons]
    rcases List.mem_cons.1 hmem with rfl | hmem
    · rw [beq_self_eq_true]
    · have hne : f.name ≠ field.name := fun heq => h.1 (heq ▸ List.mem_map_of_mem hmem)
      rw [beq_eq_false_iff_ne.2 hne]
      exact ih h.2 hmem

/-- The members of a record that is given by its fields. -/
def members (parts : List (Json.Field σ × Option String)) : List (String × String) :=
  parts.flatMap fun p => member p.1.name p.2

/-- A record is what stands in its fields, and these can be told apart and stored in any
order. -/
structure Holds (shape : Json.Shape σ) (parts : List (Json.Field σ × Option String)) (s : σ) :
    Prop where
  fields : parts.map (·.1) = shape.fields
  nodup : shape.names.Nodup
  commutes : shape.fields.Pairwise Json.Field.Commutes
  store : Json.storeAll (parts.flatMap fun p => entry p.1 p.2) shape.empty = .ok s

section

variable {shape : Json.Shape σ} {parts : List (Json.Field σ × Option String)} {s : σ}

theorem members_eq (parts : List (Json.Field σ × Option String)) :
    members parts = (parts.flatMap fun p => entry p.1 p.2).map fun e => (e.1.name, e.2) := by
  rw [members, List.map_flatMap]
  exact congrArg (List.flatMap · parts) (funext fun p => member_eq p.1 p.2)

/-- No field has more than one text, and they are in the order of the fields. -/
theorem Holds.sublist (h : Holds shape parts s) :
    ((parts.flatMap fun p => entry p.1 p.2).map (·.1)).Sublist shape.fields :=
  h.fields ▸ fields_sublist parts

theorem Holds.entries_members (h : Holds shape parts s) :
    shape.entries (members parts) = parts.flatMap fun p => entry p.1 p.2 := by
  rw [members_eq]
  exact Json.entries_map fun e he =>
    find?_name h.nodup (h.sublist.subset (List.mem_map_of_mem he))

/-- A record is read from every document that presents its members. -/
theorem Holds.ofDocument (h : Holds shape parts s) {d : Json.Document}
    (hd : d.Presents shape.names (members parts)) : Json.ofDocument shape d.bytes = .ok s := by
  refine Json.ofDocument_presents hd ?_ ?_
  · rw [h.entries_members]
    exact List.pairwise_map.1 (h.commutes.sublist h.sublist)
  · rw [h.entries_members]
    exact h.store

/-- What is written of a record is such a document. -/
theorem Holds.exists_document (h : Holds shape parts s) :
    ∃ d : Json.Document, d.bytes = body (members parts)
      ∧ d.Presents shape.names (members parts) := by
  have hnames : ((members parts).map (·.1)).Sublist shape.names := by
    rw [members_eq, List.map_map]
    have hsublist := h.sublist.map (·.name)
    rwa [List.map_map] at hsublist
  refine ⟨.plain (members parts), Json.Document.bytes_plain _,
    Json.Document.presents_plain (fun p hp => hnames.subset (List.mem_map_of_mem hp))
      (h.nodup.sublist hnames)⟩

/-- A record is read back from the body that is written for it. -/
theorem Holds.ofDocument_body (h : Holds shape parts s) :
    Json.ofDocument shape (body (members parts)) = .ok s := by
  obtain ⟨d, hbytes, hd⟩ := h.exists_document
  rw [← hbytes, h.ofDocument hd]

end

end Message

-- ================================================================ request

namespace Request

/-- The fields of a request with what stands in them. -/
def parts (r : Request) : List (Json.Field Request × Option String) :=
  [(shape.fields[0], r.hmac.map Message.codeText), (shape.fields[1], r.csr)]

theorem members_parts (r : Request) :
    Message.members r.parts
      = Message.member "hmac" (r.hmac.map Message.codeText) ++ Message.member "csr" r.csr := by
  simp only [Message.members, parts, List.flatMap_cons, List.flatMap_nil, List.append_nil]
  rfl

theorem storeAll_parts (r : Request) :
    Json.storeAll (r.parts.flatMap fun p => Message.entry p.1 p.2) shape.empty = .ok r := by
  obtain ⟨hmac, csr⟩ := r
  cases hmac with
  | none => cases csr <;> rfl
  | some code =>
    have hcode : shape.fields[0].store (Message.codeText code) shape.empty
        = .ok { hmac := some code } := by
      show (Message.codeOfText (Message.codeText code)).bind _ = _
      rw [Message.codeOfText_codeText]
      rfl
    simp only [parts, Message.entry, Option.map_some, Option.toList_some, List.flatMap_cons,
      List.map_cons, List.map_nil, List.cons_append, List.nil_append, Json.storeAll, hcode]
    cases csr <;> rfl

/-- The members of a request may be stored in either order. -/
theorem commutes_fields : shape.fields.Pairwise Json.Field.Commutes := by
  refine List.pairwise_pair.2 fun a b s => ?_
  show ((Message.codeOfText a).bind _).bind _ = (Message.codeOfText a).bind _
  cases Message.codeOfText a <;> rfl

/-- A request is what stands in its fields. -/
theorem holds (r : Request) : Message.Holds shape r.parts r where
  fields := rfl
  nodup := by decide
  commutes := commutes_fields
  store := storeAll_parts r

/-- A request is read back from its body. -/
theorem ofJson_toJson (r : Request) : ofJson r.toJson = .ok r := by
  rw [ofJson, toJson, ← members_parts, r.holds.ofDocument_body]
  rfl

/-- A body that spells no request breaks the protocol. -/
theorem kind_of_ofJson {body : Bytes} {failure : Failure} (h : ofJson body = .error failure) :
    failure.kind = .protocol := by
  obtain ⟨fault, -, rfl⟩ := mapError_eq_error h
  rfl

end Request

-- =============================================================== response

namespace Response

/-- The fields of a response with what stands in them. -/
def parts (r : Response) : List (Json.Field Response × Option String) :=
  [(shape.fields[0], r.hmac.map Message.codeText), (shape.fields[1], r.certificate),
    (shape.fields[2], r.error)]

theorem members_parts (r : Response) :
    Message.members r.parts
      = Message.member "hmac" (r.hmac.map Message.codeText)
        ++ Message.member "certificate" r.certificate ++ Message.member "error" r.error := by
  simp only [Message.members, parts, List.flatMap_cons, List.flatMap_nil, List.append_nil]
  rw [← List.append_assoc]
  rfl

theorem storeAll_parts (r : Response) :
    Json.storeAll (r.parts.flatMap fun p => Message.entry p.1 p.2) shape.empty = .ok r := by
  obtain ⟨hmac, certificate, error⟩ := r
  cases hmac with
  | none => cases certificate <;> cases error <;> rfl
  | some code =>
    have hcode : shape.fields[0].store (Message.codeText code) shape.empty
        = .ok { hmac := some code } := by
      show (Message.codeOfText (Message.codeText code)).bind _ = _
      rw [Message.codeOfText_codeText]
      rfl
    simp only [parts, Message.entry, Option.map_some, Option.toList_some, List.flatMap_cons,
      List.map_cons, List.map_nil, List.cons_append, List.nil_append, Json.storeAll, hcode]
    cases certificate <;> cases error <;> rfl

/-- The members of a response may be stored in any order. -/
theorem commutes_fields : shape.fields.Pairwise Json.Field.Commutes := by
  refine .cons (fun f hf a b s => ?_) (List.pairwise_pair.2 fun a b s => rfl)
  simp only [List.mem_cons, List.not_mem_nil, or_false] at hf
  rcases hf with rfl | rfl
  all_goals
    show ((Message.codeOfText a).bind _).bind _ = (Message.codeOfText a).bind _
    cases Message.codeOfText a <;> rfl

/-- A response is what stands in its fields. -/
theorem holds (r : Response) : Message.Holds shape r.parts r where
  fields := rfl
  nodup := by decide
  commutes := commutes_fields
  store := storeAll_parts r

/-- A response is read back from its body. -/
theorem ofJson_toJson (r : Response) : ofJson r.toJson = .ok r := by
  rw [ofJson, toJson, ← members_parts, r.holds.ofDocument_body]
  rfl

/-- The text that the body of a response is taken for spells that response. -/
theorem ofJson_decodeLossy (r : Response) :
    ofJson (Utf8.encode (Utf8.decodeLossy r.toJson)) = .ok r := by
  have hbody : Utf8.encode (Utf8.decodeLossy r.toJson) = r.toJson := by
    rw [toJson, Message.body, Utf8.decodeLossy_encodeChars, Utf8.encode, String.toList_ofList]
  rw [hbody, ofJson_toJson]

/-- A body that spells no response breaks the protocol. -/
theorem kind_of_ofJson {body : Bytes} {failure : Failure} (h : ofJson body = .error failure) :
    failure.kind = .protocol := by
  obtain ⟨fault, -, rfl⟩ := mapError_eq_error h
  rfl

end Response

-- ================================================================== sizes

/-- The body of a request is within the limit, whatever text the request for a
certificate is. -/
theorem Request.length_toJson_ofToken_le (token : Token) (csr : SigningRequest) :
    (Request.ofToken token csr).toJson.length ≤ Limits.bodySize := by
  have hbody := Json.length_writeObject_le
    [("hmac", Message.codeText (token.mac csr.publicKey)), ("csr", csr.pem)]
  have hcode := Message.size_codeText (token.mac csr.publicKey)
  have hpem := csr.pem_size_le
  have hnames : Utf8.size "hmac" = 4 ∧ Utf8.size "csr" = 3 := by decide +kernel
  rw [Token.length_mac] at hcode
  simp only [Json.membersBound, hnames, hcode, Token.codeLength] at hbody
  simp only [Limits.certificateSize] at hpem
  refine Nat.le_trans hbody ?_
  rw [Limits.bodySize]
  omega

/-- The body of a rejection takes little more than six times the place of its
text. -/
theorem Response.length_toJson_rejected_le (message : String) :
    (Response.rejected message).toJson.length ≤ 6 * Utf8.size message + 38 := by
  have hbody := Json.length_writeObject_le [("error", message)]
  have hname : Utf8.size "error" = 5 := by decide +kernel
  simp only [Json.membersBound, hname] at hbody
  refine Nat.le_trans hbody ?_
  omega

/-- The body of a response that hands over a certificate is within the limit. -/
theorem Response.length_toJson_issued_le (token : Token) (issuer leaf : Certificate) :
    (Response.issued token issuer leaf).toJson.length ≤ Limits.bodySize := by
  have hbody := Json.length_writeObject_le
    [("hmac", Message.codeText (token.mac issuer.publicKey)), ("certificate", leaf.pem)]
  have hcode := Message.size_codeText (token.mac issuer.publicKey)
  have hpem := leaf.size_pem_le
  have hder := leaf.der_length_le
  have hnames : Utf8.size "hmac" = 4 ∧ Utf8.size "certificate" = 11 := by decide +kernel
  rw [Token.length_mac] at hcode
  simp only [Json.membersBound, hnames, hcode, Token.codeLength] at hbody
  simp only [Limits.certificateSize] at hder
  refine Nat.le_trans hbody ?_
  rw [Limits.bodySize]
  omega

end Enrollment
