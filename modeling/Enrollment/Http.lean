/-
Requests and responses above the connection.

A body comes in pieces, with or without a declared length, and its end may
never come.  What is read of a body is bounded on the way: a piece that goes
beyond the limit ends the reading, and nothing after it is looked at.
-/
import Enrollment.Limits
import Enrollment.Text.Utf8

namespace Enrollment.Http

-- ================================================================= bodies

/-- What comes after the last piece of a body. -/
inductive Ending where
  | complete
  /-- The connection breaks off. -/
  | broken
  /-- Nothing more comes in time. -/
  | stalled
  deriving Repr, DecidableEq

/-- A body on its way. -/
structure Body where
  /-- The length that was declared, if one was. -/
  declared : Option Nat
  pieces : List Bytes
  ending : Ending
  deriving Repr, DecidableEq

/-- Why a body cannot be read. -/
inductive BodyFault where
  | tooLarge
  | broken
  | stalled
  deriving Repr, DecidableEq

/-- How far the reading of a body has come. -/
structure Gathered where
  /-- The bytes that are held. -/
  bytes : Bytes
  /-- How many more may come. -/
  left : Nat
  deriving Repr, DecidableEq

/-- One more piece is taken, if it may come. -/
def Gathered.add (g : Gathered) (piece : Bytes) : Except BodyFault Gathered :=
  if g.left < piece.length then .error .tooLarge
  else .ok ⟨g.bytes ++ piece, g.left - piece.length⟩

/-- Piece by piece, what is held when the body has come to its end. -/
def gather : Gathered → List Bytes → Ending → Except BodyFault Bytes
  | g, [], .complete => .ok g.bytes
  | _, [], .broken => .error .broken
  | _, [], .stalled => .error .stalled
  | g, piece :: pieces, ending => do gather (← g.add piece) pieces ending

/-- The bytes of pieces, of which `left` are allowed. -/
def collect (left : Nat) (pieces : List Bytes) (ending : Ending) : Except BodyFault Bytes :=
  gather ⟨[], left⟩ pieces ending

namespace Body

/-- The bytes of a body, of which `limit` are allowed; a body that is declared to
be longer is not read at all. -/
def read (limit : Nat) (b : Body) : Except BodyFault Bytes :=
  if b.declared.any (limit < ·) then .error .tooLarge
  else collect limit b.pieces b.ending

/-- A body that comes whole, with its length. -/
def ofBytes (bytes : Bytes) : Body where
  declared := some bytes.length
  pieces := [bytes]
  ending := .complete

end Body

-- =============================================================== messages

/-- A request. -/
structure Request where
  method : String
  /-- The path, without a query. -/
  path : String
  headers : List (String × String)
  body : Body
  deriving Repr, DecidableEq

/-- A response. -/
structure Response where
  status : Nat
  body : Body
  deriving Repr, DecidableEq

/-- Does the status say that all went well? -/
def Response.isSuccess (r : Response) : Bool :=
  200 ≤ r.status && r.status ≤ 299

/-- The type of all bodies. -/
def contentType : String := "application/json"

/-- The method and the path of a request for a certificate. -/
def signMethod : String := "POST"
def signPath : String := "/v1/sign"

end Enrollment.Http
