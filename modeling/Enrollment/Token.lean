/-
The secret that the authority and a host share.

Neither side ever sends it.  Each proves that it knows the secret by an
authentication code: the host over the key it asks a certificate for, the
authority over its own key.
-/
import Enrollment.Failure
import Enrollment.Hash.Hmac

namespace Enrollment

/-- A shared secret, which is never empty. -/
structure Token where
  secret : Bytes
  secret_ne_nil : secret ≠ []
  deriving DecidableEq

namespace Token

/-- Bytes of an authentication code. -/
def codeLength : Nat := 32

/-- Tokens shorter than this are accepted, with a warning. -/
def recommendedLength : Nat := 16

/-- A secret as a token. -/
def ofSecret (secret : Bytes) : Except Failure Token :=
  if h : secret = [] then .error (.protocol .emptyToken) else .ok ⟨secret, h⟩

/-- Is the token shorter than recommended? -/
def isWeak (t : Token) : Bool :=
  t.secret.length < recommendedLength

/-- The authentication code of a message. -/
def mac (t : Token) (message : Bytes) : Bytes :=
  Hmac.code t.secret message

/-- Is a code that was received the one of the message? -/
def verify (t : Token) (message candidate : Bytes) : Bool :=
  t.mac message == candidate

/-- The text that a token is shown as; it does not give the secret away. -/
def describe (t : Token) : String :=
  "Token \x7b len: " ++ Text.decimal t.secret.length ++ ", .. \x7d"

end Token

end Enrollment
