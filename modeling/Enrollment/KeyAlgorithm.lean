/-
The algorithms that keys of authorities and of hosts may have.
-/
import Enrollment.Failure

namespace Enrollment

/-- The algorithm of a key, with the hash that goes with it. -/
inductive KeyAlgorithm where
  /-- ECDSA over P-256 with SHA-256. -/
  | ecdsaP256
  /-- ECDSA over P-384 with SHA-384. -/
  | ecdsaP384
  | ed25519
  deriving Repr, DecidableEq

namespace KeyAlgorithm

/-- All algorithms. -/
def all : List KeyAlgorithm := [.ecdsaP256, .ecdsaP384, .ed25519]

/-- The algorithm of a key for which none is asked. -/
def standard : KeyAlgorithm := .ecdsaP256

/-- The name of an algorithm on a command line. -/
def name : KeyAlgorithm → String
  | .ecdsaP256 => "ecdsa-p256"
  | .ecdsaP384 => "ecdsa-p384"
  | .ed25519 => "ed25519"

/-- The name of an algorithm in a description. -/
def label : KeyAlgorithm → String
  | .ecdsaP256 => "EcdsaP256"
  | .ecdsaP384 => "EcdsaP384"
  | .ed25519 => "Ed25519"

/-- The algorithm that a text names, in any letter case and with white space
around it. -/
def parse (given : String) : Except Failure KeyAlgorithm :=
  let wanted := (Text.trim given.toList).map Text.asciiLower
  match all.find? fun a => a.name.toList == wanted with
  | some a => .ok a
  | none => .error (.protocol (.unknownAlgorithm given))

end KeyAlgorithm

end Enrollment
