/-
Authorities: a chain of certificates, the first of which is the authority's
own, and the key that belongs to it.
-/
import Enrollment.Certificate.Chain
import Enrollment.Certificate.Template

namespace Enrollment

/-- What an authority signs and presents itself with. -/
structure Authority where
  chain : Chain
  key : KeyPair
  algorithm : KeyAlgorithm
  deriving DecidableEq

namespace Authority

/-- Does the key belong to the first certificate, and is its algorithm the one
that is stated? -/
def Coherent (a : Authority) : Prop :=
  a.key.algorithm? = some a.algorithm ∧ a.chain.leaf.publicKey = a.key.encodedPublic

/-- The authority's own certificate. -/
def certificate (a : Authority) : Certificate := a.chain.leaf

/-- The text of the key. -/
def keyPem (a : Authority) : String := a.key.pem

/-- The name that clients expect the authority to have. -/
def hostname (a : Authority) : Except Failure String :=
  match a.certificate.commonName with
  | some name => .ok name
  | none => .error (.protocol .noCommonName)

/-- The text that an authority is shown as; it does not give the key away. -/
def describe (a : Authority) : String :=
  "CaIdentity \x7b certificate: " ++ a.certificate.describe ++ ", chain_len: "
    ++ Text.decimal a.chain.length ++ ", algorithm: " ++ a.algorithm.label ++ ", .. \x7d"

variable [Signatures]

/-- Loads an authority from the text of its chain and the text of its key. -/
def ofPem (chainText keyText : String) : Except Failure Authority := do
  let chain ← Chain.ofPem chainText
  let some key := KeyPair.ofPem? keyText | throw (.protocol .keyUnreadable)
  let some algorithm := key.algorithm? | throw (.signing .unsupportedKey)
  if chain.leaf.publicKey ≠ key.encodedPublic then throw (.signing .keyMismatch)
  return ⟨chain, key, algorithm⟩

-- =============================================================== generating

/-- The organization in the names of generated authorities. -/
def organization : String := "keygate"

/-- The name of a generated authority. -/
def nameOf (hostname : String) : Entries :=
  [Entries.ofText [2, 5, 4, 3] hostname, Entries.ofText [2, 5, 4, 10] organization]

/-- What is drawn at random for a new authority. -/
structure Draw where
  key : Bytes
  serial : Bytes

/-- The certificate of a new authority. -/
def templateOf (hostname : String) (names : List AlternativeName) (key : KeyPair) (serial : Bytes)
    (window : Int × Int) : Template where
  serial := Serial.ofDraw serial
  issuer := nameOf hostname
  subject := nameOf hostname
  notBefore := window.1
  notAfter := window.2
  names := names
  usages := [.certificateSigning, .revocationSigning, .digitalSignature]
  purposes := []
  isAuthority := true
  publicKey := key.encodedPublic

/-- Makes an authority with a certificate signed by its own key. -/
def generate (hostname : String) (algorithm : KeyAlgorithm) (days : Nat) (now : Time.Instant)
    (draw : Draw) : Except Halt Authority := do
  let names ← Halt.lift ((AlternativeName.ofTexts [hostname]).mapError
    fun fault => .protocol (.hostname hostname fault))
  let some window := Validity.window? now days | throw (.crashed .dateOutOfRange)
  let key := KeyPair.generate algorithm draw.key
  let some der := (templateOf hostname names key draw.serial window).sign? key
    | throw (.crashed .objectIdOutOfRange)
  let chain ← Halt.lift (Chain.ofDers [der])
  return ⟨chain, key, algorithm⟩

end Authority

end Enrollment
