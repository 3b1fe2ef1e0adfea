/-
The parts that certificates and requests for them have in common: algorithms,
public keys, extensions, and what a signature is over.
-/
import Enrollment.Crypto.Scheme
import Enrollment.Failure
import Enrollment.Name.Basic

namespace Enrollment

-- ============================================================ algorithms

/-- An algorithm with its parameters. -/
structure AlgorithmId where
  algorithm : Der.ObjectId
  parameters : Option Der.Element
  deriving Repr, DecidableEq

namespace AlgorithmId

/-- An algorithm. -/
def read : Der.Reader AlgorithmId :=
  Der.readSequence fun bs => do
    let (algorithm, rest) ← Der.readObjectId bs
    match Der.readElement rest with
    | some (parameters, rest) => return (⟨algorithm, some parameters⟩, rest)
    | none => return (⟨algorithm, none⟩, rest)

end AlgorithmId

/-- A public key with its algorithm. -/
structure PublicKeyInfo where
  algorithm : AlgorithmId
  /-- The bits of the key. -/
  key : Bytes
  encoded : Bytes
  deriving Repr, DecidableEq

namespace PublicKeyInfo

/-- A public key. -/
def read : Der.Reader PublicKeyInfo := fun bs => do
  let (((algorithm, key), encoded), rest) ←
    Der.readSpanned Der.TagNumber.sequence
      (fun bs => do
        let (algorithm, bs) ← AlgorithmId.read bs
        let (key, bs) ← Der.readBits bs
        return ((algorithm, key), bs)) bs
  return (⟨algorithm, key, encoded⟩, rest)

end PublicKeyInfo

-- ============================================================ extensions

/-- An extension of a certificate, or one that a request asks for. -/
structure Extension where
  id : Der.ObjectId
  critical : Bool
  value : Bytes
  deriving Repr, DecidableEq

namespace Extension

/-- A truth value in front of other elements, if there is one. -/
def readCritical : Der.Reader Bool := fun bs =>
  match Der.readNumbered Der.TagNumber.boolean bs with
  | some (e, rest) =>
    match e.contents with
    | [b] => some (b ≠ 0, rest)
    | _ => some (false, bs)
  | none => some (false, bs)

/-- An extension. -/
def read : Der.Reader Extension :=
  Der.readSequence fun bs => do
    let (id, bs) ← Der.readObjectId bs
    let (critical, bs) ← readCritical bs
    let (value, bs) ← Der.readOctets bs
    return (⟨id, critical, value⟩, bs)

/-- A sequence of extensions with nothing else in it. -/
def readList : Der.Reader (List Extension) := fun bs => do
  let (e, rest) ← Der.readNumbered Der.TagNumber.sequence bs
  return (← Der.readAll read e.contents, rest)

end Extension

-- ============================================================ signatures

namespace SignatureId

/-- The object identifiers of signature algorithms. -/
def ecdsaSha256 : Der.ObjectId := .ofArcs [1, 2, 840, 10045, 4, 3, 2]
def ecdsaSha384 : Der.ObjectId := .ofArcs [1, 2, 840, 10045, 4, 3, 3]
def ed25519 : Der.ObjectId := .ofArcs [1, 3, 101, 112]
def rsaSha1 : Der.ObjectId := .ofArcs [1, 2, 840, 113549, 1, 1, 5]
def rsaSha1Old : Der.ObjectId := .ofArcs [1, 3, 14, 3, 2, 29]
def rsaPss : Der.ObjectId := .ofArcs [1, 2, 840, 113549, 1, 1, 10]
def rsaSha256 : Der.ObjectId := .ofArcs [1, 2, 840, 113549, 1, 1, 11]
def rsaSha384 : Der.ObjectId := .ofArcs [1, 2, 840, 113549, 1, 1, 12]
def rsaSha512 : Der.ObjectId := .ofArcs [1, 2, 840, 113549, 1, 1, 13]

end SignatureId

namespace Curve

/-- The object identifier of a curve. -/
def objectId : Curve → Der.ObjectId
  | .p256 => .ofArcs [1, 2, 840, 10045, 3, 1, 7]
  | .p384 => .ofArcs [1, 3, 132, 0, 34]

/-- The curve that the parameters of a public key name. -/
def ofKey? (key : PublicKeyInfo) : Option Curve := do
  let parameters ← key.algorithm.parameters
  [p256, p384].find? fun c => c.objectId.contents == parameters.contents

end Curve

namespace HashKind

/-- The object identifier of a hash function. -/
def objectId : HashKind → Der.ObjectId
  | .sha1 => .ofArcs [1, 3, 14, 3, 2, 26]
  | .sha256 => .ofArcs [2, 16, 840, 1, 101, 3, 4, 2, 1]
  | .sha384 => .ofArcs [2, 16, 840, 1, 101, 3, 4, 2, 2]
  | .sha512 => .ofArcs [2, 16, 840, 1, 101, 3, 4, 2, 3]

/-- The hash function that the parameters of a salted signature name. -/
def ofSaltedParameters? (parameters : Der.Element) : Option HashKind := do
  if parameters.tag.number ≠ Der.TagNumber.sequence then none
  let inner := fun bs => (AlgorithmId.read bs).map (·.1)
  let number := fun bs => (Der.readSmallNat bs).map (·.1)
  let (hash, bs) ← Der.readTagged? 0 inner parameters.contents
  let (_, bs) ← Der.readTagged? 1 inner bs
  let (_, bs) ← Der.readTagged? 2 number bs
  let _ ← Der.readTagged? 3 number bs
  let hash ← hash
  [sha256, sha384, sha512].find? fun k => k.objectId == hash.algorithm

end HashKind

/-- The scheme that a signature algorithm and a public key stand for. -/
def Scheme.of? (algorithm : AlgorithmId) (key : PublicKeyInfo) : Option Scheme :=
  let id := algorithm.algorithm
  if id = SignatureId.rsaSha1 ∨ id = SignatureId.rsaSha1Old then some (.rsaPkcs1 .sha1)
  else if id = SignatureId.rsaSha256 then some (.rsaPkcs1 .sha256)
  else if id = SignatureId.rsaSha384 then some (.rsaPkcs1 .sha384)
  else if id = SignatureId.rsaSha512 then some (.rsaPkcs1 .sha512)
  else if id = SignatureId.rsaPss then
    (algorithm.parameters.bind HashKind.ofSaltedParameters?).map .rsaPss
  else if id = SignatureId.ecdsaSha256 then (Curve.ofKey? key).map fun c => .ecdsa c .sha256
  else if id = SignatureId.ecdsaSha384 then (Curve.ofKey? key).map fun c => .ecdsa c .sha384
  else if id = SignatureId.ed25519 then some .ed25519
  else none

/-- Some bytes with a signature over them. -/
structure Signed where
  /-- The bytes that are signed. -/
  content : Bytes
  algorithm : AlgorithmId
  signature : Bytes
  deriving Repr, DecidableEq

/-- Checks a signature under a public key. -/
def Signed.verify [Signatures] (s : Signed) (key : PublicKeyInfo) : Except SignatureFault Unit :=
  match Scheme.of? s.algorithm key with
  | none => .error .unsupported
  | some scheme =>
    if Signatures.verify scheme key.key s.content s.signature then .ok () else .error .wrong

end Enrollment
