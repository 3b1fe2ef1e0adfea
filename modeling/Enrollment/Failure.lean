/-
Why a certificate was not requested, issued or accepted.

A failure has one of four kinds.  Trouble with the connection is told apart
from a peer that breaks the protocol, and both from a check that guards
against interception, so that a caller can raise an alarm on the last alone.
Below the kind stands the cause, as data; its wording is one function per
type.
-/
import Enrollment.Duration
import Enrollment.Json.Fault
import Enrollment.Limits
import Enrollment.Pem

namespace Enrollment

/-- The kinds of failure. -/
inductive FailureKind where
  /-- The connection failed, timed out or brought a bad status. -/
  | transport
  /-- Something that was received or given is not what it has to be. -/
  | protocol
  /-- An authentication or a signature is wrong. -/
  | security
  /-- The signer could not sign. -/
  | signing
  deriving Repr, DecidableEq

-- ================================================================ causes

/-- Why a signature is not accepted. -/
inductive SignatureFault where
  /-- It does not verify, or its bytes are not a signature. -/
  | wrong
  /-- The algorithm, or its combination with the key, is not supported. -/
  | unsupported
  deriving Repr, DecidableEq

/-- The wording of a fault. -/
def SignatureFault.message : SignatureFault → String
  | .wrong => "signature verification error"
  | .unsupported => "signature unsupported algorithm"

/-- The kinds of string that a name may hold. -/
inductive StringKind where
  | utf8
  | printable
  | ia5
  | teletex
  | bmp
  | universal
  deriving Repr, DecidableEq

/-- The name of a kind of string. -/
def StringKind.label : StringKind → String
  | .utf8 => "UTF8String"
  | .printable => "PrintableString"
  | .ia5 => "IA5String"
  | .teletex => "TeletexString"
  | .bmp => "BMPString"
  | .universal => "UniversalString"

/-- Why what a request or a certificate holds cannot be carried over into a new
certificate. -/
inductive ContentFault where
  /-- It has a part of a form that is not carried over. -/
  | unreadable
  /-- A text has characters that its kind of string does not allow; for the two
  wide kinds, the complaint about its encoding. -/
  | text (kind : StringKind) (given : String)
  /-- An alternative name is an address of neither length. -/
  | addressLength (length : Nat)
  /-- An alternative name is of a kind that is not carried over. -/
  | nameKind
  /-- The request asks for an extension that is not granted. -/
  | extensionNotGranted
  /-- The request is signed by an algorithm that names no key type. -/
  | algorithm
  deriving Repr, DecidableEq

/-- The wording of a fault. -/
def ContentFault.message : ContentFault → String
  | .unreadable => "Could not parse certificate"
  | .text kind given => "Invalid " ++ kind.label ++ ": '" ++ given ++ "'"
  | .addressLength length =>
    "Invalid IP address octet length of " ++ Text.decimal length ++ " bytes"
  | .nameKind => "Invalid subject alternative name type"
  | .extensionNotGranted => "Unsupported extension requested in CSR"
  | .algorithm => "The requested signature algorithm is not supported"

/-- How a peer, a document or an argument breaks the protocol. -/
inductive ProtocolCause where
  | emptyToken
  | unknownAlgorithm (given : String)
  -- distinguished names as text
  | emptyName
  | malformedComponent (component : String)
  | emptyValue (type : String)
  | unsupportedAttribute (type : String)
  -- certificates
  | certificateTooLarge (size : Nat)
  | certificateUnreadable
  | certificatePem (fault : Pem.Fault)
  | notCertificate (tag : String)
  | emptyChain
  | longChain (length : Nat)
  -- requests for certificates
  | requestTooLarge (size : Nat)
  | requestUnreadable
  | requestPem (fault : Pem.Fault)
  | notRequest (tag : String)
  | requestContent (fault : ContentFault)
  | alternativeName (fault : ContentFault)
  -- authorities
  | hostname (given : String) (fault : ContentFault)
  | keyUnreadable
  | noCommonName
  -- messages
  | malformedRequest (fault : Json.Fault)
  | malformedResponse (fault : Json.Fault)
  -- exchanges
  | serverName (given : String)
  | noCertificates
  | identity (expected presented : String)
  | bodyTooLarge
  | missingCode
  | missingCertificate
  | otherKey
  /-- A cause that was reported as text. -/
  | reported (text : String)
  deriving Repr, DecidableEq

/-- A size with the one that is allowed. -/
def sizeAndLimit (size : Nat) : String :=
  Text.decimal size ++ " bytes (max " ++ Text.decimal Limits.certificateSize ++ ")"

/-- The wording of a cause. -/
def ProtocolCause.message : ProtocolCause → String
  | .emptyToken => "token must not be empty"
  | .unknownAlgorithm given =>
    "unknown key algorithm '" ++ given ++ "' (expected ecdsa-p256, ecdsa-p384 or ed25519)"
  | .emptyName => "distinguished name is empty"
  | .malformedComponent component => "malformed DN component '" ++ component ++ "'"
  | .emptyValue type => "empty value for DN attribute '" ++ type ++ "'"
  | .unsupportedAttribute type => "unsupported DN attribute '" ++ type ++ "'"
  | .certificateTooLarge size =>
    "certificate too large: " ++ sizeAndLimit size
  | .certificateUnreadable => "failed to parse X.509 certificate"
  | .certificatePem fault => "invalid certificate PEM: " ++ fault.message
  | .notCertificate tag => "expected CERTIFICATE PEM block, found '" ++ tag ++ "'"
  | .emptyChain => "certificate chain is empty"
  | .longChain length => "certificate chain too long: " ++ Text.decimal length ++ " (max "
    ++ Text.decimal Limits.chainLength ++ ")"
  | .requestTooLarge size => "CSR too large: " ++ sizeAndLimit size
  | .requestUnreadable => "failed to parse CSR"
  | .requestPem fault => "invalid CSR PEM: " ++ fault.message
  | .notRequest tag => "expected CERTIFICATE REQUEST PEM block, found '" ++ tag ++ "'"
  | .requestContent fault => "failed to parse CSR: " ++ fault.message
  | .alternativeName fault => "invalid subject alternative name: " ++ fault.message
  | .hostname given fault => "invalid CA hostname '" ++ given ++ "': " ++ fault.message
  | .keyUnreadable => "failed to parse CA key"
  | .noCommonName => "CA certificate has no common name"
  | .malformedRequest fault => "malformed request: " ++ fault.message
  | .malformedResponse fault => "malformed response: " ++ fault.message
  | .serverName given => "invalid server name '" ++ given ++ "': invalid dns name"
  | .noCertificates => "server presented no certificates"
  | .identity expected presented =>
    "unexpected identity: expected '" ++ expected ++ "', server presented '" ++ presented ++ "'"
  | .bodyTooLarge =>
    "response body too large (max " ++ Text.decimal Limits.bodySize ++ " bytes)"
  | .missingCode => "response missing authentication"
  | .missingCertificate => "response missing certificate"
  | .otherKey => "issued certificate does not carry the requested key"
  | .reported text => text

/-- Which authentication or signature is wrong. -/
inductive SecurityCause where
  | certificateSignature (fault : SignatureFault)
  | selfSignature (fault : SignatureFault)
  | requestSignature (fault : SignatureFault)
  /-- A certificate in a chain names another issuer than the one that follows. -/
  | brokenLink (issuer subject : String)
  /-- The response does not prove knowledge of the token. -/
  | responseCode
  /-- A cause that was reported as text. -/
  | reported (text : String)
  deriving Repr, DecidableEq

/-- The wording of a cause. -/
def SecurityCause.message : SecurityCause → String
  | .certificateSignature fault => "certificate signature invalid: " ++ fault.message
  | .selfSignature fault => "self-signature invalid: " ++ fault.message
  | .requestSignature fault => "CSR signature invalid: " ++ fault.message
  | .brokenLink issuer subject =>
    "chain broken: issuer '" ++ issuer ++ "' does not match next subject '" ++ subject ++ "'"
  | .responseCode => "response HMAC mismatch: possible interception"
  | .reported text => text

/-- Why the signer cannot sign. -/
inductive SigningCause where
  | unsupportedKey
  | keyMismatch
  | algorithmMismatch (asked own : String)
  | noValidity
  | issuerContent (fault : ContentFault)
  /-- The signer returned a chain without the certificate that issued it. -/
  | chainWithoutIssuer
  /-- A cause that was reported as text. -/
  | reported (text : String)
  deriving Repr, DecidableEq

/-- The wording of a cause. -/
def SigningCause.message : SigningCause → String
  | .unsupportedKey => "unsupported CA key algorithm"
  | .keyMismatch => "CA key does not match CA certificate"
  | .algorithmMismatch asked own =>
    "signing algorithm " ++ asked ++ " does not match CA key (" ++ own ++ ")"
  | .noValidity => "validity must be at least one day"
  | .issuerContent fault => "failed to load issuer: " ++ fault.message
  | .chainWithoutIssuer => "signer returned a chain without its CA"
  | .reported text => text

-- ============================================================== failures

/-- A failure with its cause. -/
inductive Failure where
  | io (text : String)
  | tls (text : String)
  | http (text : String)
  | badStatus (status : Nat) (body : String)
  | timeout (after : Duration)
  | protocol (cause : ProtocolCause)
  | security (cause : SecurityCause)
  | signing (cause : SigningCause)
  deriving Repr, DecidableEq

namespace Failure

/-- The kind of a failure. -/
def kind : Failure → FailureKind
  | .io _ | .tls _ | .http _ | .badStatus _ _ | .timeout _ => .transport
  | .protocol _ => .protocol
  | .security _ => .security
  | .signing _ => .signing

/-- Does a failure point to interception or a wrong token? -/
def isSecurity (f : Failure) : Bool :=
  f.kind == .security

/-- The wording of a failure. -/
def message : Failure → String
  | .io text => "I/O error: " ++ text
  | .tls text => "TLS error: " ++ text
  | .http text => "HTTP error: " ++ text
  | .badStatus status body => "CA responded with status " ++ Text.decimal status ++ ": " ++ body
  | .timeout after => "request timed out after " ++ after.text
  | .protocol cause => "protocol violation: " ++ cause.message
  | .security cause => "security check failed: " ++ cause.message
  | .signing cause => "signing failed: " ++ cause.message

/-- What lies behind a failure: for one of the system, its own words. -/
def causes : Failure → List String
  | .io text => [text]
  | _ => []

end Failure

/-- What an operation breaks down at; no failure is reported then. -/
inductive Crash where
  /-- A date lies after the year 9999 and cannot be computed. -/
  | dateOutOfRange
  /-- An object identifier cannot be written. -/
  | objectIdOutOfRange
  /-- More places for connections are asked for than can be counted. -/
  | tooManyPlaces
  deriving Repr, DecidableEq

/-- What ends an operation without a result. -/
inductive Halt where
  | failed (failure : Failure)
  | crashed (crash : Crash)
  deriving Repr, DecidableEq

/-- A failure as what ends an operation. -/
def Halt.lift {α : Type} (result : Except Failure α) : Except Halt α :=
  result.mapError .failed

/-- A result with the two ways of having none told apart. -/
def Halt.settle {α : Type} : Except Halt α → Except Crash (Except Failure α)
  | .ok a => .ok (.ok a)
  | .error (.failed failure) => .ok (.error failure)
  | .error (.crashed crash) => .error crash

end Enrollment
