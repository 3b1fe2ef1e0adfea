/-
The exchange of a client with an authority it does not know yet.

The chain that is presented in the handshake is captured, not believed.  It is
believed once the response carries a code over the key of its first
certificate, for only who knows the token can have made that.  The name in that
certificate is compared as well, which keeps a client from asking the wrong
host and proves nothing.
-/
import Enrollment.Client.Contact
import Enrollment.Client.Outcome
import Enrollment.Client.Settings
import Enrollment.Message
import Enrollment.Net.HostName
import Enrollment.SigningRequest.Generate

namespace Enrollment

/-- A client, with its settings and the token it shares with the authority. -/
structure Client where
  settings : Client.Settings
  token : Token

namespace Client

-- ============================================================ the client

/-- What is noted when a client is made. -/
def notices (c : Client) : List Notice := c.token.notices

/-- The name that the authority's certificate has to bear. -/
def expectedIdentity (c : Client) : String := c.settings.host

/-- The text that the capturing of chains is shown as. -/
def describeCapture (c : Client) : String :=
  "TrustCaptureConnector \x7b expected_identity: " ++ Text.quoted c.expectedIdentity ++ ", .. \x7d"

/-- The text that a client is shown as; it does not give the token away. -/
def describe (c : Client) : String :=
  "RemoteClient \x7b settings: " ++ c.settings.describe ++ ", token: " ++ c.token.describe
    ++ ", connector: " ++ c.describeCapture ++ " \x7d"

-- ============================================================= capturing

/-- The chain that was presented, if its first certificate bears the expected
name. -/
def capture (expected : String) (presented : List Bytes) : Except Failure Chain := do
  if presented.isEmpty then throw (.protocol .noCertificates)
  let chain ← Chain.ofDers presented
  if chain.leaf.commonName ≠ some expected then
    throw (.protocol (.identity expected (chain.leaf.commonName.getD "")))
  return chain

/-- Opens a connection and captures the chain presented on it. -/
def connect (c : Client) (network : Network) :
    Except Failure (Chain × (Http.Request → Answer)) := do
  let host := c.settings.host
  if !Net.HostName.isServer host then throw (.protocol (.serverName host))
  match network host c.settings.port with
  | .refused text => throw (.io text)
  | .handshakeFailed text => throw (.tls text)
  | .stalled => throw (.timeout c.settings.timeout)
  | .connected presented answer => return (← capture c.expectedIdentity presented, answer)

-- ================================================================ sending

/-- The request as it is sent. -/
def toHttp (c : Client) (csr : SigningRequest) : Http.Request where
  method := Http.signMethod
  path := Http.signPath
  headers :=
    [("host", c.settings.host ++ ":" ++ Text.decimal c.settings.port),
      ("content-type", Http.contentType)]
  body := .ofBytes (Request.ofToken c.token csr).toJson

/-- The bytes of a response's body. -/
def readBody (c : Client) (body : Http.Body) : Except Failure Bytes :=
  (body.read Limits.bodySize).mapError fun
    | .tooLarge => .protocol .bodyTooLarge
    | .broken => .http "failed to read response"
    | .stalled => .timeout c.settings.timeout

-- ================================================================ judging

variable [Signatures]

/-- Judges a response with its body read: the chain that was asked for, or the
first thing that is wrong with it. -/
def judge (token : Token) (csr : SigningRequest) (presented : Chain) (response : Http.Response)
    (body : Bytes) : Except Failure Chain := do
  if !response.isSuccess then throw (.badStatus response.status (Utf8.decodeLossy body))
  let message ← Response.ofJson body
  let some code := message.hmac | throw (.protocol .missingCode)
  let some text := message.certificate | throw (.protocol .missingCertificate)
  if !token.verify presented.leaf.publicKey code then throw (.security .responseCode)
  let leaf ← Certificate.ofPem text
  leaf.verifySignedBy presented.leaf
  if leaf.publicKey ≠ csr.publicKey then throw (.protocol .otherKey)
  presented.prepend leaf

/-- What comes of an answer, for a request that some stages led to. -/
def receive (c : Client) (csr : SigningRequest) (presented : Chain) (stages : List Stage) :
    Answer → Outcome
  | .broken text => .after stages (.error (.http ("request failed: " ++ text)))
  | .stalled => .after stages (.error (.timeout c.settings.timeout))
  | .response response =>
    match c.readBody response.body with
    | .error failure => .after (stages ++ [.requestSent]) (.error failure)
    | .ok body =>
      .after (stages ++ [.requestSent, .responseReceived])
        (judge c.token csr presented response body)

/-- Runs one exchange for a request that some stages led to. -/
def exchange (c : Client) (network : Network) (csr : SigningRequest) (stages : List Stage) :
    Outcome :=
  match c.connect network with
  | .error failure => .after stages (.error failure)
  | .ok (presented, answer) => c.receive csr presented stages (answer (c.toHttp csr))

/-- Has a request signed: the issued certificate comes in front of the chain that
was captured. -/
def sign (c : Client) (network : Network) (csr : SigningRequest) : Outcome :=
  c.exchange network csr [.keyGenerated]

-- ================================================================ issuing

/-- A fresh key and a request for it, from drawn bytes. -/
def prepare (c : Client) (subject : String) (draw : Bytes) :
    Except Halt (KeyPair × SigningRequest) :=
  let key := KeyPair.generate c.settings.algorithm draw
  (SigningRequest.generate subject c.settings.names key).map (key, ·)

/-- Makes a key, has a certificate issued for it, and hands over both. -/
def issue (c : Client) (network : Network) (subject : String) (draw : Bytes) :
    Except Halt (KeyPair × Outcome) :=
  (c.prepare subject draw).map fun (key, csr) =>
    (key, c.exchange network csr [.init, .keyGenerated])

end Client

end Enrollment
