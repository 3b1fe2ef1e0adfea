import Enrollment.Authority.Basic
import Enrollment.Authority.Signer
import Enrollment.Base64
import Enrollment.Bytes
import Enrollment.Certificate.AlternativeName
import Enrollment.Certificate.Basic
import Enrollment.Certificate.Chain
import Enrollment.Certificate.Fields
import Enrollment.Certificate.Kept
import Enrollment.Certificate.Parts
import Enrollment.Certificate.Period
import Enrollment.Certificate.Presentable
import Enrollment.Certificate.Template
import Enrollment.Client.Contact
import Enrollment.Client.Exchange
import Enrollment.Client.Outcome
import Enrollment.Client.Settings
import Enrollment.Command.Init
import Enrollment.Command.Job
import Enrollment.Command.Request
import Enrollment.Command.Serve
import Enrollment.CommandLine.Init
import Enrollment.CommandLine.Options
import Enrollment.CommandLine.Program
import Enrollment.CommandLine.Request
import Enrollment.CommandLine.Serve
import Enrollment.CommandLine.Value
import Enrollment.Crypto.Edwards
import Enrollment.Crypto.Modular
import Enrollment.Crypto.Rsa
import Enrollment.Crypto.Scheme
import Enrollment.Crypto.Standard
import Enrollment.Crypto.Weierstrass
import Enrollment.Decimal.Shortest
import Enrollment.Der.Basic
import Enrollment.Der.Indefinite
import Enrollment.Der.ObjectId
import Enrollment.Der.Strict
import Enrollment.Der.Time
import Enrollment.Der.Value
import Enrollment.Duration
import Enrollment.Failure
import Enrollment.FileTree
import Enrollment.Hash.Hmac
import Enrollment.Hash.Sha1
import Enrollment.Hash.Sha2
import Enrollment.Http
import Enrollment.Json.Fault
import Enrollment.Json.Number
import Enrollment.Json.Record
import Enrollment.Json.Skip
import Enrollment.Json.Text
import Enrollment.Key.Document
import Enrollment.Key.Kind
import Enrollment.Key.Pair
import Enrollment.KeyAlgorithm
import Enrollment.Limits
import Enrollment.Main
import Enrollment.Message
import Enrollment.Name.Basic
import Enrollment.Name.Entries
import Enrollment.Name.Label
import Enrollment.Name.Text
import Enrollment.Name.Written
import Enrollment.Net.Address
import Enrollment.Net.HostName
import Enrollment.Notice
import Enrollment.Pem
import Enrollment.Power
import Enrollment.Proofs.Agreement
import Enrollment.Proofs.Authority.Basic
import Enrollment.Proofs.Authority.Coherence
import Enrollment.Proofs.Authority.Crash
import Enrollment.Proofs.Authority.Issuance
import Enrollment.Proofs.Authority.Period
import Enrollment.Proofs.Authority.Privileges
import Enrollment.Proofs.Authority.Readiness
import Enrollment.Proofs.Authority.Serial
import Enrollment.Proofs.Authority.Signer
import Enrollment.Proofs.Authority.Subject
import Enrollment.Proofs.Base64
import Enrollment.Proofs.Base64.Canonical
import Enrollment.Proofs.Bytes
import Enrollment.Proofs.Certificate.AlternativeName
import Enrollment.Proofs.Certificate.Basic
import Enrollment.Proofs.Certificate.Bundle
import Enrollment.Proofs.Certificate.Chain
import Enrollment.Proofs.Certificate.Conditions
import Enrollment.Proofs.Certificate.Cut
import Enrollment.Proofs.Certificate.Extension
import Enrollment.Proofs.Certificate.Fields
import Enrollment.Proofs.Certificate.Kept
import Enrollment.Proofs.Certificate.Layout
import Enrollment.Proofs.Certificate.Period
import Enrollment.Proofs.Certificate.PublicKey
import Enrollment.Proofs.Certificate.Readable
import Enrollment.Proofs.Certificate.Template
import Enrollment.Proofs.Client.Acceptance
import Enrollment.Proofs.Client.Conduct
import Enrollment.Proofs.Client.Issue
import Enrollment.Proofs.Client.Links
import Enrollment.Proofs.Command.Init
import Enrollment.Proofs.Command.Job
import Enrollment.Proofs.Command.Remainder
import Enrollment.Proofs.Command.Request
import Enrollment.Proofs.CommandLine.Timeout
import Enrollment.Proofs.Der.Element
import Enrollment.Proofs.Der.Integer
import Enrollment.Proofs.Der.Many
import Enrollment.Proofs.Der.Reader
import Enrollment.Proofs.Der.Strict
import Enrollment.Proofs.Der.Time
import Enrollment.Proofs.Duration
import Enrollment.Proofs.Except
import Enrollment.Proofs.FileTree
import Enrollment.Proofs.Hash.Hmac
import Enrollment.Proofs.Http
import Enrollment.Proofs.Json.Document
import Enrollment.Proofs.Json.Record
import Enrollment.Proofs.Json.Refine
import Enrollment.Proofs.Json.Skip
import Enrollment.Proofs.Json.Text
import Enrollment.Proofs.Key.Document
import Enrollment.Proofs.Links
import Enrollment.Proofs.Message
import Enrollment.Proofs.Message.Canonical
import Enrollment.Proofs.Message.Delivery
import Enrollment.Proofs.Message.Writing
import Enrollment.Proofs.Name.Alike
import Enrollment.Proofs.Name.Components
import Enrollment.Proofs.Name.Entries
import Enrollment.Proofs.Name.Escaped
import Enrollment.Proofs.Name.Label
import Enrollment.Proofs.Name.Pieces
import Enrollment.Proofs.Name.Remaining
import Enrollment.Proofs.Name.Text
import Enrollment.Proofs.Name.Written
import Enrollment.Proofs.Net.Address
import Enrollment.Proofs.Pem
import Enrollment.Proofs.Refinement
import Enrollment.Proofs.Service.Discretion
import Enrollment.Proofs.Service.Handler
import Enrollment.Proofs.Service.LifeCycle
import Enrollment.Proofs.Service.Places
import Enrollment.Proofs.Service.RateLimit
import Enrollment.Proofs.Service.Route
import Enrollment.Proofs.Service.Tokens
import Enrollment.Proofs.Service.Workings
import Enrollment.Proofs.SigningRequest.Basic
import Enrollment.Proofs.SigningRequest.Content
import Enrollment.Proofs.SigningRequest.Generate
import Enrollment.Proofs.Sizes
import Enrollment.Proofs.Text.Blank
import Enrollment.Proofs.Text.Utf8
import Enrollment.Proofs.Time.Calendar
import Enrollment.Service.Handler
import Enrollment.Service.Identity
import Enrollment.Service.Limiter
import Enrollment.Service.Reachable
import Enrollment.Service.Reply
import Enrollment.Service.Route
import Enrollment.Service.Run
import Enrollment.Service.Server
import Enrollment.Service.Settings
import Enrollment.Service.Workings
import Enrollment.SigningRequest.Basic
import Enrollment.SigningRequest.Content
import Enrollment.SigningRequest.Fields
import Enrollment.SigningRequest.Generate
import Enrollment.Text.Blank
import Enrollment.Text.Printable
import Enrollment.Text.Quoted
import Enrollment.Text.Utf8
import Enrollment.Time.Calendar
import Enrollment.Token
