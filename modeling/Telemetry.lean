import Telemetry.Allocation
import Telemetry.Backoff
import Telemetry.Binary64.Basic
import Telemetry.Binary64.Decimal
import Telemetry.Binary64.Text
import Telemetry.Cipher.Blocks
import Telemetry.Cipher.Der
import Telemetry.Cipher.Oaep
import Telemetry.Cipher.Pem
import Telemetry.Cipher.Rsa
import Telemetry.Collector
import Telemetry.CommandLine
import Telemetry.Deflate.Alphabet
import Telemetry.Deflate.Bits
import Telemetry.Deflate.CodeLengths
import Telemetry.Deflate.Codebook
import Telemetry.Deflate.Inflate
import Telemetry.Deflate.Pack
import Telemetry.Deflate.Tokens
import Telemetry.Digest.Crc32
import Telemetry.Digest.Hmac
import Telemetry.Digest.Sha256
import Telemetry.Disk
import Telemetry.Gzip
import Telemetry.Halt
import Telemetry.Http.App
import Telemetry.Http.Ingress
import Telemetry.Http.Message
import Telemetry.Http.Route
import Telemetry.Json.Cursor
import Telemetry.Json.Number
import Telemetry.Json.Text
import Telemetry.Json.Value
import Telemetry.Listener
import Telemetry.Log
import Telemetry.Main
import Telemetry.Metric.Basic
import Telemetry.Metric.Json
import Telemetry.Metric.Protobuf
import Telemetry.Metric.Verification
import Telemetry.NameMap
import Telemetry.Network
import Telemetry.OpenFile
import Telemetry.Page
import Telemetry.Pool
import Telemetry.Protobuf.Wire
import Telemetry.Provider
import Telemetry.Report.Envelope
import Telemetry.Report.Generator
import Telemetry.Report.Ledger
import Telemetry.Report.Reporter
import Telemetry.Report.Transport
import Telemetry.Report.Worker
import Telemetry.Rpc
import Telemetry.Samples
import Telemetry.Security
import Telemetry.Service
import Telemetry.Settings.Agent
import Telemetry.Settings.Server
import Telemetry.Settings.Source
import Telemetry.Signature
import Telemetry.Store.Backend
import Telemetry.Store.Error
import Telemetry.Store.Memory
import Telemetry.Store.Relational
import Telemetry.Store.Snapshot
import Telemetry.Store.Tables
import Telemetry.Supervisor
import Telemetry.Text.Base64
import Telemetry.Text.Blank
import Telemetry.Text.CharacterRanges
import Telemetry.Text.Cut
import Telemetry.Text.Hex
import Telemetry.Text.Integer
import Telemetry.Text.Parts
import Telemetry.Text.Quoted
import Telemetry.Text.Utf8
import Telemetry.Toml.Document
import Telemetry.Toml.Number
import Telemetry.Toml.Reader
import Telemetry.Toml.Table
import Telemetry.Toml.Text
import Telemetry.Uri
import Telemetry.Proofs.Report.Accounting
import Telemetry.Proofs.Disk
import Telemetry.Proofs.Json.Container
import Telemetry.Proofs.Metric.Document
import Telemetry.Proofs.Service
import Telemetry.Proofs.Store.Durability
import Telemetry.Proofs.Store.Race
import Telemetry.Proofs.Cipher.Blocks
import Telemetry.Proofs.Cipher.Oaep
import Telemetry.Proofs.Cipher.Payload
import Telemetry.Proofs.Cipher.Rsa
import Telemetry.Proofs.Deflate.Framing
import Telemetry.Proofs.Gzip
import Telemetry.Proofs.Gzip.History
import Telemetry.Proofs.Digest.Crc32
import Telemetry.Proofs.Http.Layers
import Telemetry.Proofs.Metric.Message
import Telemetry.Proofs.Report.Delivery
import Telemetry.Proofs.Report.Encoding
import Telemetry.Proofs.NameMap
import Telemetry.Proofs.Samples
import Telemetry.Proofs.Service.Batch
import Telemetry.Proofs.Service.Record
import Telemetry.Proofs.Service.History
import Telemetry.Proofs.Service.Serial
import Telemetry.Proofs.Http.Admission
import Telemetry.Proofs.Gate
import Telemetry.Proofs.Metric.Format
import Telemetry.Proofs.Metric.Truncation
import Telemetry.Proofs.Allocation
import Telemetry.Proofs.Backoff
import Telemetry.Proofs.Protobuf.Format
import Telemetry.Proofs.Http.Signing
import Telemetry.Proofs.Store.Tables
import Telemetry.Proofs.Store.Relational
import Telemetry.Proofs.Store.Agreement
import Telemetry.Proofs.Store.Transaction
import Telemetry.Proofs.Service.Resend
import Telemetry.Proofs.Supervisor
import Telemetry.Proofs.Pool
import Telemetry.Proofs.Provider
import Telemetry.Proofs.Report.Channel
import Telemetry.Proofs.Report.Chunks
import Telemetry.Proofs.Store.Precision
import Telemetry.Proofs.Http.Coding
import Telemetry.Proofs.Http.Compression
import Telemetry.Proofs.Http.Limits
import Telemetry.Proofs.Deflate.Run
import Telemetry.Proofs.Store.Conflict
import Telemetry.Proofs.Supervisor.Refusal
import Telemetry.Proofs.Store.Restore
import Telemetry.Proofs.Disk.Cell
import Telemetry.Proofs.Page
import Telemetry.Proofs.Page.Order
import Telemetry.Proofs.Text.Base64
import Telemetry.Proofs.Text.Cut
import Telemetry.Proofs.Log
import Telemetry.Proofs.Cipher.Der
import Telemetry.Proofs.Cipher.Pem
import Telemetry.Proofs.Cipher.KeySize
