import BucketTransfer.Bucket.Name
import BucketTransfer.Bucket.Resource
import BucketTransfer.ByteStream
import BucketTransfer.Calendar
import BucketTransfer.Calendar.Timestamp
import BucketTransfer.Clients
import BucketTransfer.CommandLine.Arguments
import BucketTransfer.CommandLine.Error
import BucketTransfer.CommandLine.Grammar
import BucketTransfer.CommandLine.Help
import BucketTransfer.CommandLine.LogFilter
import BucketTransfer.CommandLine.Program
import BucketTransfer.CommandLine.Usage
import BucketTransfer.Connector
import BucketTransfer.Connector.Error
import BucketTransfer.Connector.LocalPath
import BucketTransfer.Credential
import BucketTransfer.DataAddress
import BucketTransfer.DataAddress.Violation
import BucketTransfer.Decimal.Shortest
import BucketTransfer.Dialogue
import BucketTransfer.Digest.Md5
import BucketTransfer.Digest.Sha256
import BucketTransfer.Files
import BucketTransfer.Files.Disk
import BucketTransfer.Files.Path
import BucketTransfer.Http
import BucketTransfer.Identifier
import BucketTransfer.Identity.Error
import BucketTransfer.Identity.Issuer
import BucketTransfer.Identity.Policy
import BucketTransfer.Identity.Remote
import BucketTransfer.Json.Printer
import BucketTransfer.Json.Reader
import BucketTransfer.Json.Record
import BucketTransfer.Json.Scan
import BucketTransfer.Json.Skip
import BucketTransfer.Json.Sorted
import BucketTransfer.Json.Value
import BucketTransfer.KeyMap
import BucketTransfer.Machine
import BucketTransfer.Machine.Simulated
import BucketTransfer.Main
import BucketTransfer.ObjectStore.Document
import BucketTransfer.ObjectStore.Error
import BucketTransfer.ObjectStore.Listing
import BucketTransfer.ObjectStore.Memory
import BucketTransfer.ObjectStore.Remote
import BucketTransfer.ObjectStore.Request
import BucketTransfer.ObjectStore.Types
import BucketTransfer.Proofs.Bucket.Name
import BucketTransfer.Proofs.Bucket.Resource
import BucketTransfer.Proofs.ByteStream.Chunks
import BucketTransfer.Proofs.Clients.Calls
import BucketTransfer.Proofs.CommandLine.Resources
import BucketTransfer.Proofs.Connector.Downloads
import BucketTransfer.Proofs.Connector.LocalPath
import BucketTransfer.Proofs.Connector.Targets
import BucketTransfer.Proofs.Connector.Uploads
import BucketTransfer.Proofs.Dialogue.Course
import BucketTransfer.Proofs.Dialogue.Interleaved
import BucketTransfer.Proofs.Dialogue.Leads
import BucketTransfer.Proofs.Dialogue.Parallel
import BucketTransfer.Proofs.Dialogue.Rehearsal
import BucketTransfer.Proofs.Dialogue.Task
import BucketTransfer.Proofs.Files.Contents
import BucketTransfer.Proofs.Files.Disk
import BucketTransfer.Proofs.Files.Path
import BucketTransfer.Proofs.Json.Numbers
import BucketTransfer.Proofs.Json.Objects
import BucketTransfer.Proofs.Json.Records
import BucketTransfer.Proofs.Json.Strings
import BucketTransfer.Proofs.KeyMap.Lookup
import BucketTransfer.Proofs.Latest
import BucketTransfer.Proofs.ObjectStore.Answered
import BucketTransfer.Proofs.ObjectStore.Assembly
import BucketTransfer.Proofs.ObjectStore.Completion
import BucketTransfer.Proofs.ObjectStore.EmptyElements
import BucketTransfer.Proofs.ObjectStore.ErrorDocuments
import BucketTransfer.Proofs.ObjectStore.Exchanges
import BucketTransfer.Proofs.ObjectStore.Failures
import BucketTransfer.Proofs.ObjectStore.Following
import BucketTransfer.Proofs.ObjectStore.History
import BucketTransfer.Proofs.ObjectStore.Memory
import BucketTransfer.Proofs.ObjectStore.Ownership
import BucketTransfer.Proofs.ObjectStore.PageDocuments
import BucketTransfer.Proofs.ObjectStore.Pages
import BucketTransfer.Proofs.ObjectStore.Paging
import BucketTransfer.Proofs.ObjectStore.Paths
import BucketTransfer.Proofs.ObjectStore.Reachable
import BucketTransfer.Proofs.ObjectStore.Records
import BucketTransfer.Proofs.ObjectStore.Rendering
import BucketTransfer.Proofs.ObjectStore.RequestDocuments
import BucketTransfer.Proofs.ObjectStore.Restricted
import BucketTransfer.Proofs.ObjectStore.Shared
import BucketTransfer.Proofs.ObjectStore.Uploads
import BucketTransfer.Proofs.Outcome
import BucketTransfer.Proofs.Provision.Attempts
import BucketTransfer.Proofs.Provision.Backoff
import BucketTransfer.Proofs.Provision.Confidential
import BucketTransfer.Proofs.Provision.Listing
import BucketTransfer.Proofs.Provision.ListingEnd
import BucketTransfer.Proofs.Provision.Removal
import BucketTransfer.Proofs.Provision.Resumption
import BucketTransfer.Proofs.Provision.Setup
import BucketTransfer.Proofs.Provision.Teardown
import BucketTransfer.Proofs.Provision.Unsteady
import BucketTransfer.Proofs.Provision.Usable
import BucketTransfer.Proofs.Query.Addresses
import BucketTransfer.Proofs.Query.BoundValues
import BucketTransfer.Proofs.Query.FallbackKeys
import BucketTransfer.Proofs.Query.Outline
import BucketTransfer.Proofs.Query.Placeholders
import BucketTransfer.Proofs.Secrets.File
import BucketTransfer.Proofs.Secrets.Keeper
import BucketTransfer.Proofs.Secrets.Shared
import BucketTransfer.Proofs.Services.InMemory
import BucketTransfer.Proofs.Services.Requested
import BucketTransfer.Proofs.Services.Scripted
import BucketTransfer.Proofs.Signing.Canonical
import BucketTransfer.Proofs.Signing.Carried
import BucketTransfer.Proofs.Signing.Covered
import BucketTransfer.Proofs.Signing.Fields
import BucketTransfer.Proofs.Signing.Parameters
import BucketTransfer.Proofs.Signing.Plain
import BucketTransfer.Proofs.Signing.Renewal
import BucketTransfer.Proofs.Text.Percent
import BucketTransfer.Proofs.Text.Pieces
import BucketTransfer.Proofs.Text.Values
import BucketTransfer.Proofs.Transfer.Concurrent
import BucketTransfer.Proofs.Transfer.Effect
import BucketTransfer.Proofs.Transfer.Privilege
import BucketTransfer.Proofs.Transfer.Protocol
import BucketTransfer.Proofs.Transfer.RoundTrip
import BucketTransfer.Proofs.Transfer.Run
import BucketTransfer.Proofs.Transfer.Success
import BucketTransfer.Proofs.Url.Parts
import BucketTransfer.Proofs.Utf8
import BucketTransfer.Proofs.Xml.Content
import BucketTransfer.Proofs.Xml.Cut
import BucketTransfer.Proofs.Xml.Ends
import BucketTransfer.Proofs.Xml.Escape
import BucketTransfer.Proofs.Xml.Notation
import BucketTransfer.Proofs.Xml.Overrun
import BucketTransfer.Proofs.Xml.Reading
import BucketTransfer.Proofs.Xml.Record
import BucketTransfer.Proofs.Xml.Scan
import BucketTransfer.Proofs.Xml.Shape
import BucketTransfer.Proofs.Xml.Written
import BucketTransfer.Provision.Error
import BucketTransfer.Provision.Generator
import BucketTransfer.Provision.Provisioner
import BucketTransfer.Provision.Retry
import BucketTransfer.Provision.Violation
import BucketTransfer.Query.Criterion
import BucketTransfer.Query.Error
import BucketTransfer.Query.Path
import BucketTransfer.Query.Schema
import BucketTransfer.Query.Statement
import BucketTransfer.Query.Store
import BucketTransfer.Query.Translate
import BucketTransfer.Rehearsal
import BucketTransfer.Secrets.Error
import BucketTransfer.Secrets.File
import BucketTransfer.Secrets.Memory
import BucketTransfer.Services.Connected
import BucketTransfer.Services.InMemory
import BucketTransfer.Services.Scripted
import BucketTransfer.Settings
import BucketTransfer.Signing.Canonical
import BucketTransfer.Signing.Headers
import BucketTransfer.Signing.Scheme
import BucketTransfer.Text.Base64
import BucketTransfer.Text.Blank
import BucketTransfer.Text.Hex
import BucketTransfer.Text.Lowercase
import BucketTransfer.Text.Number
import BucketTransfer.Text.Percent
import BucketTransfer.Text.Quoted
import BucketTransfer.Text.Split
import BucketTransfer.Text.Visible
import BucketTransfer.Transfer.Access
import BucketTransfer.Transfer.Error
import BucketTransfer.Transfer.Part
import BucketTransfer.Transfer.Sink
import BucketTransfer.Transfer.Source
import BucketTransfer.Url
import BucketTransfer.Url.Address
import BucketTransfer.Url.Error
import BucketTransfer.Url.Host
import BucketTransfer.Url.Punycode
import BucketTransfer.Utf8
import BucketTransfer.World
import BucketTransfer.Xml.Error
import BucketTransfer.Xml.Event
import BucketTransfer.Xml.Reader
import BucketTransfer.Xml.Writer
