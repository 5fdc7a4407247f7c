import CloudProvider.Action.Arguments
import CloudProvider.Action.Standard
import CloudProvider.Action.Table
import CloudProvider.ActionError
import CloudProvider.Agent.Environment
import CloudProvider.Archive.Crc32
import CloudProvider.Archive.Fault
import CloudProvider.Archive.Gzip
import CloudProvider.Archive.Huffman
import CloudProvider.Archive.Inflate
import CloudProvider.Archive.Source
import CloudProvider.Archive.Stemcell
import CloudProvider.Archive.Tar
import CloudProvider.Blueprint
import CloudProvider.Cloud.Call
import CloudProvider.Cloud.Disk
import CloudProvider.Cloud.Error
import CloudProvider.Cloud.Id
import CloudProvider.Cloud.Task
import CloudProvider.Cloud.Vm
import CloudProvider.Command
import CloudProvider.CommandLine
import CloudProvider.Config
import CloudProvider.Decimal.Binary64
import CloudProvider.Dispatch
import CloudProvider.Envelope
import CloudProvider.Exponent
import CloudProvider.Files.Fault
import CloudProvider.Files.Tree
import CloudProvider.Host.Programs
import CloudProvider.Host.Shell
import CloudProvider.Host.Word
import CloudProvider.Http.Answer
import CloudProvider.Http.Host
import CloudProvider.Http.Message
import CloudProvider.Http.Remote
import CloudProvider.Http.Request
import CloudProvider.Http.Url
import CloudProvider.Json.Codec
import CloudProvider.Json.Fault
import CloudProvider.Json.Reader
import CloudProvider.Json.Record
import CloudProvider.Json.Skip
import CloudProvider.Json.Value
import CloudProvider.Main
import CloudProvider.Names.Generator
import CloudProvider.Names.Keystream
import CloudProvider.Names.Ulid
import CloudProvider.Pipeline.AgentImage
import CloudProvider.Pipeline.Disks
import CloudProvider.Pipeline.Stemcells
import CloudProvider.Pipeline.Step
import CloudProvider.Pipeline.Vms
import CloudProvider.Policy
import CloudProvider.Program
import CloudProvider.Proofs.Acceptance
import CloudProvider.Proofs.ActionTable
import CloudProvider.Proofs.Addresses
import CloudProvider.Proofs.Admission
import CloudProvider.Proofs.Agreement
import CloudProvider.Proofs.BitReading
import CloudProvider.Proofs.Breakdowns
import CloudProvider.Proofs.Cancellation
import CloudProvider.Proofs.Changes
import CloudProvider.Proofs.Characters
import CloudProvider.Proofs.Classification
import CloudProvider.Proofs.Clock
import CloudProvider.Proofs.CodecReadings
import CloudProvider.Proofs.Dealings
import CloudProvider.Proofs.Deeds
import CloudProvider.Proofs.DeflateFormat
import CloudProvider.Proofs.Discipline
import CloudProvider.Proofs.DiskOrders
import CloudProvider.Proofs.Documents
import CloudProvider.Proofs.Envelopes
import CloudProvider.Proofs.Existence
import CloudProvider.Proofs.Failures
import CloudProvider.Proofs.FreshNames
import CloudProvider.Proofs.Grammar
import CloudProvider.Proofs.GzipMembers
import CloudProvider.Proofs.History
import CloudProvider.Proofs.Interleaving
import CloudProvider.Proofs.Legibility
import CloudProvider.Proofs.LocalFailures
import CloudProvider.Proofs.Lowercasing
import CloudProvider.Proofs.Mishaps
import CloudProvider.Proofs.Numbers
import CloudProvider.Proofs.Parts
import CloudProvider.Proofs.Passages
import CloudProvider.Proofs.PercentCoding
import CloudProvider.Proofs.Provisioning
import CloudProvider.Proofs.Readings
import CloudProvider.Proofs.Reads
import CloudProvider.Proofs.Recording
import CloudProvider.Proofs.Records
import CloudProvider.Proofs.Replies
import CloudProvider.Proofs.Requests
import CloudProvider.Proofs.Restoring
import CloudProvider.Proofs.Resumption
import CloudProvider.Proofs.ScriptQueues
import CloudProvider.Proofs.SetupAnswers
import CloudProvider.Proofs.SetupOrder
import CloudProvider.Proofs.Signatures
import CloudProvider.Proofs.Skips
import CloudProvider.Proofs.Spelling
import CloudProvider.Proofs.StemcellImage
import CloudProvider.Proofs.StemcellMembers
import CloudProvider.Proofs.Strings
import CloudProvider.Proofs.Targets
import CloudProvider.Proofs.Teardown
import CloudProvider.Proofs.Tokens
import CloudProvider.Proofs.TrailLines
import CloudProvider.Proofs.WaitEvents
import CloudProvider.Proofs.WaitOutcome
import CloudProvider.Proofs.WaitSafety
import CloudProvider.Proofs.WireTypes
import CloudProvider.Rehearsal
import CloudProvider.Script
import CloudProvider.Setup
import CloudProvider.Text.Base64
import CloudProvider.Text.Blank
import CloudProvider.Text.Casing
import CloudProvider.Text.Dictionary
import CloudProvider.Text.Extending
import CloudProvider.Text.Lowercase
import CloudProvider.Text.Percent
import CloudProvider.Text.Punycode
import CloudProvider.Text.Quoted
import CloudProvider.Text.Ranges
import CloudProvider.Text.Similarity
import CloudProvider.Text.Unprintable
import CloudProvider.Text.Utf8
import CloudProvider.Time.Moment
import CloudProvider.Time.Phrase
import CloudProvider.Time.Span
import CloudProvider.Trail
import CloudProvider.Wait
