import Treewire.Text
import Treewire.Text.Utf8
import Treewire.Number.Decimal
import Treewire.Json.Reader
import Treewire.Schema.Bundled
import Treewire.Wire
import Treewire.Message.Decode
import Treewire.Message.Listing
import Treewire.Script.Convert
import Treewire.Script.Reading
import Treewire.Script.Command
import Treewire.Configuration
import Treewire.Proto.Grammar
import Treewire.Proto.Feature
import Treewire.Proto.Setting
import Treewire.Proto.Name
import Treewire.Proto.Rule
import Treewire.Proto.Link
import Treewire.Proto.Import
import Treewire.Schema.Store
import Treewire.Text.Octet
import Treewire.Text.Trim
import Treewire.Machine
import Treewire.Log.Layout
import Treewire.Log
import Treewire.Launcher
import Treewire.Session.Failure
import Treewire.Session
import Treewire.Search
import Treewire.Invocation
import Treewire.Session.Schemas
import Treewire.Frontend
import Treewire.Shell.Syntax
import Treewire.Shell.Grammar
import Treewire.Shell.Print
import Treewire.Shell.Test
import Treewire.Shell.Pattern
import Treewire.Shell.Process
import Treewire.Shell.Tool
import Treewire.Shell.Executable
import Treewire.Shell.Arithmetic
import Treewire.Shell.Builtin
import Treewire.Shell.Expansion
import Treewire.Shell.Evaluation
import Treewire.Shell.Launch
import Treewire.CommandLine.Arguments
import Treewire.CommandLine.Run
import Treewire.Machine.Edit
import Treewire.CommandLine.Surroundings
import Treewire.CommandLine.Display
import Treewire.Main
import Treewire.Proofs.Utf8
import Treewire.Proofs.Records
import Treewire.Proofs.Encoding
import Treewire.Proofs.Typing
import Treewire.Proofs.WellFormed
import Treewire.Proofs.Conversion
import Treewire.Proofs.Converted
import Treewire.Proofs.Writing
import Treewire.Proofs.Contexts
import Treewire.Proofs.Distinctions
import Treewire.Proofs.Dictionary
import Treewire.Proofs.RoundTrip
import Treewire.Proofs.Presence
import Treewire.Proofs.Grammar
import Treewire.Proofs.Verdict
import Treewire.Proofs.Normal
import Treewire.Proofs.Recovery
import Treewire.Proofs.Keeping
import Treewire.Proofs.Choices
import Treewire.Proofs.Deciding
import Treewire.Proofs.Acts
import Treewire.Proofs.Places
import Treewire.Proofs.Launching
import Treewire.Proofs.Calling
import Treewire.Proofs.Composing
import Treewire.Proofs.Cleanup
import Treewire.Proofs.Company
import Treewire.Proofs.Compiling
import Treewire.Proofs.Naming
import Treewire.Proofs.Scratch
import Treewire.Proofs.Amid
import Treewire.Proofs.Stepping
import Treewire.Proofs.Interleaving
import Treewire.Proofs.Fetching
import Treewire.Proofs.Rooted
import Treewire.Proofs.Loading
import Treewire.Proofs.Admitting
import Treewire.Proofs.Judging
import Treewire.Proofs.Absolute
import Treewire.Proofs.Establishing
import Treewire.Proofs.Rounding
import Treewire.Proofs.Shortest
import Treewire.Proofs.Figures
import Treewire.Proofs.Keys
import Treewire.Proofs.Documents
import Treewire.Proofs.Printing
import Treewire.Proofs.Serving
import Treewire.Proofs.Answering
import Treewire.Proofs.Speaking
import Treewire.Proofs.Memory
import Treewire.Proofs.Recall
import Treewire.Proofs.Moving
import Treewire.Proofs.Overlooking
import Treewire.Proofs.Requests
import Treewire.Proofs.Selecting
import Treewire.Proofs.Decoded
import Treewire.Proofs.Agreement
import Treewire.Proofs.Sameness
import Treewire.Proofs.Listings
import Treewire.Proofs.Views
import Treewire.Proofs.Truncation
import Treewire.Proofs.Bodies
import Treewire.Proofs.Foreign
import Treewire.Proofs.Merging
import Treewire.Proofs.Insertion
import Treewire.Proofs.Portable
import Treewire.Proofs.Exiting
import Treewire.Proofs.Sources
import Treewire.Proofs.Tidying
import Treewire.Proofs.Masking
import Treewire.Proofs.Reporting
import Treewire.Proofs.Spelling
import Treewire.Proofs.Anchoring
import Treewire.Proofs.Searching
import Treewire.Proofs.FirstMatch
import Treewire.Proofs.Obstacles
import Treewire.Proofs.Elsewhere
import Treewire.Proofs.Installing
import Treewire.Proofs.Alone
import Treewire.Proofs.Descents
import Treewire.Proofs.Siting
