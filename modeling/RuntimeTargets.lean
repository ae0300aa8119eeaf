import RuntimeTargets.Target.Catalog
import RuntimeTargets.Target.Sheet
import RuntimeTargets.Target.Record
import RuntimeTargets.ClassSpace.AddressSpace
import RuntimeTargets.Stack.Zones
import RuntimeTargets.NativeCall.Signature
import RuntimeTargets.Layout
import RuntimeTargets.Cell.Clients
import RuntimeTargets.Text.Json.Reader
import RuntimeTargets.Digest.Sha256
import RuntimeTargets.Text.ShellWord
import RuntimeTargets.Text.Toml.Document
import RuntimeTargets.Selection
import RuntimeTargets.Upkeep.FaithfulTool
import RuntimeTargets.Main
import RuntimeTargets.Proofs.Word
import RuntimeTargets.Proofs.Journal
import RuntimeTargets.Proofs.Alignment
import RuntimeTargets.Proofs.Alignment.RoundingUp
import RuntimeTargets.Proofs.Alignment.Neighbours
import RuntimeTargets.Proofs.Target.Laws
import RuntimeTargets.Proofs.Target.Consistency
import RuntimeTargets.Proofs.ClassSpace.Narrowing
import RuntimeTargets.Proofs.ClassSpace.Coverage
import RuntimeTargets.Proofs.ClassSpace.Walk
import RuntimeTargets.Proofs.ClassSpace.Candidates
import RuntimeTargets.Proofs.ClassSpace.Search
import RuntimeTargets.Proofs.ClassSpace.Placement
import RuntimeTargets.Proofs.Layout.Resolution
import RuntimeTargets.Proofs.Layout.Placeable
import RuntimeTargets.Proofs.Layout.Warnings
import RuntimeTargets.Proofs.Span
import RuntimeTargets.Proofs.Stack.Layout
import RuntimeTargets.Proofs.Stack.Regions
import RuntimeTargets.Proofs.Stack.Reserve
import RuntimeTargets.Proofs.Stack.Requests
import RuntimeTargets.Proofs.Stack.Shadow
import RuntimeTargets.Proofs.Stack.Paging
import RuntimeTargets.Proofs.NativeCall.Signature
import RuntimeTargets.Proofs.NativeCall.Outgoing
import RuntimeTargets.Proofs.NativeCall.Widening
import RuntimeTargets.Proofs.Cell.Strategies
import RuntimeTargets.Proofs.Cell.Additions
import RuntimeTargets.Proofs.Isolation.Agreement
import RuntimeTargets.Proofs.Isolation.Distinction
import RuntimeTargets.Proofs.Arithmetic
import RuntimeTargets.Proofs.ClassSpace.Spacing
import RuntimeTargets.Proofs.Text.Json.Scanning
import RuntimeTargets.Proofs.Text.Json.RoundTrip
import RuntimeTargets.Proofs.Text.Json.Compact
import RuntimeTargets.Proofs.Text.Fields
import RuntimeTargets.Proofs.Target.Sheet
import RuntimeTargets.Proofs.Target.Record
import RuntimeTargets.Proofs.Selection
import RuntimeTargets.Proofs.Text.Hex
import RuntimeTargets.Proofs.Text.Utf8
import RuntimeTargets.Proofs.Upkeep.CommandLines
import RuntimeTargets.Proofs.Upkeep.Session
import RuntimeTargets.Proofs.Upkeep.Finding
import RuntimeTargets.Proofs.Upkeep.Determinism
import RuntimeTargets.Proofs.Upkeep.Calls
import RuntimeTargets.Proofs.Upkeep.FaithfulTool
