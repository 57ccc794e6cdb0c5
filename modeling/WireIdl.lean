import WireIdl.Client.Basic
import WireIdl.Demo.Targets
import WireIdl.Emit.Assembly
import WireIdl.Record.Display
import WireIdl.Session
import WireIdl.Proofs.Wire.Bytes
import WireIdl.Proofs.Wire.Reader
import WireIdl.Proofs.Wire.Grammar
import WireIdl.Proofs.Wire.Skip
import WireIdl.Proofs.Record.Meaning
import WireIdl.Proofs.Record.LastField
import WireIdl.Proofs.Record.Fits
import WireIdl.Proofs.Record.RoundTrip
import WireIdl.Proofs.Schema.Reach
import WireIdl.Proofs.Value.Alike
import WireIdl.Proofs.Value.Identity
import WireIdl.Proofs.Value.Building
import WireIdl.Proofs.Record.Identity
import WireIdl.Proofs.Value.Twin
import WireIdl.Proofs.Record.Tolerant
import WireIdl.Proofs.Emit.Pruned
import WireIdl.Proofs.Client.Answer
import WireIdl.Proofs.Client.Call
import WireIdl.Proofs.Wire.Streaming
import WireIdl.Proofs.Record.Streaming
import WireIdl.Proofs.Record.Extent
import WireIdl.Proofs.Emit.Whole
import WireIdl.Proofs.Record.Depth
import WireIdl.Proofs.Client.Request
import WireIdl.Proofs.Client.Run
import WireIdl.Proofs.Session.LoopBack
import WireIdl.Proofs.Wire.Composed
import WireIdl.Proofs.Wire.Headers
import WireIdl.Proofs.Record.Composed
import WireIdl.Proofs.Record.Sizes
import WireIdl.Proofs.Session.State
import WireIdl.Proofs.Value.Order
import WireIdl.Proofs.Record.Rewalk
import WireIdl.Proofs.Record.Canonical
import WireIdl.Proofs.Emit.Calls
import WireIdl.Proofs.Emit.Mirror
import WireIdl.Proofs.Emit.FieldTable
import WireIdl.Proofs.Code.Writer
import WireIdl.Proofs.Code.Ink
import WireIdl.Proofs.Code.Refusal
import WireIdl.Proofs.Code.Reindent
import WireIdl.Proofs.Emit.Assembly
import WireIdl.Proofs.Emit.Agreement
import WireIdl.Proofs.Emit.Transparency
import WireIdl.Proofs.Emit.Renaming
import WireIdl.Proofs.Emit.Summaries
import WireIdl.Proofs.Schema.Expansion
import WireIdl.Proofs.Emit.References
import WireIdl.Proofs.Emit.Template
import WireIdl.Proofs.Emit.RootedRecords
import WireIdl.Proofs.Emit.RootedServices
import WireIdl.Proofs.Emit.Paths
import WireIdl.Proofs.Emit.Boxing
import WireIdl.Proofs.Emit.KeyTraits
import WireIdl.Proofs.Emit.DisplayText
import WireIdl.Proofs.Emit.Inlining
import WireIdl.Proofs.Emit.StringConstants
import WireIdl.Proofs.Record.Setters
import WireIdl.Proofs.Record.Choice
import WireIdl.Proofs.Emit.Faults
import WireIdl.Proofs.Emit.Hook
import WireIdl.Proofs.Schema.TrueType
import WireIdl.Proofs.Emit.Delegation
import WireIdl.Proofs.Emit.Scope
import WireIdl.Proofs.Emit.Temporaries
