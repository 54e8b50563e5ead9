import NodeFlow.Main
import NodeFlow.Outcome
import NodeFlow.Proofs.Bypass.Closure
import NodeFlow.Proofs.Modifier.FreshId
import NodeFlow.Proofs.Validation.Soundness
import NodeFlow.Schema.Cache
import NodeFlow.Proofs.Modifier.Splicing
import NodeFlow.Proofs.Template.Skeleton
import NodeFlow.Proofs.Bypass.Soundness
import NodeFlow.Proofs.Modifier.Injection
import NodeFlow.Proofs.Compiler.Passes
import NodeFlow.Proofs.Compiler.Acceptance
import NodeFlow.Proofs.Document.Entry
import NodeFlow.Proofs.Document.RoundTrip
import NodeFlow.Proofs.Compiler.Literals
import NodeFlow.Proofs.Compiler.Verdict
import NodeFlow.Proofs.Mapping.Placeholders
import NodeFlow.Proofs.Bypass.Injection
import NodeFlow.Proofs.Layout.Canonical
import NodeFlow.Proofs.Compiler.Frame
import NodeFlow.Proofs.Compiler.Lookalike
import NodeFlow.Proofs.Compiler.Noninterference
import NodeFlow.Proofs.Compiler.Wrapping
import NodeFlow.Proofs.Modifier.Hygiene
import NodeFlow.Proofs.Layout.Ending
import NodeFlow.Proofs.Validation.Outputs
import NodeFlow.Proofs.Bypass.Account
import NodeFlow.Proofs.Modifier.Insertion
import NodeFlow.Proofs.Layout.Route
import NodeFlow.Proofs.Modifier.Extension
import NodeFlow.Proofs.Modifier.Independence
import NodeFlow.Proofs.Modifier.Stacking
import NodeFlow.Proofs.Mapping.Tracing
import NodeFlow.Proofs.Layout.Widgets
import NodeFlow.Proofs.Layout.Controls
import NodeFlow.Proofs.Layout.Broken
import NodeFlow.Proofs.Bypass.Limit
import NodeFlow.Proofs.Template.Filling
import NodeFlow.Proofs.Mapping.Prompts
import NodeFlow.Proofs.Mapping.Selection
import NodeFlow.Proofs.Wiring.Queries
import NodeFlow.Proofs.Mapping.Undoing
import NodeFlow.Proofs.Bypass.Text
import NodeFlow.Proofs.Modifier.Saving
import NodeFlow.Proofs.Binary64.Rounding
import NodeFlow.Proofs.Binary64.Shortest
import NodeFlow.Proofs.Mapping.Restoring
import NodeFlow.Proofs.Schema.Reading
import NodeFlow.Proofs.Compiler.Fingerprint
import NodeFlow.Proofs.Modifier.Numbering
import NodeFlow.Proofs.Compiler.Reachable
