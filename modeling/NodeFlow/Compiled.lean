import NodeFlow.Digest.Sha256
import NodeFlow.Graph.Document
/-!
# Compiled workflows

A workflow that is ready to be submitted: its document, a fingerprint of it,
what was lost on the way and what is still wrong. The fingerprint depends on
the document only up to the order of its keys. It is taken as the workflow is
compiled, so a document with an integer that is too long to be written makes
no compiled workflow.
-/

namespace NodeFlow

/-- The text that is fingerprinted: without blanks, and with sorted keys. -/
def canonicalText (document : Fields) : Except Fault String :=
  withinLimit (Json.obj document).isWritable (Json.write .canonical (.obj document))

/-- The fingerprint of a document. -/
def fingerprint (document : Fields) : Except Fault String :=
  (canonicalText document).map fun text =>
    String.ofList ((Digest.sha256Hex text).toList.take 16)

/-- The fingerprint that a compiled workflow has, which is empty for an empty document. -/
def hashOf (document : Fields) : Except Fault String :=
  if document.isEmpty then .ok "" else fingerprint document

/-- A workflow that is ready to be submitted. -/
structure Compiled where
  document : Fields
  /-- The graph that the document was written from, if it was. -/
  graph : Option Graph := none
  warnings : List String := []
  errors : List String := []
  hash : String
  hash_eq : hashOf document = .ok hash

namespace Compiled

/-- The compiled form of a document, if it has a fingerprint. -/
def ofDocument (document : Fields) (graph : Option Graph) (warnings errors : List String) :
    Except Fault Compiled :=
  match h : hashOf document with
  | .ok hash => .ok ⟨document, graph, warnings, errors, hash, h⟩
  | .error e => .error e

/-- The compiled form of a graph. -/
def ofGraph (g : Graph) (warnings errors : List String) : Except Fault Compiled :=
  ofDocument g.toFields (some g) warnings errors

/-- Whether nothing is wrong. -/
def isValid (c : Compiled) : Bool := c.errors.isEmpty

/-- The text of the document. -/
def content (c : Compiled) : String := Json.write (.readable (some 2)) (.obj c.document)

/-- The nodes of the document alone, as a server takes them. -/
def prompt (c : Compiled) : Fields :=
  match (Entries.get? c.document "nodes").bind Json.fields? with
  | some nodes => nodes
  | none =>
    match c.graph with
    | some g => c.document.filter fun e => g.has e.1
    | none => c.document

end Compiled

end NodeFlow
