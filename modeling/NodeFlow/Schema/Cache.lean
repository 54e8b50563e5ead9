import NodeFlow.Schema.Reader
/-!
# The schema in use

A server's schema is kept until another one takes its place. Each change
starts a new generation, so two looks at the cache saw the same schema if
they saw the same generation.
-/

namespace NodeFlow

/-- The schema in use and how often it was changed. -/
structure SchemaCache where
  schema : Schema := .empty
  generation : Nat := 0

namespace SchemaCache

/-- The cache before any schema was put into it. -/
def fresh : SchemaCache := {}

/-- Puts a schema into use. -/
def replace (c : SchemaCache) (s : Schema) : SchemaCache := ⟨s, c.generation + 1⟩

/-- What is reported when a schema is put into use. -/
def replaceEvents (s : Schema) : List Log.Event :=
  [Log.note .info .schema s!"Node schema replaced ({s.size} class types)"]

/-- Reads a schema and puts it into use. -/
def load (c : SchemaCache) (document : Json) : Log.Traced SchemaCache := do
  let s ← Schema.load document
  Log.Traced.tell (replaceEvents s)
  return c.replace s

/-- Puts the schema without node types into use. -/
def clear (c : SchemaCache) : SchemaCache := c.replace .empty

end SchemaCache

end NodeFlow
