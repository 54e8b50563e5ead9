import NodeFlow.Fault
/-!
# Outcomes

An operation whose reported failures are values: it succeeds, or it fails
with a report. Failures without a report are not caught.
-/

namespace NodeFlow

/-- A value, or the report of a failure. -/
inductive Outcome (α : Type) where
  | success (value : α)
  | failure (report : Report)

namespace Outcome

variable {α β : Type}

/-- Turns a reported failure into a value. -/
def ofExcept : Except Fault α → Except Fault (Outcome α)
  | .ok a => .ok (.success a)
  | .error (.reported r) => .ok (.failure r)
  | .error f => .error f

/-- Whether there is a value. -/
def isSuccess : Outcome α → Bool
  | .success _ => true
  | .failure _ => false

/-- The value, or the failure. -/
def value : Outcome α → Except Fault α
  | .success a => .ok a
  | .failure r => .error (.reported r)

/-- The value, or another one in its place. -/
def valueOr (o : Outcome α) (default : α) : α :=
  match o with
  | .success a => a
  | .failure _ => default

/-- Applies a function to the value, if there is one. -/
def map (f : α → β) : Outcome α → Outcome β
  | .success a => .success (f a)
  | .failure r => .failure r

/-- The outcome as an object. -/
def fields (technical : Bool) : Outcome Json → Fields
  | .success v => [("success", .bool true), ("value", v)]
  | .failure r => ("success", .bool false) :: r.fields technical

/-- The outcome as it is shown to developers. -/
def inspect : Outcome Json → String
  | .success v => s!"Result.success({v.inspect})"
  | .failure r => s!"Result.failure({r.kind.name}({Text.quoted r.message}))"

end Outcome

end NodeFlow
