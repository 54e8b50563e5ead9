import NodeFlow.Fault
import NodeFlow.Text.Case
/-!
# What happened

Operations report what they do as a list of events, in order, beside their
result. A `Traced` value holds both: the result, which may be a failure, and
the events up to there. Sequencing two traced operations sequences their
results like any computation that may fail, and concatenates their events;
so what holds of results can be shown without looking at the events.
-/

namespace NodeFlow.Log

/-- How important an event is. -/
inductive Level where
  | notset
  | debug
  | info
  | warning
  | error
  | critical
  deriving DecidableEq

namespace Level

/-- The name of a level. -/
def name : Level → String
  | .notset => "NOTSET"
  | .debug => "DEBUG"
  | .info => "INFO"
  | .warning => "WARNING"
  | .error => "ERROR"
  | .critical => "CRITICAL"

/-- The number of a level; more important ones have larger numbers. -/
def number : Level → Nat
  | .notset => 0
  | .debug => 10
  | .info => 20
  | .warning => 30
  | .error => 40
  | .critical => 50

/-- The number that an event must have to be reported under a level. Where no level is set, only
warnings and worse are. -/
def threshold : Level → Nat
  | .notset => Level.warning.number
  | l => l.number

/-- The level of a name in any case; an unknown name means the normal level. -/
def ofName (s : String) : Level :=
  match Text.upper s with
  | "NOTSET" => .notset
  | "DEBUG" => .debug
  | "WARNING" | "WARN" => .warning
  | "ERROR" => .error
  | "CRITICAL" | "FATAL" => .critical
  | _ => .info

end Level

/-- The part of the library that reports an event. -/
inductive Channel where
  | schema
  | layout
  | bypass
  | chains
  | mapping
  | substitution
  | validation
  | workflows
  deriving DecidableEq

/-- The name above all channels. -/
def rootName : String := "comfy_compiler"

/-- The name of a channel. -/
def Channel.name : Channel → String
  | .schema => "comfy_compiler.schema"
  | .layout => "comfy_compiler.layout"
  | .bypass => "comfy_compiler.bypass"
  | .chains => "comfy_compiler.chains"
  | .mapping => "comfy_compiler.mapping"
  | .substitution => "comfy_compiler.substitution"
  | .validation => "comfy_compiler.validation"
  | .workflows => "comfy_compiler.workflows"

/-- What an event says. -/
inductive Content where
  /-- A message. -/
  | message (text : String)
  /-- The end of a timed operation. -/
  | timing (operation : String) (success : Bool)
  deriving DecidableEq

/-- Something that happened. -/
structure Event where
  level : Level
  channel : Channel
  content : Content
  deriving DecidableEq

/-- A message event. -/
def note (level : Level) (channel : Channel) (text : String) : Event :=
  ⟨level, channel, .message text⟩

/-- The event at the end of a timed operation. -/
def timed (channel : Channel) (operation : String) (success : Bool) : Event :=
  ⟨if success then .debug else .warning, channel, .timing operation success⟩

/-- The events that are reported under a level. -/
def atLeast (level : Level) (events : List Event) : List Event :=
  events.filter fun e => level.threshold ≤ e.level.number

/-! ## Traced results -/

/-- A result with the events that led to it. -/
structure Traced (α : Type) where
  result : Except Fault α
  events : List Event

namespace Traced

variable {α β : Type}

/-- A value without events. -/
def pure (a : α) : Traced α := ⟨.ok a, []⟩

/-- A failure without events. -/
def fail (f : Fault) : Traced α := ⟨.error f, []⟩

/-- Continues with a value, if there is one. -/
def bind (x : Traced α) (f : α → Traced β) : Traced β :=
  match x.result with
  | .ok a => ⟨(f a).result, x.events ++ (f a).events⟩
  | .error e => ⟨.error e, x.events⟩

instance : Monad Traced where
  pure := pure
  bind := bind

/-- A result without events. -/
def ofExcept (r : Except Fault α) : Traced α := ⟨r, []⟩

/-- A value with events. -/
def reporting (events : List Event) (a : α) : Traced α := ⟨.ok a, events⟩

/-- Reports events. -/
def tell (events : List Event) : Traced Unit := ⟨.ok (), events⟩

/-- A result with its events, which are reported only if there is one. -/
def onSuccess (events : List Event) (r : Except Fault α) : Traced α :=
  match r with
  | .ok a => ⟨.ok a, events⟩
  | .error e => ⟨.error e, []⟩

/-- Reports the end of an operation behind its events, and whether it had a result. -/
def timing (channel : Channel) (operation : String) (x : Traced α) : Traced α :=
  ⟨x.result, x.events ++ [timed channel operation x.result.isOk]⟩

/-- The result of a sequence is the sequence of the results. -/
theorem result_bind (x : Traced α) (f : α → Traced β) :
    (x >>= f).result = (x.result >>= fun a => (f a).result) := by
  show (bind x f).result = _
  unfold bind
  cases x.result <;> rfl

@[simp] theorem result_pure (a : α) : (Pure.pure a : Traced α).result = .ok a := rfl

@[simp] theorem result_tell (events : List Event) : (tell events).result = .ok () := rfl

@[simp] theorem result_ofExcept (r : Except Fault α) : (ofExcept r).result = r := rfl

@[simp] theorem result_onSuccess (events : List Event) (r : Except Fault α) :
    (onSuccess events r).result = r := by
  cases r <;> rfl

@[simp] theorem result_timing (channel : Channel) (operation : String) (x : Traced α) :
    (timing channel operation x).result = x.result := rfl

end Traced

end NodeFlow.Log
