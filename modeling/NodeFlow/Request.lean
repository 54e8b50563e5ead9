import NodeFlow.Modifier.Chain
import NodeFlow.Template.Substitution
/-!
# Submission requests

What a user asks for when a template is submitted: values for its
placeholders, overrides of literals, a seed, and the chains of modifiers to
put in. A request is read from an object against its declaration; every
issue is reported, those of declared fields before those of others.
-/

namespace NodeFlow

/-- What is asked for when a template is submitted. -/
structure Request where
  /-- Values for placeholders. -/
  values : Fields := []
  /-- Values for literals of nodes. -/
  overrides : Overrides := []
  seed : Option Int := none
  /-- Whether a seed is drawn where none is given. -/
  drawsSeed : Bool := false
  /-- Modifiers behind the model source. -/
  chain : Chain := []
  /-- Further modifiers on the high-noise path. -/
  highChain : Chain := []
  /-- Further modifiers on the low-noise path. -/
  lowChain : Chain := []

namespace Request

/-- The largest seed; all integers up to it are doubles too. -/
def maxSeed : Int := (Nat.pow 2 53 : Int) - 1

/-- The names of the declared fields. -/
def declared : List String :=
  ["values", "overrides", "seed", "randomize_seed", "modifier_chain", "high_noise_chain",
    "low_noise_chain"]

open Intake in
/-- Reads a seed, which may be null. -/
def readSeed : Json → Checked (Option Int)
  | .null => .ok none
  | v => (int v).bind fun i => (bounded 0 maxSeed i).map some

open Intake in
/-- Reads a request from the entries of an object. -/
def ofFields (cfg : CompilerSettings) (fs : Fields) : Checked Request :=
  let chain (name : String) : Checked Chain :=
    optional fs name (list (Selection.ofJson cfg)) []
  let r : Checked (Overrides → Option Int → Bool → Chain → Chain → Chain → Request) :=
    (optional fs "values" (dict any) []).map Request.mk
  let r := r.ap (optional fs "overrides" (dict (dict any)) [])
  let r := r.ap (optional fs "seed" readSeed none)
  let r := r.ap (optional fs "randomize_seed" bool false)
  let r := ((r.ap (chain "modifier_chain")).ap (chain "high_noise_chain")).ap
    (chain "low_noise_chain")
  let known : Checked (Unit → Request) := r.map fun req _ => req
  known.ap (onlyKnown fs declared)

/-- Reads a request, or fails; what is no object has no fields to read. -/
def ofJson (cfg : CompilerSettings) : Json → Except Fault Request
  | .obj fs =>
    match ofFields cfg fs with
    | .ok r => .ok r
    | .error issues => .error (.rejected issues)
  | _ => .error .wrongType

/-- The seed to write, with one that was drawn in case it is called for. -/
def seedToWrite (r : Request) (drawn : Int) : Option Int :=
  match r.seed with
  | some s => some s
  | none => if r.drawsSeed then some drawn else none

end Request

end NodeFlow
