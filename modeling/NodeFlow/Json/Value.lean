import NodeFlow.Binary64
import NodeFlow.Dict
/-!
# JSON values

Documents, requests and answers are JSON values. Integers are unbounded and
stay apart from doubles, and an object keeps the order of its keys. `Keyed`
says that no object in a value has a key twice, which holds of every value
that was read from text.
-/

namespace NodeFlow

/-- A JSON value. -/
inductive Json where
  | null
  | bool (value : Bool)
  | int (value : Int)
  | float (value : Binary64)
  | str (value : String)
  | arr (items : List Json)
  | obj (fields : List (String × Json))
  deriving Inhabited

/-- The entries of an object, in order. -/
abbrev Fields := List (String × Json)

namespace Json

/-! ## Equality of values -/

mutual

/-- Decides equality of two values. -/
def decEq : (a b : Json) → Decidable (a = b)
  | .null, b => by cases b <;> first | exact isTrue rfl | exact isFalse nofun
  | .bool x, b => by
    cases b
    case bool y => exact decidable_of_iff (x = y) (by simp)
    all_goals exact isFalse nofun
  | .int x, b => by
    cases b
    case int y => exact decidable_of_iff (x = y) (by simp)
    all_goals exact isFalse nofun
  | .float x, b => by
    cases b
    case float y => exact decidable_of_iff (x = y) (by simp)
    all_goals exact isFalse nofun
  | .str x, b => by
    cases b
    case str y => exact decidable_of_iff (x = y) (by simp)
    all_goals exact isFalse nofun
  | .arr xs, b => by
    cases b
    case arr ys =>
      have := decEqItems xs ys
      exact decidable_of_iff (xs = ys) (by simp)
    all_goals exact isFalse nofun
  | .obj xs, b => by
    cases b
    case obj ys =>
      have := decEqFields xs ys
      exact decidable_of_iff (xs = ys) (by simp)
    all_goals exact isFalse nofun

/-- Decides equality of two lists of values. -/
def decEqItems : (xs ys : List Json) → Decidable (xs = ys)
  | [], [] => isTrue rfl
  | [], _ :: _ => isFalse nofun
  | _ :: _, [] => isFalse nofun
  | x :: xs, y :: ys =>
    have := decEq x y
    have := decEqItems xs ys
    decidable_of_iff (x = y ∧ xs = ys) (by simp)

/-- Decides equality of two lists of entries. -/
def decEqFields : (xs ys : List (String × Json)) → Decidable (xs = ys)
  | [], [] => isTrue rfl
  | [], _ :: _ => isFalse nofun
  | _ :: _, [] => isFalse nofun
  | (k, x) :: xs, (l, y) :: ys =>
    have := decEq x y
    have := decEqFields xs ys
    decidable_of_iff (k = l ∧ x = y ∧ xs = ys) (by simp [and_assoc])

end

instance : DecidableEq Json := decEq

/-! ## Kinds -/

/-- The word for the kind of a value, as errors give it. -/
def kindName : Json → String
  | .null => "NoneType"
  | .bool _ => "bool"
  | .int _ => "int"
  | .float _ => "float"
  | .str _ => "str"
  | .arr _ => "list"
  | .obj _ => "dict"

/-- Whether a value counts as present where absence, zero and emptiness are alike. -/
def isTruthy : Json → Bool
  | .null => false
  | .bool b => b
  | .int i => i ≠ 0
  | .float x => x.magnitude ≠ 0
  | .str s => s ≠ ""
  | .arr items => !items.isEmpty
  | .obj fields => !fields.isEmpty

/-- The text of a string value. -/
def str? : Json → Option String
  | .str s => some s
  | _ => none

/-- The entries of an object. -/
def fields? : Json → Option Fields
  | .obj fields => some fields
  | _ => none

/-- The items of a list. -/
def items? : Json → Option (List Json)
  | .arr items => some items
  | _ => none

/-! ## Distinct keys -/

mutual

/-- No object in the value has a key twice. -/
def Keyed : Json → Prop
  | .arr items => KeyedItems items
  | .obj fields => (Entries.keys fields).Nodup ∧ KeyedFields fields
  | _ => True

/-- No object in any of the values has a key twice. -/
def KeyedItems : List Json → Prop
  | [] => True
  | v :: rest => Keyed v ∧ KeyedItems rest

/-- No object in any of the entries' values has a key twice. -/
def KeyedFields : List (String × Json) → Prop
  | [] => True
  | (_, v) :: rest => Keyed v ∧ KeyedFields rest

end

end Json

end NodeFlow
