import NodeFlow.Proofs.Limit
import NodeFlow.Template.Substitution
/-!
# Templates within the limit

Filling in a template fails only where a value is to be shown within a longer
text and an integer in it has too many digits. `Graph.filledWith` is what comes
out otherwise, said without the failure, and `Graph.isFillable` is the
condition; `Graph.fill_eq` puts the two together.
-/

namespace NodeFlow

namespace Template

variable (values : Fields)

/-- A part of a text with its value filled in, however long. -/
def partWith : Part → String
  | .char c => c.toString
  | .token name =>
    match valueFor? values (String.ofList name) with
    | some v => v.display
    | none => String.ofList (Part.token name).chars

/-- Whether the value for a part, if there is one, can be shown. -/
def isPartShown : Part → Bool
  | .char _ => true
  | .token name => (valueFor? values (String.ofList name)).all Json.isWritable

theorem fillPart_eq (p : Part) :
    fillPart values p = withinLimit (isPartShown values p) (partWith values p) := by
  cases p with
  | char c => rfl
  | token name =>
    rw [fillPart, isPartShown, partWith]
    cases valueFor? values (String.ofList name) <;> rfl

/-- A text literal with values filled in, however long. -/
def textWith (text : String) : Json :=
  match parts text.toList with
  | [.token name] => (valueFor? values (String.ofList name)).getD (.str text)
  | ps => .str (String.join (ps.map (partWith values)))

/-- Whether the values for the parts of a text can be shown. A value that takes the place of the
whole text need not be. -/
def isTextShown (text : String) : Bool :=
  match parts text.toList with
  | [.token _] => true
  | ps => ps.all (isPartShown values)

theorem fillText_eq (text : String) :
    fillText values text = withinLimit (isTextShown values text) (textWith values text) := by
  have hparts (ps : List Part) :
      (ps.mapM (fillPart values)).map (fun texts => Json.str (String.join texts)) =
        withinLimit (ps.all (isPartShown values))
          (.str (String.join (ps.map (partWith values)))) := by
    have hpart : fillPart values =
        fun p => withinLimit (isPartShown values p) (partWith values p) :=
      funext (fillPart_eq values)
    rw [hpart, mapM_withinLimit, map_withinLimit]
  rw [fillText, isTextShown, textWith]
  match parts text.toList with
  | [.token name] => rfl
  | [] => exact hparts _
  | .char c :: rest => exact hparts _
  | .token name :: p :: rest => exact hparts _

/-- An input with values filled in, however long. -/
def inputWith : InputValue → InputValue
  | .literal (.str text) =>
    match valueFor? values imageName with
    | some image => .literal (if text = defaultImage then image else textWith values text)
    | none => .literal (textWith values text)
  | v => v

/-- Whether the values for an input can be shown where they have to be. -/
def isInputShown : InputValue → Bool
  | .literal (.str text) => isFilledImage values text || isTextShown values text
  | _ => true

theorem fillInput_eq (v : InputValue) :
    fillInput values v = withinLimit (isInputShown values v) (inputWith values v) := by
  cases v with
  | literal value =>
    cases value with
    | str text =>
      rw [fillInput, isInputShown, inputWith, isFilledImage, fillText_eq, map_withinLimit]
      cases valueFor? values imageName with
      | none => simp
      | some image => by_cases htext : text = defaultImage <;> simp [htext]
    | null => rfl
    | bool b => rfl
    | int i => rfl
    | float x => rfl
    | arr items => rfl
    | obj fields => rfl
  | connection source output => rfl
  | slot type => rfl

/-- A node with values filled in, however long. -/
def nodeWith (n : Node) : Node := { n with inputs := n.inputs.map fun _ v => inputWith values v }

/-- Whether the values for the inputs of a node can be shown. -/
def isNodeShown (n : Node) : Bool := n.inputs.entries.all fun i => isInputShown values i.2

theorem traverse_fillInput (n : Node) :
    ((n.inputs.traverse fun _ v => fillInput values v).map fun inputs => { n with inputs }) =
      withinLimit (isNodeShown values n) (nodeWith values n) := by
  simp only [fillInput_eq]
  rw [Dict.traverse_withinLimit n.inputs (fun _ v => isInputShown values v)
    fun _ v => inputWith values v, map_withinLimit]
  rfl

end Template

namespace Graph

open Template

/-- The workflow with values filled in, however long. -/
def filledWith (g : Graph) (values : Fields) : Graph := g.mapNodes (nodeWith values)

/-- Whether all values can be shown where they have to be. -/
def isFillable (g : Graph) (values : Fields) : Bool :=
  g.nodes.entries.all fun e => isNodeShown values e.2

/-- **Filling in a template fails only where a value cannot be shown.** -/
theorem fill_eq (g : Graph) (values : Fields) :
    g.fill values = withinLimit (g.isFillable values) (g.filledWith values) := by
  rw [fill, traverseNodes]
  simp only [traverse_fillInput]
  rw [Dict.traverse_withinLimit g.nodes (fun _ n => isNodeShown values n)
    fun _ n => nodeWith values n, map_withinLimit]
  rfl

theorem filledWith_of_fill {g h : Graph} {values : Fields} (hrun : g.fill values = .ok h) :
    g.filledWith values = h := by
  rw [fill_eq] at hrun
  exact (withinLimit_eq_ok_iff.1 hrun).2

end Graph

end NodeFlow
