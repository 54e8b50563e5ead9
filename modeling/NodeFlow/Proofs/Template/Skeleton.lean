import NodeFlow.Proofs.Graph.Shell
import NodeFlow.Proofs.Template.Limit
/-!
# What filling in a template leaves alone

Values, seeds and overrides change the values of literals and nothing else.
The `skeleton` of a workflow is what is left when these values are forgotten;
each of the passes leaves it as it is, however many values it writes. Nodes,
their modes and all links can be read off the skeleton.
-/

namespace NodeFlow

open Template

/-- An input with the value of a literal forgotten. -/
def InputValue.skeleton : InputValue → InputValue
  | .literal _ => .literal .null
  | v => v

/-- A node with the values of its literals forgotten. -/
def Node.skeleton (n : Node) : Node := { n with inputs := n.inputs.map fun _ v => v.skeleton }

/-- A workflow with the values of its literals forgotten. -/
def Graph.skeleton (g : Graph) : Graph := g.mapNodes Node.skeleton

namespace Node

variable {n : Node} {name : String}

/-- Nodes with one skeleton differ in the values of literals only. -/
theorem eq_of_skeleton_eq {m : Node} (h : m.skeleton = n.skeleton) :
    m.id = n.id ∧ m.classType = n.classType ∧ m.mode = n.mode ∧ m.outputs = n.outputs := by
  simp only [skeleton, mk.injEq] at h
  obtain ⟨hid, hclass, -, -, hmode, houtputs⟩ := h
  exact ⟨hid, hclass, hmode, houtputs⟩

/-- The links of a node can be read off its skeleton. -/
theorem link?_skeleton (n : Node) (name : String) : n.skeleton.link? name = n.link? name := by
  rw [link?, link?, skeleton, Dict.get?_map]
  cases n.inputs.get? name with
  | none => rfl
  | some v => cases v <;> rfl

theorem skeleton_mapInputs {f : String → InputValue → InputValue}
    (h : ∀ name v, (f name v).skeleton = v.skeleton) (n : Node) :
    skeleton { n with inputs := n.inputs.map f } = n.skeleton := by
  rw [skeleton, skeleton, Dict.map_map]
  simp only [h]

/-- Overwriting a literal by another is forgotten. -/
theorem skeleton_setInput (h : n.hasLiteral name) (v : Json) :
    (n.setInput name (.literal v)).skeleton = n.skeleton := by
  -- what is overwritten is a literal, so the same is written to the skeleton as stands there
  obtain ⟨old, hold⟩ : ∃ old, n.inputs.get? name = some (.literal old) := by
    rw [hasLiteral, literal?, Option.isSome_iff_exists] at h
    obtain ⟨old, hold⟩ := h
    obtain ⟨w, hw, hlit⟩ := Option.bind_eq_some_iff.1 hold
    exact ⟨old, by rw [hw, InputValue.literal?_eq_some_iff.1 hlit]⟩
  have hsame : (n.inputs.map fun _ v => v.skeleton).get? name =
      some (InputValue.literal v).skeleton := by
    rw [Dict.get?_map, hold]
    rfl
  rw [skeleton, skeleton, setInput, Dict.map_insert, Dict.insert_of_get?_eq hsame]

end Node

namespace Graph

variable {g h : Graph} {id input : String}

theorem node?_skeleton (g : Graph) (id : String) :
    g.skeleton.node? id = (g.node? id).map Node.skeleton :=
  Dict.get?_map _ _ _

theorem linkAt?_skeleton (g : Graph) (id input : String) :
    g.skeleton.linkAt? id input = g.linkAt? id input := by
  rw [linkAt?, linkAt?, node?_skeleton, Option.bind_map]
  simp only [Function.comp_def, Node.link?_skeleton]

theorem keys_skeleton (g : Graph) : g.skeleton.nodes.keys = g.nodes.keys :=
  Dict.keys_map _ _

/-! ## One pass -/

theorem skeleton_mapNodes {f : Node → Node} (h : ∀ n, (f n).skeleton = n.skeleton) (g : Graph) :
    (g.mapNodes f).skeleton = g.skeleton := by
  rw [skeleton, skeleton, mapNodes, mapNodes, mapNodes, Dict.map_map]
  simp only [h]

theorem skeleton_modify {f : Node → Node} (h : ∀ n, (f n).skeleton = n.skeleton) (g : Graph)
    (id : String) : (g.modify id f).skeleton = g.skeleton := by
  rw [skeleton, skeleton, modify, mapNodes, mapNodes, Dict.modify, Dict.map_map]
  congr 2
  funext key n
  split
  · exact h n
  · rfl

theorem skeleton_inputWith (values : Fields) (v : InputValue) :
    (inputWith values v).skeleton = v.skeleton := by
  cases v with
  | literal value =>
    cases value with
    | str text =>
      rw [inputWith]
      split <;> rfl
    | null => rfl
    | bool b => rfl
    | int i => rfl
    | float x => rfl
    | arr items => rfl
    | obj fields => rfl
  | connection source output => rfl
  | slot type => rfl

theorem skeleton_filledWith (g : Graph) (values : Fields) :
    (g.filledWith values).skeleton = g.skeleton :=
  skeleton_mapNodes (Node.skeleton_mapInputs fun _ v => skeleton_inputWith values v) g

/-- **Filling in values keeps the skeleton.** -/
theorem skeleton_fill {values : Fields} (hrun : g.fill values = .ok h) :
    h.skeleton = g.skeleton := by
  rw [← filledWith_of_fill hrun, skeleton_filledWith]

/-- **Writing a seed keeps the skeleton.** -/
theorem skeleton_withSeed (g : Graph) (seed : Json) : (g.withSeed seed).skeleton = g.skeleton := by
  refine skeleton_mapNodes (Node.skeleton_mapInputs fun name v => ?_) g
  cases v <;> rfl

theorem skeleton_overrideNode (n : Node) (values : Fields) :
    (overrideNode n values).skeleton = n.skeleton := by
  rw [overrideNode]
  induction values generalizing n with
  | nil => rfl
  | cons e values ih =>
    rw [List.foldl_cons, ih]
    split
    · rename_i hlit
      exact Node.skeleton_setInput hlit e.2
    · rfl

/-- **Writing overrides keeps the skeleton**: they land on literals only. -/
theorem skeleton_override (g : Graph) (overrides : Overrides) :
    (g.override overrides).skeleton = g.skeleton := by
  rw [override]
  induction overrides generalizing g with
  | nil => rfl
  | cons o overrides ih =>
    rw [List.foldl_cons, ih, skeleton_modify fun n => skeleton_overrideNode n o.2]

/-! ## Workflows with one skeleton -/

theorem linkAt?_of_skeleton_eq (heq : h.skeleton = g.skeleton) (id input : String) :
    h.linkAt? id input = g.linkAt? id input := by
  rw [← linkAt?_skeleton, heq, linkAt?_skeleton]

theorem has_of_skeleton_eq (heq : h.skeleton = g.skeleton) (id : String) : h.has id ↔ g.has id := by
  rw [has_iff_mem_keys, has_iff_mem_keys, ← keys_skeleton, heq, keys_skeleton]

/-- A node of one is a node of the other, up to the values of literals. -/
theorem exists_node?_of_skeleton_eq {n : Node} (heq : h.skeleton = g.skeleton)
    (hn : g.node? id = some n) : ∃ m, h.node? id = some m ∧ m.skeleton = n.skeleton := by
  have hmap : (h.node? id).map Node.skeleton = some n.skeleton := by
    rw [← node?_skeleton, heq, node?_skeleton, hn, Option.map_some]
  exact Option.map_eq_some_iff.1 hmap

end Graph

end NodeFlow
