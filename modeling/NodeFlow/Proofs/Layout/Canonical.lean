import NodeFlow.Proofs.Document.RoundTrip
import NodeFlow.Proofs.Layout.Represents
/-!
# The document of an imported workflow

The document that is written of an imported workflow is read back as the
same workflow, but for one thing: widgets may hold anything, and a value that
is a pair of an id and an integer is read back as a connection, or cannot be
read back where the id is an integer that is too long to be a text. So the
document says what the workflow says exactly when no widget value that was
taken over is such a pair.
-/

namespace NodeFlow

/-- A pair of an id and an integer, which is how a document has a connection. -/
def Json.IsPair (v : Json) : Prop :=
  ∃ output, (∃ id, v = .arr [.str id, .int output]) ∨ ∃ id, v = .arr [.int id, .int output]

namespace InputValue

theorem asRead_eq_literal_iff (v : Json) : asRead v = .literal v ↔ ¬ v.IsPair := by
  constructor
  · rintro h ⟨output, ⟨id, rfl⟩ | ⟨id, rfl⟩⟩ <;> cases h
  · intro h
    unfold asRead
    split
    · exact absurd ⟨_, Or.inl ⟨_, rfl⟩⟩ h
    · exact absurd ⟨_, Or.inr ⟨_, rfl⟩⟩ h
    · rfl

/-- Only a pair can name a node with an integer that is too long. -/
theorem namesShortly_of_not_isPair {v : Json} (h : ¬ v.IsPair) : namesShortly v := by
  unfold namesShortly
  split
  · exact absurd ⟨_, Or.inr ⟨_, rfl⟩⟩ h
  · rfl

end InputValue

/-! ## Nodes -/

namespace Node

variable {n : Node}

/-- A title that is not written says nothing that the type does not say. -/
theorem displayTitle_ownTitle? (n : Node) (id : String) (inputs : Dict InputValue)
    (outputs : List Port) :
    ({ id := id, classType := n.classType, inputs := inputs, title := n.ownTitle?, mode := n.mode
       outputs := outputs } : Node).displayTitle = n.displayTitle := by
  rw [displayTitle, displayTitle, ownTitle?]
  cases n.title with
  | none => rfl
  | some t =>
    by_cases ht : t = ""
    · simp [Option.filter, ht]
    · by_cases hclass : t = n.classType
      · simp [Option.filter, hclass]
      · simp [Option.filter, ht, hclass]

/-- Without a schema, a node is read back from its own entries alone. -/
theorem reread_none (n : Node) (key : String) :
    n.reread key none =
      { id := key, classType := n.classType, inputs := n.inputs.filterMap fun _ v => v.reread
        title := n.ownTitle?, mode := n.mode } := rfl

end Node

namespace Graph

variable {g : Graph}

theorem isRereadable_iff :
    g.isRereadable ↔ ∀ key input w, g.inputAt? key input = some (.literal w) →
      InputValue.namesShortly w := by
  rw [isRereadable, List.all_eq_true]
  constructor
  · intro hall key input w hw
    obtain ⟨n, hn, hv⟩ := inputAt?_eq_some_iff.1 hw
    exact List.all_eq_true.1 (hall _ (Dict.get?_eq_some_iff.1 hn)) _ (Dict.get?_eq_some_iff.1 hv)
  · intro hall e he
    refine List.all_eq_true.2 fun e' he' => ?_
    cases hv : e'.2 with
    | literal w =>
      have hget : e.2.inputs.get? e'.1 = some (.literal w) :=
        Dict.get?_eq_some_iff.2 (hv ▸ he')
      exact hall e.1 e'.1 w (inputAt?_eq_some_iff.2 ⟨e.2, Dict.get?_eq_some_iff.2 he, hget⟩)
    | _ => rfl

/-- No input is an open slot. -/
def Filled (g : Graph) : Prop := ∀ key input type, g.inputAt? key input ≠ some (.slot type)

/-- A workflow is another one but for literals, which are read like the inputs of a document. -/
structure RereadFrom (g k : Graph) : Prop where
  /-- The nodes have the same ids, in the same order. -/
  keys : k.nodes.keys = g.nodes.keys
  /-- They have the same class types, modes, titles and names of inputs. -/
  nodes : ∀ key n, g.node? key = some n → ∃ m, k.node? key = some m ∧ m.id = n.id ∧
    m.classType = n.classType ∧ m.mode = n.mode ∧ m.displayTitle = n.displayTitle ∧
    m.inputs.keys = n.inputs.keys
  /-- Connections stay, and literals are read. -/
  inputs : ∀ key input, k.inputAt? key input = (g.inputAt? key input).map fun v =>
    match v with
    | .literal w => .asRead w
    | v => v
  groups : k.groups = g.groups
  notes : k.notes = g.notes

/-- **What a workflow without open slots is read back as.** -/
theorem Filled.rereadFrom (hg : g.Filled) (hk : g.WellKeyed) : RereadFrom g (g.reread none) := by
  have hnode (key : String) : (g.reread none).node? key =
      (g.node? key).map fun n => n.reread key none := Dict.get?_map _ _ _
  have hslot : ∀ key n, g.node? key = some n →
      ∀ input v, n.inputs.get? input = some v → v.reread = some (match v with
        | .literal w => .asRead w
        | v => v) := by
    intro key n hn input v hv
    cases v with
    | literal w => rfl
    | connection source output => rfl
    | slot type => exact absurd (inputAt?_eq_some_iff.2 ⟨n, hn, hv⟩) (hg key input type)
  refine ⟨Dict.keys_map _ _, ?_, ?_, rfl, rfl⟩
  · intro key n hn
    refine ⟨n.reread key none, by rw [hnode, hn, Option.map_some], ?_, rfl, rfl, ?_, ?_⟩
    · exact (hk.id_eq hn).symm
    · rw [Node.reread_none, Node.displayTitle_ownTitle?]
    · rw [Node.reread_none]
      exact Dict.keys_filterMap fun input v hv => by rw [hslot key n hn input v hv]; rfl
  · intro key input
    rw [inputAt?, inputAt?, hnode]
    cases hn : g.node? key with
    | none => rfl
    | some n =>
      rw [Option.map_some, Option.bind_some, Option.bind_some, Node.reread_none,
        Dict.get?_filterMap]
      cases hv : n.inputs.get? input with
      | none => rfl
      | some v => exact hslot key n hn input v hv

/-- **The inputs are the same exactly where no literal looks like a connection.** -/
theorem RereadFrom.inputs_iff {k : Graph} (hr : RereadFrom g k) :
    (∀ key input, k.inputAt? key input = g.inputAt? key input) ↔
      ∀ key input w, g.inputAt? key input = some (.literal w) → ¬ w.IsPair := by
  constructor
  · intro hsame key input w hw
    have hread := hr.inputs key input
    rw [hsame, hw] at hread
    exact (InputValue.asRead_eq_literal_iff w).1 (Option.some.inj hread).symm
  · intro hplain key input
    rw [hr.inputs]
    cases hv : g.inputAt? key input with
    | none => rfl
    | some v =>
      cases v with
      | literal w =>
        have hread := (InputValue.asRead_eq_literal_iff w).2 (hplain key input w hv)
        exact congrArg some hread
      | connection source output => rfl
      | slot type => rfl

end Graph

/-! ## Imported workflows -/

namespace Layout

variable {document : Fields} {schema : Schema}

/-- **The document of an imported workflow is read back as that workflow**, its inputs included
exactly where no literal looks like a connection. It is read back at all unless a literal looks like
a connection to a node whose id is too long to be written. A literal is a value of a widget of the
node that it stands at. -/
theorem read_toJson_ofLayout {r : Imported}
    (h : (Imported.ofLayout (.obj document) schema).result = .ok r) :
    ∃ k, Graph.read r.graph.toJson none = withinLimit r.graph.isRereadable k ∧
      r.graph.RereadFrom k ∧
      ((Graph.read r.graph.toJson none = .ok k ∧
          ∀ key input, k.inputAt? key input = r.graph.inputAt? key input) ↔
        ∀ key input w, r.graph.inputAt? key input = some (.literal w) → ¬ w.IsPair) ∧
      ∀ key input w, r.graph.inputAt? key input = some (.literal w) →
        ∃ i fs, lastNode? document i = some fs ∧ key = idText i ∧ w ∈ (widgetsOf fs).values := by
  obtain ⟨l, hl, hg⟩ := exists_layout_of_ofLayout h
  have hrepresents := represents_of_toGraph hl hg
  obtain ⟨-, -, -, -, -, hrest⟩ := exists_placed (keyed_of_ofFields hl) hg
  have hwritable : r.graph.Writable := by
    rw [hrest]
    exact ⟨nofun, nofun, nofun⟩
  have hkeyed : r.graph.WellKeyed :=
    Graph.wellKeyed_iff.2 fun key n hn => (hrepresents.keys key n hn).1
  have hfilled : r.graph.Filled := by
    intro key input type hv
    rcases hrepresents.inputs key input _ hv with ⟨w, hw, -⟩ | ⟨source, output, hv', -⟩
    · cases hw
    · cases hv'
  have hreread := hfilled.rereadFrom hkeyed
  have hread := Graph.read_toJson_of_writable hwritable none
  refine ⟨_, hread, hreread, ⟨fun hsame => hreread.inputs_iff.1 hsame.2, fun hplain => ?_⟩, ?_⟩
  · have hrereadable : r.graph.isRereadable := Graph.isRereadable_iff.2 fun key input w hw =>
      InputValue.namesShortly_of_not_isPair (hplain key input w hw)
    exact ⟨by rw [hread, hrereadable, withinLimit_true], hreread.inputs_iff.2 hplain⟩
  intro key input w hw
  rcases hrepresents.inputs key input _ hw with ⟨w', hw', hfrom⟩ | ⟨source, output, hw', -⟩
  · cases hw'
    exact hfrom
  · cases hw'

/-- The hypothesis of `read_toJson_ofLayout` is met, and the one literal is a text, so the inputs
are the same. -/
theorem read_toJson_scattered :
    ∃ r, (Imported.ofLayout (.obj scattered) loaderSchema).result = .ok r ∧
      ∃ k, Graph.read r.graph.toJson none = .ok k ∧ r.graph.RereadFrom k ∧
        ∀ key input, k.inputAt? key input = r.graph.inputAt? key input := by
  obtain ⟨r, hr, hgathered⟩ := ofLayout_scattered
  obtain ⟨k, -, hreread, hsame, -⟩ := read_toJson_ofLayout hr
  have hplain : ∀ key input w, r.graph.inputAt? key input = some (.literal w) → ¬ w.IsPair := by
    rw [hgathered]
    rintro key input w hw ⟨output, hpair⟩
    have hall : ∀ e ∈ gathered.nodes.entries, ∀ i ∈ e.2.inputs.entries,
        i.2 = .literal (.str "a.safetensors") ∨ i.2 = .connection "1" 0 := by decide +kernel
    obtain ⟨n, hn, hv⟩ := Graph.inputAt?_eq_some_iff.1 hw
    rcases hall _ (Dict.get?_eq_some_iff.1 hn) _ (Dict.get?_eq_some_iff.1 hv) with he | he
    · cases he
      rcases hpair with ⟨id, hid⟩ | ⟨id, hid⟩ <;> cases hid
    · cases he
  obtain ⟨hk, hinputs⟩ := hsame.2 hplain
  exact ⟨r, hr, k, hk, hreread, hinputs⟩

/-- A layout with one node, whose one widget holds a pair of a text and a number. -/
def pairDocument : Fields :=
  [("nodes", .arr [.obj [("id", .int 1), ("type", .str "Selector"),
    ("widgets_values", .arr [.arr [.str "9", .int 0]])]])]

/-- A schema for it. -/
def selectorSchema : Schema :=
  ⟨.ofList [("Selector",
    { classType := "Selector", inputs := [{ name := "value", type := "STRING" }] })]⟩

/-- **The document of an import need not say what the import says**: the value of the widget becomes
a connection to a node that is not there. -/
theorem not_read_toJson_pairDocument :
    ∃ r, (Imported.ofLayout (.obj pairDocument) selectorSchema).result = .ok r ∧
      r.graph.inputAt? "1" "value" = some (.literal (.arr [.str "9", .int 0])) ∧
      ∃ k, Graph.read r.graph.toJson none = .ok k ∧
        k.inputAt? "1" "value" = some (.connection "9" 0) := by
  have hboth : ((Imported.ofLayout (.obj pairDocument) selectorSchema).result.toOption.bind fun r =>
      (Graph.read r.graph.toJson none).toOption.map fun k =>
        (r.graph.inputAt? "1" "value", k.inputAt? "1" "value")) =
      some (some (.literal (.arr [.str "9", .int 0])), some (.connection "9" 0)) := by
    decide +kernel
  obtain ⟨r, hr, hread⟩ := Option.bind_eq_some_iff.1 hboth
  obtain ⟨k, hk, hinputs⟩ := Option.map_eq_some_iff.1 hread
  obtain ⟨hbefore, hafter⟩ := Prod.mk.inj hinputs
  exact ⟨r, eq_ok_of_toOption hr, hbefore, k, eq_ok_of_toOption hk, hafter⟩

end Layout

end NodeFlow
