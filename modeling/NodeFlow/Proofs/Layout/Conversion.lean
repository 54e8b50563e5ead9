import NodeFlow.Layout.Import
import NodeFlow.Proofs.Graph.Input
import NodeFlow.Proofs.Layout.Reading
import NodeFlow.Proofs.Limit
/-!
# What a layout is converted to

A node of a layout keeps its id, type, title and mode; its inputs are
literals from the values of its widgets, and connections (`FilledFrom`). The
nodes of the workflow are the converted nodes in their order, less their
connections to nodes that are not there (`exists_placed`). Ids and the
contents of notes become texts, so a layout is only converted where these
are short enough to be written.
-/

namespace NodeFlow

namespace Layout

/-- The values of widgets, in order. -/
def Widgets.values : Widgets → List Json
  | .listed values => values
  | .named values => values.map Prod.snd
  | .other _ => []

variable {l : Layout} {schema : Schema} {i : Item} {p : Placed} {g : Graph}
variable {values vs : List Json} {inputs : Dict InputValue}

/-! ## Inputs -/

/-- What an imported input holds: a literal from a list of values, or a connection. -/
def Holds (values : List Json) (v : InputValue) : Prop :=
  (∃ w ∈ values, v = .literal w) ∨ ∃ source output, v = .connection source output

/-- All inputs hold literals from a list of values, or connections. -/
def FilledFrom (values : List Json) (inputs : Dict InputValue) : Prop :=
  ∀ input v, inputs.get? input = some v → Holds values v

theorem filledFrom_empty (values : List Json) : FilledFrom values .empty := by
  intro input v hv
  simp at hv

theorem FilledFrom.insert (h : FilledFrom values inputs) (name : String) {v : InputValue}
    (hv : Holds values v) : FilledFrom values (inputs.insert name v) := by
  intro input w hw
  rw [Dict.get?_insert] at hw
  split at hw
  · exact Option.some.inj hw ▸ hv
  · exact h input w hw

theorem FilledFrom.writeValue (h : FilledFrom values inputs) (name : String) {v : Json}
    (hv : v ∈ values) : FilledFrom values (writeValue inputs name v) := by
  rw [Layout.writeValue]
  split
  · exact h
  · exact h.insert name (Or.inl ⟨v, hv, rfl⟩)

theorem subset_of_dropToken {v : Json} (h : v ∈ dropToken vs) : v ∈ vs := by
  cases vs with
  | nil => exact h
  | cons w rest =>
    rw [dropToken] at h
    split at h
    · exact List.mem_cons_of_mem _ h
    · exact h

/-- **What the write of each value keeps** is kept while values are matched with widgets. -/
theorem placeValues_induction {P : Dict InputValue → Prop}
    (hwrite : ∀ inputs name v, v ∈ values → P inputs → P (writeValue inputs name v))
    (ws : List InputSpec) (hvs : ∀ v ∈ vs, v ∈ values) (h : P inputs) :
    P (placeValues ws vs inputs) := by
  -- along the widgets, each of which takes a value; a token behind a seed is lost besides
  induction ws generalizing vs inputs with
  | nil => exact h
  | cons w ws ih =>
    cases vs with
    | nil => exact h
    | cons v vs =>
      have hrest : ∀ u ∈ vs, u ∈ values := fun u hu => hvs u (List.mem_cons_of_mem _ hu)
      rw [Layout.placeValues]
      split
      · exact ih hrest h
      · refine ih (fun u hu => ?_) (hwrite inputs w.name v (hvs v (by simp)) h)
        split at hu
        · exact hrest u (subset_of_dropToken hu)
        · exact hrest u hu

/-- And so it is while values are written under the names that they have. -/
theorem placeNamed_induction {P : Dict InputValue → Prop}
    (hwrite : ∀ inputs name v, v ∈ values → P inputs → P (writeValue inputs name v))
    (ws : List InputSpec) {fs : Fields} (hfs : ∀ e ∈ fs, e.2 ∈ values) (h : P inputs) :
    P (placeNamed ws fs inputs) := by
  rw [Layout.placeNamed]
  induction fs generalizing inputs with
  | nil => exact h
  | cons e fs ih =>
    rw [List.foldl_cons]
    refine ih (fun e' he' => hfs e' (List.mem_cons_of_mem _ he')) ?_
    split
    · exact hwrite inputs e.1 e.2 (hfs e (by simp)) h
    · exact h

/-- **What the write of each value keeps** holds of the inputs that widgets set. -/
theorem widgetInputs_induction {P : Dict InputValue → Prop} (t : NodeType) (w : Widgets)
    (hwrite : ∀ inputs name v, v ∈ w.values → P inputs → P (writeValue inputs name v))
    (h : P .empty) : P (widgetInputs t w) := by
  cases w with
  | listed values => exact placeValues_induction hwrite _ (fun v hv => hv) h
  | named fs => exact placeNamed_induction hwrite _ (fun e he => List.mem_map_of_mem he) h
  | other present => exact h

/-- **The literals of a node are the values of its widgets.** -/
theorem filledFrom_widgetInputs (t : NodeType) (w : Widgets) :
    FilledFrom w.values (widgetInputs t w) :=
  widgetInputs_induction t w (fun _ name _ hv h => h.writeValue name hv) (filledFrom_empty _)

/-- Whether the id of the node that a link starts at can be written. -/
def Wire.isShort (w : Wire) : Bool := (Json.int w.number).isWritable

/-- The output that a link starts at, whatever the length of the id. -/
def Wire.toLink (w : Wire) : Link := ⟨w.source, w.output⟩

/-- **A link is found where the search finds it**, if its id can be written. -/
theorem linkOf_eq (l : Layout) (link : Int) :
    l.linkOf link = l.sourceOf link >>= fun found =>
      withinLimit (found.all Wire.isShort) (found.map Wire.toLink) := by
  rw [linkOf]
  congr 1
  funext found
  cases found with
  | none => rfl
  | some wire =>
    show (withinLimit wire.isShort (idText wire.number) >>= fun source =>
      pure (some ⟨source, wire.output⟩) : Except Fault (Option Link)) = withinLimit wire.isShort _
    cases wire.isShort <;> rfl

/-- A slot with a name and a link makes a connection where its link leads to an output. -/
theorem connectSlots_linked {slot : Slot} {rest : List Slot} {name : String} {link : Int}
    (hname : slot.name = some name) (hlink : slot.link = some link) :
    l.connectSlots (slot :: rest) inputs = l.linkOf link >>= fun found =>
      l.connectSlots rest (found.elim inputs fun source => inputs.insert name source.toInput) := by
  rw [connectSlots, hname, hlink]
  dsimp only
  cases l.linkOf link with
  | error e => rfl
  | ok found => cases found <;> rfl

theorem FilledFrom.connectSlots (h : FilledFrom values inputs) {slots : List Slot}
    {inputs' : Dict InputValue} (hrun : connectSlots l slots inputs = .ok inputs') :
    FilledFrom values inputs' := by
  induction slots generalizing inputs with
  | nil =>
    cases hrun
    exact h
  | cons slot rest ih =>
    rw [Layout.connectSlots] at hrun
    split at hrun
    · split at hrun
      · cases hrun
      · exact ih (h.insert _ (Or.inr ⟨_, _, rfl⟩)) hrun
      · exact ih h hrun
    · exact ih h hrun

/-! ## Nodes -/

/-- The literals of a node. -/
def literalsOf (schema : Schema) (i : Item) : Dict InputValue :=
  match schema.get? i.type with
  | some t => widgetInputs t i.widgets
  | none => .empty

/-- Whether the id of a node can be written. -/
def Item.isShort (i : Item) : Bool := (Json.int i.id).isWritable

theorem checkLoss_eq (schema : Schema) (i : Item) :
    checkLoss schema i = withinLimit (!losesValues schema i || i.isShort) () := by
  rw [checkLoss]
  cases losesValues schema i with
  | false => rfl
  | true => exact map_withinLimit _

theorem convert_eq (l : Layout) (schema : Schema) (i : Item) :
    l.convert schema i = checkLoss schema i >>= fun _ => i.slots >>= fun slots =>
      l.connectSlots slots (literalsOf schema i) >>= fun inputs =>
        withinLimit i.isShort (idText i.id) >>= fun id => i.place >>= fun place => .ok ⟨{
          id := id, classType := i.type, inputs := inputs
          title := i.title.filter (· ≠ i.type), mode := i.mode
          outputs := ((schema.get? i.type).map NodeType.outputs).getD [] }, place⟩ := rfl

/-- **What a node becomes, part by part.** -/
theorem convert_eq_ok_iff :
    l.convert schema i = .ok p ↔
      i.isShort ∧ ∃ slots, i.slots = .ok slots ∧
        l.connectSlots slots (literalsOf schema i) = .ok p.node.inputs ∧
        i.place = .ok p.place ∧ p.node = {
          id := idText i.id, classType := i.type, inputs := p.node.inputs
          title := i.title.filter (· ≠ i.type), mode := i.mode
          outputs := ((schema.get? i.type).map NodeType.outputs).getD [] } := by
  rw [convert_eq]
  constructor
  · intro h
    obtain ⟨-, -, h⟩ := exists_of_bind_eq_ok h
    obtain ⟨slots, hslots, h⟩ := exists_of_bind_eq_ok h
    obtain ⟨inputs, hinputs, h⟩ := exists_of_bind_eq_ok h
    obtain ⟨id, hid, h⟩ := exists_of_bind_eq_ok h
    obtain ⟨place, hplace, h⟩ := exists_of_bind_eq_ok h
    obtain ⟨hshort, rfl⟩ := withinLimit_eq_ok_iff.1 hid
    cases h
    exact ⟨hshort, slots, hslots, hinputs, hplace, rfl⟩
  · rintro ⟨hshort, slots, hslots, hinputs, hplace, hnode⟩
    have hloss : checkLoss schema i = .ok () := by
      rw [checkLoss_eq, hshort, Bool.or_true, withinLimit_true]
    rw [hloss, hslots, hshort]
    show (l.connectSlots slots (literalsOf schema i) >>= fun inputs => Except.ok _ >>= fun id =>
      i.place >>= fun place => _) = _
    rw [hinputs, hplace]
    exact congrArg Except.ok (congrArg (Placed.mk · p.place) hnode.symm)

/-- **What a node becomes** keeps its id, type, title and mode. -/
theorem convert_eq_ok (h : l.convert schema i = .ok p) :
    p.node.id = idText i.id ∧ p.node.classType = i.type ∧
      p.node.title = i.title.filter (· ≠ i.type) ∧ p.node.mode = i.mode ∧
      FilledFrom i.widgets.values p.node.inputs := by
  obtain ⟨-, slots, -, hinputs, -, hnode⟩ := convert_eq_ok_iff.1 h
  have hliterals : FilledFrom i.widgets.values (literalsOf schema i) := by
    unfold literalsOf
    split
    · exact filledFrom_widgetInputs _ _
    · exact filledFrom_empty _
  refine ⟨?_, ?_, ?_, ?_, hliterals.connectSlots hinputs⟩ <;> rw [hnode]

/-- A node less its connections to nodes that are not there keeps everything but inputs. -/
theorem inputs_dropDangling {present : List String} {n : Node} {input : String} {v : InputValue}
    (hn : FilledFrom values n.inputs)
    (hv : (dropDangling present n).inputs.get? input = some v) :
    (∃ w ∈ values, v = .literal w) ∨
      ∃ source output, v = .connection source output ∧ source ∈ present := by
  rw [dropDangling, Dict.get?_filter, Option.filter_eq_some_iff] at hv
  obtain ⟨hv, hkeep⟩ := hv
  rcases hn input v hv with hliteral | ⟨source, output, rfl⟩
  · exact Or.inl hliteral
  · exact Or.inr ⟨source, output, rfl, by simpa using hkeep⟩

/-! ## Notes -/

/-- The text of a note, whatever the length of the integers in it. -/
def Widgets.text : Widgets → String
  | .listed (.null :: _) => ""
  | .listed (v :: _) => v.display
  | _ => ""

/-- Whether the value that the text of a note is made of can be written. -/
def Widgets.isShort : Widgets → Bool
  | .listed (v :: _) => v.isWritable
  | _ => true

theorem noteText_eq (w : Widgets) : noteText w = withinLimit w.isShort w.text := by
  cases w with
  | listed values =>
    cases values with
    | nil => rfl
    | cons v rest => cases v <;> rfl
  | _ => rfl

/-- What a node that holds text becomes, whatever the length of the integers in it. -/
def noteOf (i : Item) : Note := ⟨.int i.id, i.title.getD "Note", i.widgets.text⟩

/-- The notes of the workflow. -/
def notes (l : Layout) : List Note :=
  (l.items.values.filter fun i => i.type ≠ "" && !i.isReroute && i.isNote).map noteOf

theorem toNote_eq (i : Item) : toNote i = withinLimit i.widgets.isShort (noteOf i) := by
  rw [toNote, noteText_eq]
  exact map_withinLimit _

/-- **The nodes of a layout are converted one after the other**, ordinary ones and notes. -/
theorem mapM_convertItem_eq_ok {parts : List (Note ⊕ Placed)}
    (h : l.converted.mapM (l.convertItem schema) = .ok parts) :
    l.ordinary.mapM (l.convert schema) = .ok (parts.filterMap Sum.getRight?) ∧
      parts.filterMap Sum.getLeft? = l.notes := by
  obtain ⟨hnotes, hplaced⟩ := mapM_ite_eq_ok h
  have hboth : (l.converted.filter Item.isNote) =
      l.items.values.filter fun i => i.type ≠ "" && !i.isReroute && i.isNote := by
    rw [converted, List.filter_filter]
    exact List.filter_congr fun i _ => Bool.and_comm _ _
  have hordinary : (l.converted.filter fun i => !i.isNote) = l.ordinary := by
    rw [converted, List.filter_filter]
    exact List.filter_congr fun i _ => Bool.and_comm _ _
  rw [hboth] at hnotes
  rw [hordinary] at hplaced
  refine ⟨hplaced, ?_⟩
  have hnote : ∀ i n, toNote i = .ok n → noteOf i = id n :=
    fun i n hn => (withinLimit_eq_ok_iff.1 ((toNote_eq i).symm.trans hn)).2
  have hsame := map_eq_of_forall₂ (mapM_eq_ok_iff.1 hnotes) hnote
  rw [List.map_id] at hsame
  exact hsame.symm

/-! ## The workflow -/

/-- Each node of the layout stands under the text of its id. -/
def Keyed (l : Layout) : Prop := ∀ key i, l.items.get? key = some i → idText i.id = key

theorem keyed_of_ofFields {document : Fields} (h : ofFields document = .ok l) : l.Keyed :=
  fun _ _ => key_of_get?_items h

theorem ids_ordinary (hk : l.Keyed) : (l.ordinary.map fun i => idText i.id).Nodup := by
  have hids : l.ordinary.map (fun i => idText i.id) =
      Entries.keys (l.items.entries.filter fun e => e.2.isOrdinary) := by
    rw [ordinary, Dict.values, List.filter_map, List.map_map, Entries.keys]
    refine List.map_congr_left fun e he => ?_
    exact hk e.1 e.2 (Dict.get?_eq_some_iff.2 (List.mem_filter.1 he).1)
  rw [hids]
  exact (Entries.keys_filter_sublist _ _).nodup l.items.nodup

/-- **The nodes of the workflow are the converted nodes**, in order and each under its id. -/
theorem exists_placed (hk : l.Keyed) (h : l.toGraph schema = .ok g) :
    ∃ placed : List Placed,
      List.Forall₂ (fun i p => l.convert schema i = .ok p) l.ordinary placed ∧
      (placed.map fun p => p.node.id).Nodup ∧
      g.nodes.entries =
        placed.map (fun p => (p.node.id, dropDangling (placed.map fun p => p.node.id) p.node)) ∧
      Layout.groups placed l.frames = .ok g.groups ∧
      g = { nodes := g.nodes, groups := g.groups, notes := l.notes } := by
  rw [toGraph] at h
  obtain ⟨parts, hparts, h⟩ := exists_of_bind_eq_ok h
  obtain ⟨groups, hgroups, h⟩ := exists_of_bind_eq_ok h
  obtain ⟨hplaced, hnotes⟩ := mapM_convertItem_eq_ok hparts
  generalize parts.filterMap Sum.getRight? = placed at hplaced hgroups h
  rw [hnotes] at h
  cases h
  have hconverted := mapM_eq_ok_iff.1 hplaced
  have hids : l.ordinary.map (fun i => idText i.id) = placed.map fun p => p.node.id :=
    map_eq_of_forall₂ hconverted fun i p hp => (convert_eq_ok hp).1.symm
  have hnodup : (placed.map fun p => p.node.id).Nodup := by
    rw [← hids]
    exact ids_ordinary hk
  refine ⟨placed, hconverted, hnodup, ?_, hgroups, rfl⟩
  refine Dict.entries_ofList ?_
  simpa [Entries.keys, Function.comp_def] using hnodup

/-- Every node of the workflow was one of the layout. -/
theorem exists_item_of_node? {placed : List Placed} {present : List String} {key : String}
    {n : Node} (hplaced : List.Forall₂ (fun i p => l.convert schema i = .ok p) l.ordinary placed)
    (hentries : g.nodes.entries = placed.map fun p => (p.node.id, dropDangling present p.node))
    (hn : g.node? key = some n) :
    ∃ i ∈ l.ordinary, ∃ p, l.convert schema i = .ok p ∧ idText i.id = key ∧
      n = dropDangling present p.node := by
  have hmem : (key, n) ∈ g.nodes.entries := Dict.get?_eq_some_iff.1 hn
  rw [hentries] at hmem
  obtain ⟨p, hp, he⟩ := List.mem_map.1 hmem
  obtain ⟨rfl, rfl⟩ := Prod.mk.inj he
  obtain ⟨i, hi, hconvert⟩ := exists_of_mem_forall₂ hplaced hp
  exact ⟨i, hi, p, hconvert, (convert_eq_ok hconvert).1.symm, rfl⟩

/-- An import goes through a layout and its workflow. -/
theorem exists_layout_of_ofLayout {document : Fields} {r : Imported}
    (h : (Imported.ofLayout (.obj document) schema).result = .ok r) :
    ∃ l, ofFields document = .ok l ∧ l.toGraph schema = .ok r.graph := by
  rw [Imported.ofLayout, Log.Traced.result_bind] at h
  obtain ⟨fields, hfields, h⟩ := exists_of_bind_eq_ok h
  obtain rfl : document = fields := Except.ok.inj hfields
  rw [Imported.ofLayoutFields, Log.Traced.result_bind, Log.Traced.result_timing] at h
  obtain ⟨imported, himported, h⟩ := exists_of_bind_eq_ok h
  rw [Log.Traced.result_bind] at h
  obtain ⟨_, -, h⟩ := exists_of_bind_eq_ok h
  obtain rfl : imported = r := Except.ok.inj h
  cases hl : ofFields document with
  | error e =>
    rw [hl] at himported
    cases himported
  | ok l =>
    rw [hl] at himported
    obtain ⟨g, hg, rfl⟩ := exists_of_map_eq_ok himported
    exact ⟨l, rfl, hg⟩

end Layout

end NodeFlow
