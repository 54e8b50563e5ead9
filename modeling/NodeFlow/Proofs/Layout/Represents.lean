import NodeFlow.Proofs.Layout.Conversion
/-!
# What an imported workflow is of a document

An import loses no node and makes none up: of the nodes with an id the last
one alone decides whether the id becomes a node, a note or nothing, and with
which type, title and mode. The workflow is closed, although links of a
document may lead anywhere, and its groups hold nodes of the workflow, each
once.
-/

namespace NodeFlow.Layout

variable {document : Fields} {l : Layout} {schema : Schema} {g : Graph}

/-- The title of a node, if it has a text that is not empty. -/
def titleOf (fs : Fields) : Option String := properText? (Entries.get? fs "title")

/-- The mode of a node; what is no integer means active. -/
def modeOf (fs : Fields) : Int := ((Entries.get? fs "mode").bind wholeNumber?).getD activeMode

/-- The values of the widgets of a node. -/
def widgetsOf (fs : Fields) : Widgets :=
  readWidgets ((Entries.get? fs "widgets_values").getD .null)

/-- What becomes of a number that nodes carry, given the last of these nodes. -/
structure DecidedBy (g : Graph) (i : Int) (fs : Fields) : Prop where
  /-- One node of the workflow, with the type, the title and the mode of the given node, if that is
  an ordinary one, and none otherwise. -/
  nodes : ((g.nodeList.filter fun n => n.id = idText i).map fun n =>
      (n.classType, n.displayTitle, n.mode)) =
    if typeOf fs ≠ "" ∧ typeOf fs ∉ noteTypes ∧ typeOf fs ∉ rerouteTypes then
      [(typeOf fs, (titleOf fs).getD (typeOf fs), modeOf fs)]
    else []
  /-- One note of the workflow if the given node is a note, and none otherwise. -/
  notes : (g.notes.filter fun n => n.id = .int i) =
    if typeOf fs ∈ noteTypes then [⟨.int i, (titleOf fs).getD "Note", (widgetsOf fs).text⟩]
    else []

/-- A workflow is what a layout document describes. -/
structure Represents (document : Fields) (g : Graph) : Prop where
  /-- Nodes stand under their ids, which are the decimal texts of numbers that nodes carry. -/
  keys : ∀ key n, g.node? key = some n →
    n.id = key ∧ ∃ i fs, i ≠ -1 ∧ lastNode? document i = some fs ∧ key = idText i
  /-- The last of the nodes that carry a number alone decides what becomes of it. -/
  decided : ∀ i, i ≠ -1 → (∃ fs ∈ rawNodes document, carriedId? fs = some i) →
    ∃ fs, lastNode? document i = some fs ∧ DecidedBy g i fs
  /-- And there are no other notes. -/
  carried : ∀ n ∈ g.notes, ∃ i fs, i ≠ -1 ∧ lastNode? document i = some fs ∧ n.id = .int i
  /-- An input holds a literal, which is a value of a widget of its node, or a connection that
  starts at a node of the workflow. -/
  inputs : ∀ key input v, g.inputAt? key input = some v →
    (∃ w, v = .literal w ∧ ∃ i fs, lastNode? document i = some fs ∧ key = idText i ∧
      w ∈ (widgetsOf fs).values) ∨
    ∃ source output, v = .connection source output ∧ g.has source
  /-- A group has members, which are nodes of the workflow, each once. -/
  groups : ∀ gr ∈ g.groups, gr.members ≠ [] ∧ gr.members.Nodup ∧ ∀ m ∈ gr.members, g.has m

/-! ## Nodes and notes -/

/-- What stands under the text of a number is the last node that carries it. -/
theorem filter_items {i : Int} {fs : Fields} (h : ofFields document = .ok l) (hi : i ≠ -1)
    (hfs : lastNode? document i = some fs) :
    (l.items.values.filter fun item => idText item.id = idText i) = [readItem i fs] := by
  have hitem : l.items.get? (idText i) = some (readItem i fs) :=
    (get?_items_eq_some_iff h).2 ⟨i, fs, hi, hfs, rfl, rfl⟩
  rw [Dict.filter_values_eq (f := fun item : Item => idText item.id) (keyed_of_ofFields h), hitem]
  rfl

theorem titleOf_eq (i : Int) (fs : Fields) : (readItem i fs).title = titleOf fs := by
  show properText? (some ((Entries.get? fs "title").getD .null)) = _
  rw [titleOf]
  cases Entries.get? fs "title" <;> rfl

theorem modeOf_eq (i : Int) (fs : Fields) : (readItem i fs).mode = modeOf fs := by
  show (wholeNumber? ((Entries.get? fs "mode").getD .null)).getD activeMode = _
  rw [modeOf]
  cases Entries.get? fs "mode" <;> rfl

theorem isOrdinary_iff (i : Int) (fs : Fields) :
    (readItem i fs).isOrdinary ↔
      typeOf fs ≠ "" ∧ typeOf fs ∉ noteTypes ∧ typeOf fs ∉ rerouteTypes := by
  simp only [Item.isOrdinary, Item.isReroute, Item.isNote, typeOf_eq, Bool.and_eq_true,
    decide_eq_true_eq, Bool.not_eq_true', List.contains_eq_mem, decide_eq_false_iff_not]
  tauto

/-- No type of a note is empty, or that of a reroute. -/
theorem noteTypes_apart : ∀ t ∈ noteTypes, t ≠ "" ∧ t ∉ rerouteTypes := by decide

/-- Whether a node becomes a note of the workflow. -/
def Item.becomesNote (i : Item) : Bool := i.type ≠ "" && !i.isReroute && i.isNote

theorem becomesNote_iff (i : Int) (fs : Fields) :
    (readItem i fs).becomesNote ↔ typeOf fs ∈ noteTypes := by
  simp only [Item.becomesNote, Item.isReroute, Item.isNote, typeOf_eq, Bool.and_eq_true,
    decide_eq_true_eq, Bool.not_eq_true', List.contains_eq_mem, decide_eq_false_iff_not]
  exact ⟨And.right, fun hn => ⟨noteTypes_apart _ hn, hn⟩⟩

/-- A title that is left out since it is the type is shown all the same. -/
theorem displayTitle_eq {n : Node} {title : Option String} (hempty : title ≠ some "")
    (htitle : n.title = title.filter (· ≠ n.classType)) :
    n.displayTitle = title.getD n.classType := by
  rw [Node.displayTitle, htitle]
  cases title with
  | none => rfl
  | some t =>
    have ht : t ≠ "" := fun he => hempty (congrArg some he)
    by_cases hclass : t = n.classType
    · simp [Option.filter, hclass]
    · simp [Option.filter, hclass, ht]

/-- What the nodes of a layout that become nodes of the workflow are seen as. -/
theorem seen_of_convert {i : Item} {p : Placed} (hempty : i.title ≠ some "")
    (h : l.convert schema i = .ok p) :
    (idText i.id, i.type, i.title.getD i.type, i.mode) =
      (p.node.id, p.node.classType, p.node.displayTitle, p.node.mode) := by
  obtain ⟨hid, hclass, htitle, hmode, -⟩ := convert_eq_ok h
  rw [hid, hmode, displayTitle_eq hempty (by rw [htitle, hclass]), hclass]

/-- A title that was read is not empty. -/
theorem title_ne_empty (h : ofFields document = .ok l) {i : Item} (hi : i ∈ l.ordinary) :
    i.title ≠ some "" := by
  obtain ⟨-, fs, -, hread⟩ := exists_lastNode?_of_mem h (List.mem_filter.1 hi).1
  intro htitle
  rw [hread, titleOf_eq, titleOf, properText?, Option.filter_eq_some_iff] at htitle
  exact absurd htitle.2 (by decide)

/-- **The nodes of the workflow with an id** are read off the nodes of the layout with it. -/
theorem filter_nodeList {placed : List Placed} {present : List String}
    (h : ofFields document = .ok l)
    (hplaced : List.Forall₂ (fun i p => l.convert schema i = .ok p) l.ordinary placed)
    (hentries : g.nodes.entries = placed.map fun p => (p.node.id, dropDangling present p.node))
    (key : String) :
    ((g.nodeList.filter fun n => n.id = key).map fun n => (n.classType, n.displayTitle, n.mode)) =
      (l.ordinary.filter fun i => idText i.id = key).map fun i =>
        (i.type, i.title.getD i.type, i.mode) := by
  have htitled : List.Forall₂ (fun i p => i.title ≠ some "" ∧ l.convert schema i = .ok p)
      l.ordinary placed :=
    (List.forall₂_and_left _ _).2 ⟨fun i hi => title_ne_empty h hi, hplaced⟩
  have hseen : g.nodeList.map (fun n => (n.id, n.classType, n.displayTitle, n.mode)) =
      l.ordinary.map fun i => (idText i.id, i.type, i.title.getD i.type, i.mode) := by
    rw [Graph.nodeList, Dict.values, hentries, List.map_map, List.map_map]
    exact (map_eq_of_forall₂ htitled fun i p hp => seen_of_convert hp.1 hp.2).symm
  calc (g.nodeList.filter fun n => n.id = key).map (fun n => (n.classType, n.displayTitle, n.mode))
      = ((g.nodeList.map fun n => (n.id, n.classType, n.displayTitle, n.mode)).filter
          fun e => e.1 = key).map Prod.snd := by
        rw [List.filter_map, List.map_map]
        rfl
    _ = ((l.ordinary.map fun i => (idText i.id, i.type, i.title.getD i.type, i.mode)).filter
          fun e => e.1 = key).map Prod.snd := by rw [hseen]
    _ = (l.ordinary.filter fun i => idText i.id = key).map fun i =>
          (i.type, i.title.getD i.type, i.mode) := by
        rw [List.filter_map, List.map_map]
        rfl

/-- **The notes of the workflow with an id** are read off the nodes of the layout with it. -/
theorem filter_notes (l : Layout) (i : Int) :
    (l.notes.filter fun n => n.id = .int i) =
      ((l.items.values.filter fun item => idText item.id = idText i).filter Item.becomesNote).map
        fun item => ⟨.int item.id, item.title.getD "Note", item.widgets.text⟩ := by
  rw [notes, List.filter_map, List.filter_filter, List.filter_filter]
  congr 1
  refine List.filter_congr fun item _ => ?_
  have hid : (noteOf item).id = .int i ↔ idText item.id = idText i := by
    rw [noteOf, Json.int.injEq, idText_injective.eq_iff]
  simp [hid, Item.becomesNote, Bool.and_comm]

/-! ## Groups -/

/-- The members of a group are placed nodes, and there are some. -/
theorem members_of_groups {placed : List Placed} {frames : List Frame} {gs : List Group}
    (h : groups placed frames = .ok gs) {gr : Group} (hgr : gr ∈ gs) :
    gr.members ≠ [] ∧ gr.members.Sublist (placed.map fun p => p.node.id) := by
  induction frames generalizing gs with
  | nil =>
    cases h
    cases hgr
  | cons f rest ih =>
    rw [groups] at h
    split at h
    · cases h
    · exact ih h hgr
    · dsimp only at h
      obtain ⟨gs', hrest, rfl⟩ := exists_of_map_eq_ok h
      split at hgr
      · exact ih hrest hgr
      · rename_i hmembers
        rcases List.mem_cons.1 hgr with rfl | hgr
        · exact ⟨by simpa [List.isEmpty_iff] using hmembers, List.filter_sublist.map _⟩
        · exact ih hrest hgr

/-! ## The whole -/

/-- The workflow of a layout that was read is what the document describes. -/
theorem represents_of_toGraph (hl : ofFields document = .ok l) (hg : l.toGraph schema = .ok g) :
    Represents document g := by
  obtain ⟨placed, hplaced, hnodup, hentries, hgroups, hrest⟩ :=
    exists_placed (keyed_of_ofFields hl) hg
  have hkeys : ∀ key, key ∈ placed.map (fun p => p.node.id) → g.has key := by
    intro key hkey
    rw [Graph.has_iff_mem_keys, Dict.keys, hentries, Entries.keys, List.map_map]
    exact hkey
  have hnotes : g.notes = l.notes := by rw [hrest]
  constructor
  case keys =>
    intro key n hn
    obtain ⟨i, hi, p, hp, rfl, rfl⟩ := exists_item_of_node? hplaced hentries hn
    obtain ⟨hid, fs, hfs, -⟩ := exists_lastNode?_of_mem hl (List.mem_filter.1 hi).1
    exact ⟨(convert_eq_ok hp).1, i.id, fs, hid, hfs, rfl⟩
  case decided =>
    rintro i hi ⟨raw, hraw, hid⟩
    obtain ⟨fs, hfs⟩ := exists_lastNode? hraw hid
    refine ⟨fs, hfs, ?_, ?_⟩
    · rw [filter_nodeList hl hplaced hentries, ordinary, List.filter_comm, filter_items hl hi hfs]
      by_cases hordinary : typeOf fs ≠ "" ∧ typeOf fs ∉ noteTypes ∧ typeOf fs ∉ rerouteTypes
      · rw [if_pos hordinary, List.filter_cons_of_pos ((isOrdinary_iff i fs).2 hordinary),
          List.filter_nil, List.map_singleton, typeOf_eq, titleOf_eq, modeOf_eq]
      · rw [if_neg hordinary,
          List.filter_cons_of_neg fun ho => hordinary ((isOrdinary_iff i fs).1 ho)]
        rfl
    · rw [hnotes, filter_notes, filter_items hl hi hfs]
      by_cases hnote : typeOf fs ∈ noteTypes
      · rw [if_pos hnote, List.filter_cons_of_pos ((becomesNote_iff i fs).2 hnote),
          List.filter_nil, List.map_singleton, titleOf_eq]
        rfl
      · rw [if_neg hnote, List.filter_cons_of_neg fun hn => hnote ((becomesNote_iff i fs).1 hn)]
        rfl
  case carried =>
    intro n hn
    rw [hnotes, notes] at hn
    obtain ⟨item, hitem, rfl⟩ := List.mem_map.1 hn
    obtain ⟨hid, fs, hfs, -⟩ := exists_lastNode?_of_mem hl (List.mem_filter.1 hitem).1
    exact ⟨item.id, fs, hid, hfs, rfl⟩
  case inputs =>
    intro key input v hv
    obtain ⟨n, hn, hv⟩ := Graph.inputAt?_eq_some_iff.1 hv
    obtain ⟨i, hi, p, hp, rfl, rfl⟩ := exists_item_of_node? hplaced hentries hn
    obtain ⟨-, fs, hfs, hread⟩ := exists_lastNode?_of_mem hl (List.mem_filter.1 hi).1
    rcases inputs_dropDangling (convert_eq_ok hp).2.2.2.2 hv with
      ⟨w, hw, rfl⟩ | ⟨source, output, rfl, hsource⟩
    · rw [hread] at hw
      exact Or.inl ⟨w, rfl, i.id, fs, hfs, rfl, hw⟩
    · exact Or.inr ⟨source, output, rfl, hkeys source hsource⟩
  case groups =>
    intro gr hgr
    obtain ⟨hne, hsub⟩ := members_of_groups hgroups hgr
    exact ⟨hne, hsub.nodup hnodup, fun m hm => hkeys m (hsub.subset hm)⟩

/-- **A workflow imported from a layout is what the document describes**, whatever the document: ids
may be repeated or mistyped, links may lead to notes, reroutes, nodes without a type or nowhere. -/
theorem represents_of_ofLayout {r : Imported}
    (h : (Imported.ofLayout (.obj document) schema).result = .ok r) :
    Represents document r.graph := by
  obtain ⟨l, hl, hg⟩ := exists_layout_of_ofLayout h
  exact represents_of_toGraph hl hg

/-- A schema whose loader takes a name from a list. -/
def loaderSchema : Schema :=
  ⟨.ofList [("CheckpointLoaderSimple",
    { classType := "CheckpointLoaderSimple"
      inputs := [{ name := "ckpt_name", type := "ENUM" }]
      outputs := [{ name := "MODEL", type := "MODEL" }] })]⟩

/-- A note whose id a loader takes over, spelled as a text; a reroute between the loader and a
sampler; links from a note and from nowhere; a node with the number that stands for none, one
without a type, and something that is no node. -/
def scattered : Fields :=
  [("nodes", .arr [
      .obj [("id", .int 1), ("type", .str "Note"), ("widgets_values", .arr [.str "old"])],
      .obj [("id", .int 3), ("type", .str "KSampler"), ("pos", .arr [.int 20, .int 20]),
        ("inputs", .arr [.obj [("name", .str "model"), ("link", .int 2)],
          .obj [("name", .str "positive"), ("link", .int 3)],
          .obj [("name", .str "vae"), ("link", .int 9)]])],
      .obj [("id", .str "1"), ("type", .str "CheckpointLoaderSimple"), ("title", .str "Loader"),
        ("pos", .arr [.int 10, .int 10]), ("widgets_values", .arr [.str "a.safetensors"])],
      .obj [("id", .int 2), ("type", .str "Reroute"), ("inputs", .arr [.obj [("link", .int 1)]])],
      .obj [("id", .int 4), ("type", .str "Note"), ("widgets_values", .arr [.str "remember"])],
      .obj [("id", .int (-1)), ("type", .str "KSampler")],
      .obj [("id", .int 5)], .int 7]),
    ("links", .arr [
      .arr [.int 1, .int 1, .int 0, .int 2, .int 0, .str "MODEL"],
      .arr [.int 2, .int 2, .int 0, .int 3, .int 0, .str "MODEL"],
      .arr [.int 3, .int 4, .int 0, .int 3, .int 1, .str "CONDITIONING"]]),
    ("groups", .arr [.obj [("title", .str "All"),
      ("bounding", .arr [.int 0, .int 0, .int 100, .int 100])]])]

/-- What is left of it. -/
def gathered : Graph where
  nodes := .ofList [
    ("1", { id := "1", classType := "CheckpointLoaderSimple", title := some "Loader"
            inputs := .ofList [("ckpt_name", .literal (.str "a.safetensors"))]
            outputs := [⟨"MODEL", "MODEL"⟩] }),
    ("3", { id := "3", classType := "KSampler"
            inputs := .ofList [("model", .connection "1" 0)] })]
  groups := [⟨.int 1, "All", ["1", "3"]⟩]
  notes := [⟨.int 4, "Note", "remember"⟩]

theorem ofLayout_scattered :
    ∃ r, (Imported.ofLayout (.obj scattered) loaderSchema).result = .ok r ∧ r.graph = gathered := by
  have hgraph : (Imported.ofLayout (.obj scattered) loaderSchema).result.toOption.map
      Imported.graph = some gathered := by decide +kernel
  obtain ⟨r, hr, hgathered⟩ := Option.map_eq_some_iff.1 hgraph
  exact ⟨r, eq_ok_of_toOption hr, hgathered⟩

/-- The hypothesis of `represents_of_ofLayout` is met: the loader is left of the nodes with its id,
and the sampler keeps the one link that leads to it. -/
theorem scattered_represents :
    ∃ r, (Imported.ofLayout (.obj scattered) loaderSchema).result = .ok r ∧ r.graph = gathered ∧
      Represents scattered r.graph := by
  obtain ⟨r, hr, hgathered⟩ := ofLayout_scattered
  exact ⟨r, hr, hgathered, represents_of_ofLayout hr⟩

end NodeFlow.Layout
