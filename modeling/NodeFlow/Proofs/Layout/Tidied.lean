import NodeFlow.Proofs.Document.Tidied
import NodeFlow.Proofs.Layout.Readable
/-!
# Layouts whose malformed parts are emptied

In a layout too, slots, values of widgets, places, links, groups and boxes
that cannot be read can be changed to empty ones (`tidy`). A layout that was
changed in this way can always be converted, and wherever the layout itself
can, the workflow is the same: `toGraph_tidied`.
-/

namespace NodeFlow.Layout

/-! ## Tidied documents -/

/-- The values of widgets, where they are in a list or under names. -/
def tidyWidgets : Json → Json
  | .arr values => .arr values
  | .obj values => .obj values
  | _ => .null

/-- A place, where it can be read. -/
def tidyPlace (v : Json) : Json :=
  match readPlace v with
  | .ok (some _) => v
  | _ => .null

/-- A box, where it can be read. -/
def tidyBox (v : Json) : Json :=
  match readBox v with
  | .ok (some _) => v
  | _ => .null

/-- A node whose slots are a list of objects, and whose widgets and place can be read or are
empty. -/
def tidyNode : Fields → Fields :=
  amend [("inputs", onItems (List.filter fun v => v.fields?.isSome)),
    ("widgets_values", tidyWidgets), ("pos", tidyPlace)]

/-- A group whose box can be read or is empty. -/
def tidyFrame : Fields → Fields := amend [("bounding", tidyBox)]

/-- How the tables of a layout are tidied. -/
def tidyTables : List (String × (Json → Json)) :=
  [("nodes", onItems (List.map (onFields tidyNode))),
    ("links", onItems (List.filter fun v => (readWire? v).isSome)),
    ("groups", onItems (List.map (onFields tidyFrame)))]

/-- A layout with empty parts in place of malformed ones. -/
def tidy : Fields → Fields := amend tidyTables

/-! ## Tidied layouts -/

/-- The values of widgets, if there are any. -/
def Widgets.tidied : Widgets → Widgets
  | .listed values => .listed values
  | .named values => .named values
  | .other _ => .other false

/-- A node without the slots and the place that cannot be read. -/
def Item.tidied (i : Item) : Item :=
  { i with widgets := i.widgets.tidied, slots := settled i.slots [], place := settled i.place none }

/-- A group without the box that cannot be read. -/
def Frame.tidied (f : Frame) : Frame := { f with box := settled f.box none }

/-- A layout without the parts that cannot be read. -/
def tidied (l : Layout) : Layout where
  items := l.items.map fun _ i => i.tidied
  wires := l.wires
  frames := l.frames.map Frame.tidied

/-! ## Reading tidied documents -/

theorem readSlots_tidy (v : Json) :
    readSlots (onItems (List.filter fun v => v.fields?.isSome) v) = settled (readSlots v) [] := by
  have hslots : ∀ items : List Json, (items.filter fun v => v.fields?.isSome).filterMap
      Json.fields? = items.filterMap Json.fields? := by
    intro items
    rw [List.filterMap_filter]
    congr 1
    funext v
    cases v <;> rfl
  rw [onItems, readSlots, hslots]
  cases v with
  | arr items => rfl
  | str s => rfl
  | obj fs => rfl
  | null => rfl
  | _ => exact (settled_ite_error _ _ []).symm

theorem readPlace_tidy (v : Json) : readPlace (tidyPlace v) = settled (readPlace v) none := by
  rw [tidyPlace]
  cases hv : readPlace v with
  | error e => rfl
  | ok place =>
    cases place with
    | none => rfl
    | some p => exact hv

theorem readBox_tidy (v : Json) : readBox (tidyBox v) = settled (readBox v) none := by
  rw [tidyBox]
  cases hv : readBox v with
  | error e => rfl
  | ok box =>
    cases box with
    | none => rfl
    | some b => exact hv

theorem readWidgets_tidy (v : Json) : readWidgets (tidyWidgets v) = (readWidgets v).tidied := by
  cases v <;> rfl

theorem readPlace_entryOf_tidyNode (fs : Fields) :
    readPlace (entryOf (tidyNode fs) "pos") = settled (readPlace (entryOf fs "pos")) none :=
  entryOf_amend readPlace (fun v => settled (readPlace v) none) readPlace_tidy rfl fs rfl

theorem readBox_entryOf_tidyFrame (fs : Fields) :
    readBox (entryOf (tidyFrame fs) "bounding") = settled (readBox (entryOf fs "bounding")) none :=
  entryOf_amend readBox (fun v => settled (readBox v) none) readBox_tidy rfl fs rfl

/-- **A tidied node is read as the node less what cannot be read.** -/
theorem readItem_tidyNode (i : Int) (fs : Fields) :
    readItem i (tidyNode fs) = (readItem i fs).tidied := by
  have hkept : ∀ name, name ∉ ["inputs", "widgets_values", "pos"] →
      entryOf (tidyNode fs) name = entryOf fs name := by
    intro name hname
    rw [entryOf, tidyNode, get?_amend_of_not_mem hname, entryOf]
  have hid : readItem i (tidyNode fs) =
      { readItem i fs with
        widgets := readWidgets (entryOf (tidyNode fs) "widgets_values")
        slots := readSlots (entryOf (tidyNode fs) "inputs")
        place := readPlace (entryOf (tidyNode fs) "pos") } := by
    rw [readItem, readItem]
    dsimp only
    have htype := hkept "type" (by decide)
    have htitle := hkept "title" (by decide)
    have hmode := hkept "mode" (by decide)
    rw [entryOf, entryOf] at htype htitle hmode
    rw [htype, htitle, hmode]
    rfl
  have hslots : readSlots (entryOf (tidyNode fs) "inputs") =
      settled (readSlots (entryOf fs "inputs")) [] :=
    entryOf_amend readSlots (fun v => settled (readSlots v) []) readSlots_tidy rfl fs rfl
  have hwidgets : readWidgets (entryOf (tidyNode fs) "widgets_values") =
      (readWidgets (entryOf fs "widgets_values")).tidied :=
    entryOf_amend readWidgets (fun v => (readWidgets v).tidied) readWidgets_tidy rfl fs rfl
  rw [hid, hslots, readPlace_entryOf_tidyNode, hwidgets]
  rfl

theorem filterMap_fields?_onFields (f : Fields → Fields) (vs : List Json) :
    (vs.map (onFields f)).filterMap Json.fields? = (vs.filterMap Json.fields?).map f := by
  rw [List.filterMap_map, List.map_filterMap]
  congr 1
  funext v
  exact fields?_onFields f v

theorem readItems_tidyNode (vs : List Json) :
    readItems (vs.map (onFields tidyNode)) = (readItems vs).map fun _ i => i.tidied := by
  have hid : ∀ fs, Entries.get? (tidyNode fs) "id" = Entries.get? fs "id" :=
    get?_amend_of_not_mem (by decide)
  rw [readItems, readItems, filterMap_fields?_onFields, List.foldl_map]
  induction vs.filterMap Json.fields? using List.reverseRecOn with
  | nil => rfl
  | append_singleton raws fs ih =>
    rw [List.foldl_append, List.foldl_append, ih, List.foldl_cons, List.foldl_nil, List.foldl_cons,
      List.foldl_nil, hid]
    cases (Entries.get? fs "id").bind wholeNumber? with
    | none => rfl
    | some j =>
      by_cases hj : j = noNumber
      · simp [hj]
      · simp [hj, Dict.map_insert, readItem_tidyNode]

theorem readWires_tidy (vs : List Json) :
    readWires (vs.filter fun v => (readWire? v).isSome) = readWires vs := by
  rw [readWires, readWires, List.filterMap_filter]
  congr 3
  funext v
  cases readWire? v <;> rfl

theorem readFrames_tidyFrame (n : Nat) (vs : List Json) :
    readFrames n (vs.map (onFields tidyFrame)) = (readFrames n vs).map Frame.tidied := by
  have hframe : ∀ n fs, readFrame n (tidyFrame fs) = (readFrame n fs).tidied := by
    intro n fs
    have hid : Entries.get? (tidyFrame fs) "id" = Entries.get? fs "id" :=
      get?_amend_of_not_mem (by decide) fs
    have htitle : Entries.get? (tidyFrame fs) "title" = Entries.get? fs "title" :=
      get?_amend_of_not_mem (by decide) fs
    have hbox := readBox_entryOf_tidyFrame fs
    rw [entryOf, entryOf] at hbox
    rw [readFrame, hid, htitle, hbox]
    rfl
  induction vs generalizing n with
  | nil => rfl
  | cons v rest ih =>
    cases v with
    | obj fs =>
      rw [List.map_cons, onFields, readFrames, readFrames, List.map_cons, hframe, ih]
    | _ => exact ih (n + 1)

theorem listed_tidy {document : Fields} {name : String} {f : List Json → List Json}
    (hname : (Entries.get? tidyTables name).getD id = onItems f) (hf : f [] = []) :
    listed (tidy document) name = f (listed document name) := by
  rw [listed, tidy, get?_amend, hname]
  exact itemsOf_map_onItems hf _

/-- **A tidied document is read as the layout less what cannot be read.** -/
theorem ofFields_tidy {document : Fields} {l : Layout} (h : ofFields document = .ok l) :
    ofFields (tidy document) = .ok l.tidied := by
  obtain ⟨l', hl'⟩ : ∃ l', ofFields (tidy document) = .ok l' := by
    rw [ofFields, tidy, get?_amend]
    cases Entries.get? document "nodes" with
    | none => exact ⟨_, rfl⟩
    | some v => exact ⟨_, rfl⟩
  obtain ⟨hwires, hframes⟩ := tables_of_ofFields h
  obtain ⟨hwires', hframes'⟩ := tables_of_ofFields hl'
  have hitems' := items_of_ofFields hl'
  rw [listed_tidy rfl List.map_nil, readItems_tidyNode, ← items_of_ofFields h] at hitems'
  rw [listed_tidy rfl List.filter_nil, readWires_tidy, ← hwires] at hwires'
  rw [listed_tidy rfl List.map_nil, readFrames_tidyFrame, ← hframes] at hframes'
  rw [hl', tidied, ← hitems', ← hwires', ← hframes']

/-! ## Converting tidied layouts -/

variable {l : Layout} {schema : Schema}

theorem step_tidied {link : Int} {s : Step} (h : l.step link = .ok s) :
    l.tidied.step link = .ok s := by
  have hwires : l.tidied.wires = l.wires := rfl
  have hitems : ∀ key, l.tidied.items.get? key = (l.items.get? key).map Item.tidied :=
    fun key => Dict.get?_map l.items (fun _ i => i.tidied) key
  rw [step] at h ⊢
  rw [hwires]
  cases hwire : l.wires.get? (idText link) with
  | none => rwa [hwire] at h
  | some wire =>
    rw [hwire] at h
    dsimp only at h ⊢
    rw [hitems]
    cases hitem : l.items.get? wire.source with
    | none => rwa [hitem] at h
    | some item =>
      rw [hitem] at h
      have hreroute : item.tidied.isReroute = item.isReroute := rfl
      dsimp only [Option.map_some] at h ⊢
      rw [hreroute]
      split at h
      · rename_i hpasses
        obtain ⟨slots, hslots, rfl⟩ := exists_of_map_eq_ok h
        have hsettled : item.tidied.slots = .ok slots := settled_of_ok hslots []
        rw [if_pos hpasses, hsettled]
        rfl
      · rename_i hends
        rw [if_neg hends]
        exact h

/-- A walk that has an end, or comes to none, does not come upon what cannot be read. -/
theorem walk_tidied {hops : Nat} {link : Int} {wire : Option Wire}
    (h : l.walk hops link = .ok wire) : l.tidied.walk hops link = .ok wire := by
  induction hops generalizing link with
  | zero => exact h
  | succ hops ih =>
    rw [walk] at h ⊢
    obtain ⟨s, hs, h⟩ := exists_of_bind_eq_ok h
    rw [step_tidied hs]
    cases s with
    | ends wire => exact h
    | goes next => exact ih h

theorem sourceOf_tidied {link : Int} {wire : Option Wire} (h : l.sourceOf link = .ok wire) :
    l.tidied.sourceOf link = .ok wire := by
  rw [sourceOf_eq_walk] at h ⊢
  exact walk_tidied h

theorem linkOf_tidied {link : Int} {found : Option Link} (h : l.linkOf link = .ok found) :
    l.tidied.linkOf link = .ok found := by
  rw [linkOf_eq] at h ⊢
  obtain ⟨wire, hwire, h⟩ := exists_of_bind_eq_ok h
  rw [sourceOf_tidied hwire]
  exact h

theorem connectSlots_tidied {slots : List Slot} {inputs inputs' : Dict InputValue}
    (h : l.connectSlots slots inputs = .ok inputs') :
    l.tidied.connectSlots slots inputs = .ok inputs' := by
  induction slots generalizing inputs with
  | nil => exact h
  | cons slot rest ih =>
    rw [connectSlots] at h ⊢
    split at h
    · split at h
      · cases h
      · rename_i source hsource
        rw [linkOf_tidied hsource]
        exact ih h
      · rename_i hsource
        rw [linkOf_tidied hsource]
        exact ih h
    · exact ih h

theorem literalsOf_tidied (schema : Schema) (i : Item) :
    literalsOf schema i.tidied = literalsOf schema i := by
  have htype : i.tidied.type = i.type := rfl
  rw [literalsOf, literalsOf, htype]
  cases schema.get? i.type with
  | none => rfl
  | some t =>
    show widgetInputs t i.widgets.tidied = widgetInputs t i.widgets
    cases i.widgets <;> rfl

theorem convert_tidied {i : Item} {p : Placed} (h : l.convert schema i = .ok p) :
    l.tidied.convert schema i.tidied = .ok p := by
  obtain ⟨hshort, slots, hslots, hinputs, hplace, hnode⟩ := convert_eq_ok_iff.1 h
  refine convert_eq_ok_iff.2 ⟨hshort, slots, settled_of_ok hslots [], ?_,
    settled_of_ok hplace none, hnode⟩
  rw [literalsOf_tidied]
  exact connectSlots_tidied hinputs

theorem noteText_tidied (w : Widgets) : noteText w.tidied = noteText w := by
  cases w <;> rfl

/-- A node or a note of a layout that is converted is the same without what cannot be read. -/
theorem convertItem_tidied {i : Item} {part : Note ⊕ Placed}
    (h : l.convertItem schema i = .ok part) :
    l.tidied.convertItem schema i.tidied = .ok part := by
  have hkind : i.tidied.isNote = i.isNote := rfl
  have hnote : toNote i.tidied = toNote i := by
    show (noteText i.widgets.tidied).map _ = (noteText i.widgets).map _
    rw [noteText_tidied]
    rfl
  rw [convertItem] at h
  rw [convertItem, hkind, hnote]
  split at h
  · rename_i hisNote
    rw [if_pos hisNote]
    exact h
  · rename_i hnotNote
    obtain ⟨p, hp, rfl⟩ := exists_of_map_eq_ok h
    rw [if_neg hnotNote, convert_tidied hp]
    rfl

theorem values_items_tidied (l : Layout) :
    l.tidied.items.values = l.items.values.map Item.tidied := Dict.values_map _ _

theorem converted_tidied (l : Layout) : l.tidied.converted = l.converted.map Item.tidied := by
  rw [converted, converted, values_items_tidied, List.filter_map]
  rfl

theorem groups_tidied {placed : List Placed} {frames : List Frame} {gs : List Group}
    (h : groups placed frames = .ok gs) : groups placed (frames.map Frame.tidied) = .ok gs := by
  induction frames generalizing gs with
  | nil => exact h
  | cons f rest ih =>
    rw [List.map_cons]
    rw [groups] at h ⊢
    cases hbox : f.box with
    | error e =>
      rw [hbox] at h
      cases h
    | ok box =>
      have hsettled : f.tidied.box = .ok box := settled_of_ok hbox none
      rw [hbox] at h
      rw [hsettled]
      cases box with
      | none => exact ih h
      | some b =>
        dsimp only at h ⊢
        obtain ⟨gs', hrest, rfl⟩ := exists_of_map_eq_ok h
        rw [ih hrest]
        rfl

/-- **What cannot be read of a layout that is converted makes no difference.** -/
theorem toGraph_tidied {g : Graph} (h : l.toGraph schema = .ok g) :
    l.tidied.toGraph schema = .ok g := by
  rw [toGraph] at h ⊢
  obtain ⟨parts, hparts, h⟩ := exists_of_bind_eq_ok h
  obtain ⟨gs, hgs, h⟩ := exists_of_bind_eq_ok h
  have hparts' : l.tidied.converted.mapM (l.tidied.convertItem schema) = .ok parts := by
    rw [converted_tidied]
    exact mapM_map_eq_ok (fun _ _ => convertItem_tidied) hparts
  have hgs' : groups (parts.filterMap Sum.getRight?) l.tidied.frames = .ok gs := groups_tidied hgs
  rw [hparts']
  show (groups (parts.filterMap Sum.getRight?) l.tidied.frames >>= _) = _
  rw [hgs']
  exact h

/-! ## Nothing is left that cannot be read -/

theorem isListable_entryOf_tidyNode (fs : Fields) :
    isListable (entryOf (tidyNode fs) "inputs") :=
  entryOf_amend isListable (fun _ => true) (fun _ => rfl) rfl fs rfl

theorem rawNodes_tidy (document : Fields) :
    rawNodes (tidy document) = (rawNodes document).map tidyNode := by
  rw [rawNodes, listed_tidy rfl List.map_nil, filterMap_fields?_onFields, rawNodes]

theorem get?_tidyNode {name : String} (h : name ∉ ["inputs", "widgets_values", "pos"])
    (fs : Fields) : Entries.get? (tidyNode fs) name = Entries.get? fs name :=
  get?_amend_of_not_mem h fs

theorem lastNode?_tidy (document : Fields) (i : Int) :
    lastNode? (tidy document) i = (lastNode? document i).map tidyNode := by
  have hid : ∀ fs, carriedId? (tidyNode fs) = carriedId? fs := by
    intro fs
    rw [carriedId?, carriedId?, get?_tidyNode (by decide)]
  have hfilter : (fun fs => decide (carriedId? fs = some i)) ∘ tidyNode =
      fun fs => decide (carriedId? fs = some i) := by
    funext fs
    exact congrArg (fun id => decide (id = some i)) (hid fs)
  rw [lastNode?, lastNode?, rawNodes_tidy, List.filter_map, hfilter, List.getLast?_map]

theorem exists_of_lastNode?_tidy {document fs : Fields} {i : Int}
    (h : lastNode? (tidy document) i = some fs) :
    ∃ raw, lastNode? document i = some raw ∧ fs = tidyNode raw := by
  rw [lastNode?_tidy] at h
  obtain ⟨raw, hraw, rfl⟩ := Option.map_eq_some_iff.1 h
  exact ⟨raw, hraw, rfl⟩

/-- **A tidied layout can be read.** -/
theorem isReadable_tidy (document : Fields) : IsReadable (tidy document) := by
  constructor
  case nodes =>
    intro i fs _ hfs _
    obtain ⟨raw, -, rfl⟩ := exists_of_lastNode?_tidy hfs
    refine ⟨isListable_entryOf_tidyNode raw, ?_, ?_⟩
    · intro slot _ _ link _ gs hgs
      obtain ⟨key, j, -, hj, -⟩ := hgs.standsAt
      obtain ⟨raw', -, rfl⟩ := exists_of_lastNode?_tidy hj
      exact isListable_entryOf_tidyNode raw'
    · exact ((succeedsIff_readPlace _).of_ok (readPlace_entryOf_tidyNode raw)).1
  case boxes =>
    intro fs hfs
    rw [listed_tidy rfl List.map_nil] at hfs
    obtain ⟨v, -, hv⟩ := List.mem_map.1 hfs
    cases v with
    | obj raw =>
      obtain rfl := Json.obj.inj hv
      exact ((succeedsIff_readBox _).of_ok (readBox_entryOf_tidyFrame raw)).1
    | _ => cases hv

/-! ## No other integers become texts -/

/-- Where a step cannot be made, the tidied layout has no way on. -/
theorem step_tidied_of_error {link : Int} {e : Fault} (h : l.step link = .error e) :
    l.tidied.step link = .ok (.ends none) := by
  have hwires : l.tidied.wires = l.wires := rfl
  have hitems : ∀ key, l.tidied.items.get? key = (l.items.get? key).map Item.tidied :=
    fun key => Dict.get?_map l.items (fun _ i => i.tidied) key
  rw [step] at h ⊢
  rw [hwires]
  cases hwire : l.wires.get? (idText link) with
  | none =>
    rw [hwire] at h
  | some wire =>
    rw [hwire] at h
    dsimp only at h ⊢
    rw [hitems]
    cases hitem : l.items.get? wire.source with
    | none =>
      rw [hitem] at h
      cases h
    | some item =>
      rw [hitem] at h
      have hreroute : item.tidied.isReroute = item.isReroute := rfl
      dsimp only [Option.map_some] at h ⊢
      rw [hreroute]
      split at h
      · rename_i hpasses
        have hslots : item.tidied.slots = .ok [] := by
          show settled item.slots [] = _
          cases hread : item.slots with
          | ok slots =>
            rw [hread] at h
            cases h
          | error e => rfl
        rw [if_pos hpasses, hslots]
        rfl
      · cases h

/-- A walk that leads to an output of the tidied layout leads there in the layout. -/
theorem walk_of_tidied {hops : Nat} {link : Int} {wire : Wire}
    (h : l.tidied.walk hops link = .ok (some wire)) : l.walk hops link = .ok (some wire) := by
  induction hops generalizing link with
  | zero => cases h
  | succ hops ih =>
    rw [walk] at h ⊢
    cases hstep : l.step link with
    | error e =>
      rw [step_tidied_of_error hstep] at h
      cases h
    | ok s =>
      rw [step_tidied hstep] at h
      cases s with
      | ends found => exact h
      | goes next => exact ih h

theorem LeadsShortly.tidy {document : Fields} (hl : ofFields document = .ok l) {link : Int}
    (h : LeadsShortly document link) : LeadsShortly (tidy document) link := by
  intro l' wire hl' hwire
  obtain rfl : l.tidied = l' := Except.ok.inj ((ofFields_tidy hl).symm.trans hl')
  rw [sourceOf_eq_walk] at hwire
  exact h l wire hl (by rw [sourceOf_eq_walk]; exact walk_of_tidied hwire)

theorem slotsOf_tidyNode (fs : Fields) : slotsOf (tidyNode fs) = slotsOf fs := by
  have hitems : ∀ v : Json, (((onItems (List.filter fun v => v.fields?.isSome) v).items?).getD
      []).filterMap Json.fields? = ((v.items?).getD []).filterMap Json.fields? := by
    intro v
    show ((((v.items?).getD []).filter fun v => v.fields?.isSome)).filterMap Json.fields? = _
    rw [List.filterMap_filter]
    congr 1
    funext w
    cases w <;> rfl
  have hslots : (((entryOf (tidyNode fs) "inputs").items?).getD []).filterMap Json.fields? =
      (((entryOf fs "inputs").items?).getD []).filterMap Json.fields? :=
    entryOf_amend (fun v : Json => ((v.items?).getD []).filterMap Json.fields?)
      (fun v => ((v.items?).getD []).filterMap Json.fields?) hitems rfl fs rfl
  rw [slotsOf, slotsOf, hslots]

theorem isShort_widgetsOf_tidyNode (fs : Fields) :
    (widgetsOf (tidyNode fs)).isShort = (widgetsOf fs).isShort := by
  have hwidgets : readWidgets (entryOf (tidyNode fs) "widgets_values") =
      (readWidgets (entryOf fs "widgets_values")).tidied :=
    entryOf_amend readWidgets (fun v => (readWidgets v).tidied) readWidgets_tidy rfl fs rfl
  show (readWidgets (entryOf (tidyNode fs) "widgets_values")).isShort = _
  rw [hwidgets]
  show _ = (readWidgets (entryOf fs "widgets_values")).isShort
  cases readWidgets (entryOf fs "widgets_values") <;> rfl

/-- **No other integers become texts** once a layout is tidied. -/
theorem IsShort.tidy {document : Fields} (hl : ofFields document = .ok l)
    (h : IsShort document) : IsShort (tidy document) := by
  have htype : ∀ fs, typeOf (tidyNode fs) = typeOf fs := by
    intro fs
    rw [typeOf, typeOf, get?_tidyNode (by decide)]
  constructor
  case nodes =>
    intro i fs hi hfs hordinary
    obtain ⟨raw, hraw, rfl⟩ := exists_of_lastNode?_tidy hfs
    rw [htype] at hordinary
    obtain ⟨hid, hwalks⟩ := h.nodes i raw hi hraw hordinary
    refine ⟨hid, ?_⟩
    rw [slotsOf_tidyNode]
    exact fun slot hslot hname link hlink => (hwalks slot hslot hname link hlink).tidy hl
  case notes =>
    intro i fs hi hfs hnote
    obtain ⟨raw, hraw, rfl⟩ := exists_of_lastNode?_tidy hfs
    rw [htype] at hnote
    rw [isShort_widgetsOf_tidyNode]
    exact h.notes i raw hi hraw hnote

end NodeFlow.Layout
