import NodeFlow.Proofs.Layout.Route
/-!
# What fills the inputs of a node

The inputs of a node are filled by the values of its widgets, which are
literals, and then by its slots, each of which connects an input to the output
that its link leads to. The last slot that connects an input counts
(`get?_connectSlots`), and of what fills an input so, connections to nodes that
the workflow lacks are dropped (`exists_filled`).
-/

namespace NodeFlow.Layout

variable {document fs : Fields} {l : Layout} {schema : Schema} {g : Graph} {n : Node} {i : Item}
variable {key name input : String} {wire wire' : Wire} {s : Slot} {ss : List Slot}
variable {inputs filled : Dict InputValue} {link : Int}

/-! ## Connections -/

/-- The connection that a slot makes, if it has a name and a link that leads to an output. -/
def connection? (l : Layout) (s : Slot) : Except Fault (Option (String × Wire)) :=
  match s.name, s.link with
  | some name, some link => (l.sourceOf link).map fun found => found.map (name, ·)
  | _, _ => .ok none

/-- Inputs with a connection, if there is one to be made. -/
def connect (inputs : Dict InputValue) : Option (String × Wire) → Dict InputValue
  | some (name, wire) => inputs.insert name (.connection wire.source wire.output)
  | none => inputs

/-- Slots are connected one after the other; the ids in the connections must be short enough to be
written. -/
theorem connectSlots_cons (l : Layout) (s : Slot) (ss : List Slot) (inputs : Dict InputValue) :
    l.connectSlots (s :: ss) inputs =
      l.connection? s >>= fun c => withinLimit (c.all fun e => e.2.isShort) () >>= fun _ =>
        l.connectSlots ss (connect inputs c) := by
  cases hname : s.name with
  | none =>
    rw [connectSlots, connection?, hname]
    rfl
  | some name =>
    cases hlink : s.link with
    | none =>
      rw [connectSlots, connection?, hname, hlink]
      rfl
    | some link =>
      rw [connectSlots_linked hname hlink, connection?, hname, hlink, linkOf_eq]
      dsimp only
      cases l.sourceOf link with
      | error e => rfl
      | ok found =>
        cases found with
        | none => rfl
        | some wire =>
          show withinLimit wire.isShort (some wire.toLink) >>= _ =
            withinLimit wire.isShort () >>= _
          cases wire.isShort <;> rfl

/-- A slot makes a connection where its link leads to an output. -/
theorem connection?_eq_some_iff :
    l.connection? s = .ok (some (name, wire)) ↔
      s.name = some name ∧ ∃ link, s.link = some link ∧ l.sourceOf link = .ok (some wire) := by
  unfold connection?
  cases s.name with
  | none => simp
  | some n =>
    cases s.link with
    | none => simp
    | some link =>
      dsimp only
      cases hsource : l.sourceOf link <;> simp [Except.map, hsource, and_comm]

/-- Where the slots of a node are connected, each of them is. -/
theorem exists_connection? (hrun : l.connectSlots ss inputs = .ok filled) (hs : s ∈ ss) :
    ∃ c, l.connection? s = .ok c := by
  induction ss generalizing inputs with
  | nil => cases hs
  | cons t ss ih =>
    rw [connectSlots_cons] at hrun
    obtain ⟨c, hc, hrun⟩ := exists_of_bind_eq_ok hrun
    obtain ⟨_, -, hrun⟩ := exists_of_bind_eq_ok hrun
    rcases List.mem_cons.1 hs with rfl | hs
    · exact ⟨c, hc⟩
    · exact ih hrun hs

/-- A link leads to an output, directly or through reroutes. -/
def LeadsTo (document : Fields) (link : Int) (wire : Wire) : Prop :=
  ∃ rest, (link :: rest).length ≤ maxHops ∧ Route document (link :: rest) wire

/-- A slot connects an input to an output. -/
def Feeds (document : Fields) (s : Slot) (input : String) (wire : Wire) : Prop :=
  s.name = some input ∧ ∃ link, s.link = some link ∧ LeadsTo document link wire

/-- Of the slots that connect an input, the last one connects it to an output. -/
def LastFeeds (document : Fields) (ss : List Slot) (input : String) (wire : Wire) : Prop :=
  ∃ before s after, ss = before ++ s :: after ∧ Feeds document s input wire ∧
    ∀ s' ∈ after, ∀ wire', ¬ Feeds document s' input wire'

theorem leadsTo_iff (h : ofFields document = .ok l) :
    LeadsTo document link wire ↔ l.sourceOf link = .ok (some wire) :=
  ((followsRoutes_of_ofFields h link).found wire).symm

theorem feeds_iff (h : ofFields document = .ok l) :
    Feeds document s input wire ↔ l.connection? s = .ok (some (input, wire)) := by
  rw [connection?_eq_some_iff, Feeds]
  simp only [leadsTo_iff h]

theorem Feeds.unique (h : ofFields document = .ok l)
    (hfeeds : Feeds document s input wire) (hfeeds' : Feeds document s input wire') :
    wire = wire' := by
  have heq := ((feeds_iff h).1 hfeeds).symm.trans ((feeds_iff h).1 hfeeds')
  cases heq
  rfl

theorem lastFeeds_cons_iff :
    LastFeeds document (s :: ss) input wire ↔ LastFeeds document ss input wire ∨
      (∀ t ∈ ss, ∀ wire', ¬ Feeds document t input wire') ∧ Feeds document s input wire := by
  constructor
  · rintro ⟨before, t, after, heq, hfeeds, hnone⟩
    cases before with
    | nil =>
      obtain ⟨rfl, rfl⟩ := List.cons.inj heq
      exact Or.inr ⟨hnone, hfeeds⟩
    | cons u before =>
      obtain ⟨rfl, rfl⟩ := List.cons.inj heq
      exact Or.inl ⟨before, t, after, rfl, hfeeds, hnone⟩
  · rintro (⟨before, t, after, rfl, hrest⟩ | ⟨hnone, hfeeds⟩)
    · exact ⟨s :: before, t, after, rfl, hrest⟩
    · exact ⟨[], s, ss, rfl, hfeeds, hnone⟩

theorem LastFeeds.exists_mem (h : LastFeeds document ss input wire) :
    ∃ s ∈ ss, Feeds document s input wire := by
  obtain ⟨before, s, after, rfl, hfeeds, -⟩ := h
  exact ⟨s, by simp, hfeeds⟩

/-- There is one last slot. -/
theorem LastFeeds.unique (hl : ofFields document = .ok l) (h : LastFeeds document ss input wire)
    (h' : LastFeeds document ss input wire') : wire = wire' := by
  induction ss with
  | nil =>
    obtain ⟨s, hs, -⟩ := h.exists_mem
    cases hs
  | cons s ss ih =>
    rcases lastFeeds_cons_iff.1 h with h | ⟨hnone, hfeeds⟩ <;>
      rcases lastFeeds_cons_iff.1 h' with h' | ⟨hnone', hfeeds'⟩
    · exact ih h h'
    · obtain ⟨t, ht, hfeeds⟩ := h.exists_mem
      exact absurd hfeeds (hnone' t ht wire)
    · obtain ⟨t, ht, hfeeds'⟩ := h'.exists_mem
      exact absurd hfeeds' (hnone t ht wire')
    · exact hfeeds.unique hl hfeeds'

/-! ## Inputs that are connected -/

/-- The connection to an output. -/
def Wire.value (wire : Wire) : InputValue := .connection wire.source wire.output

/-- **The last connection counts**, and where none is made, an input is left as it is. -/
theorem get?_connectSlots (hl : ofFields document = .ok l)
    (hrun : l.connectSlots ss inputs = .ok filled) (input : String) :
    (∃ wire, LastFeeds document ss input wire ∧ filled.get? input = some wire.value) ∨
      (∀ s ∈ ss, ∀ wire, ¬ Feeds document s input wire) ∧
        filled.get? input = inputs.get? input := by
  induction ss generalizing inputs with
  | nil =>
    cases hrun
    exact Or.inr ⟨by simp, rfl⟩
  | cons s ss ih =>
    rw [connectSlots_cons] at hrun
    obtain ⟨c, hc, hrun⟩ := exists_of_bind_eq_ok hrun
    obtain ⟨_, -, hrun⟩ := exists_of_bind_eq_ok hrun
    rcases ih hrun with ⟨wire, hlast, hget⟩ | ⟨hnone, hget⟩
    · exact Or.inl ⟨wire, lastFeeds_cons_iff.2 (Or.inl hlast), hget⟩
    · by_cases hhere : ∃ wire, c = some (input, wire)
      · obtain ⟨wire, rfl⟩ := hhere
        have hfeeds := (feeds_iff hl).2 hc
        refine Or.inl ⟨wire, lastFeeds_cons_iff.2 (Or.inr ⟨hnone, hfeeds⟩), ?_⟩
        rw [hget, connect, Dict.get?_insert, if_pos rfl, Wire.value]
      · have hs : ∀ wire, ¬ Feeds document s input wire := by
          intro wire hfeeds
          have heq := hc.symm.trans ((feeds_iff hl).1 hfeeds)
          exact hhere ⟨wire, Except.ok.inj heq⟩
        refine Or.inr ⟨List.forall_mem_cons.2 ⟨hs, hnone⟩, ?_⟩
        rw [hget]
        cases c with
        | none => rfl
        | some e =>
          obtain ⟨name, wire⟩ := e
          have hne : name ≠ input := fun he => hhere ⟨wire, he ▸ rfl⟩
          rw [connect, Dict.get?_insert, if_neg hne]

/-! ## Literals -/

/-- All inputs hold literals. -/
def OnlyLiterals (inputs : Dict InputValue) : Prop :=
  ∀ input v, inputs.get? input = some v → ∃ w, v = .literal w

theorem OnlyLiterals.writeValue (h : OnlyLiterals inputs) (name : String) (v : Json) :
    OnlyLiterals (writeValue inputs name v) := by
  unfold Layout.writeValue
  split
  · exact h
  · intro input u hu
    rw [Dict.get?_insert] at hu
    split at hu
    · exact ⟨v, (Option.some.inj hu).symm⟩
    · exact h input u hu

/-- The literals of a node of a document, by the values of its widgets. -/
def literalsAt (schema : Schema) (fs : Fields) : Dict InputValue :=
  match schema.get? (typeOf fs) with
  | some t => widgetInputs t (widgetsOf fs)
  | none => .empty

theorem literalsOf_readItem (schema : Schema) (id : Int) (fs : Fields) :
    literalsOf schema (readItem id fs) = literalsAt schema fs := by
  unfold literalsOf literalsAt
  rw [typeOf_eq]
  rfl

/-- **What widgets set are literals.** -/
theorem onlyLiterals_literalsAt (schema : Schema) (fs : Fields) :
    OnlyLiterals (literalsAt schema fs) := by
  have hempty : OnlyLiterals .empty := fun input v hv => by simp at hv
  unfold literalsAt
  split
  · exact widgetInputs_induction _ _ (fun _ name v _ h => h.writeValue name v) hempty
  · exact hempty

/-! ## Nodes -/

/-- Whether an input stays in a workflow: connections do where their sources are nodes of it. -/
def survives (g : Graph) : InputValue → Bool
  | .connection source _ => g.has source
  | _ => true

/-- **The inputs of a node of the workflow** are filled by widgets and slots, as far as they
survive. -/
theorem exists_filled (hl : ofFields document = .ok l) (hg : l.toGraph schema = .ok g)
    (hn : g.node? key = some n) :
    ∃ fs filled, StandsAt document key fs ∧ readSlots (entryOf fs "inputs") = .ok (slotsOf fs) ∧
      l.connectSlots (slotsOf fs) (literalsAt schema fs) = .ok filled ∧
      n.inputs = filled.filter fun _ v => survives g v := by
  obtain ⟨placed, hplaced, -, hentries, -, -⟩ := exists_placed (keyed_of_ofFields hl) hg
  obtain ⟨i, hi, p, hconvert, hkey, rfl⟩ := exists_item_of_node? hplaced hentries hn
  obtain ⟨hi', fs, hfs, hread⟩ := exists_lastNode?_of_mem hl (List.mem_filter.1 hi).1
  obtain ⟨-, ss, hss, hrun, -, -⟩ := convert_eq_ok_iff.1 hconvert
  rw [hread] at hss hrun
  rw [literalsOf_readItem] at hrun
  obtain rfl := slots_eq_slotsOf hss
  refine ⟨fs, p.node.inputs, ⟨i.id, hi', hfs, hkey.symm⟩, hss, hrun, ?_⟩
  have hkeys : g.nodes.keys = placed.map fun p => p.node.id := by
    unfold Dict.keys Entries.keys
    rw [hentries, List.map_map]
    rfl
  have hhas : ∀ source, (placed.map fun p => p.node.id).contains source = g.has source := by
    intro source
    rw [Bool.eq_iff_iff, List.contains_iff_mem, Graph.has_iff_mem_keys, hkeys]
  unfold dropDangling
  dsimp only
  congr 1
  funext _ v
  cases v with
  | connection source output => exact hhas source
  | _ => rfl

/-- **What an input of the workflow holds**: the last connection that is made, if it is to a node of
the workflow, or the literal where none is made. -/
theorem inputAt?_cases (hl : ofFields document = .ok l) (hg : l.toGraph schema = .ok g)
    (hhas : g.has key) (hfs : StandsAt document key fs) (input : String) :
    (∃ wire, LastFeeds document (slotsOf fs) input wire ∧
      g.inputAt? key input = if g.has wire.source then some wire.value else none) ∨
    (∀ s ∈ slotsOf fs, ∀ wire, ¬ Feeds document s input wire) ∧
      g.inputAt? key input = (literalsAt schema fs).get? input := by
  obtain ⟨n, hn⟩ := Graph.has_iff.1 hhas
  obtain ⟨fs', filled, hfs', -, hrun, hinputs⟩ := exists_filled hl hg hn
  obtain rfl := hfs.unique hfs'
  rw [Graph.inputAt?_of_node? hn, hinputs, Dict.get?_filter]
  rcases get?_connectSlots hl hrun input with ⟨wire, hlast, hget⟩ | ⟨hnone, hget⟩
  · refine Or.inl ⟨wire, hlast, ?_⟩
    rw [hget, Option.filter_some]
    rfl
  · refine Or.inr ⟨hnone, ?_⟩
    rw [hget]
    cases hv : (literalsAt schema fs).get? input with
    | none => rfl
    | some v =>
      obtain ⟨w, rfl⟩ := onlyLiterals_literalsAt schema fs input v hv
      rfl

theorem inputAt?_of_lastFeeds (hl : ofFields document = .ok l) (hg : l.toGraph schema = .ok g)
    (hhas : g.has key) (hfs : StandsAt document key fs)
    (hlast : LastFeeds document (slotsOf fs) input wire) :
    g.inputAt? key input = if g.has wire.source then some wire.value else none := by
  rcases inputAt?_cases hl hg hhas hfs input with ⟨wire', hlast', hget⟩ | ⟨hnone, -⟩
  · obtain rfl := hlast.unique hl hlast'
    exact hget
  · obtain ⟨s, hs, hfeeds⟩ := hlast.exists_mem
    exact absurd hfeeds (hnone s hs wire)

theorem inputAt?_of_not_feeds (hl : ofFields document = .ok l) (hg : l.toGraph schema = .ok g)
    (hhas : g.has key) (hfs : StandsAt document key fs)
    (hnone : ∀ s ∈ slotsOf fs, ∀ wire, ¬ Feeds document s input wire) :
    g.inputAt? key input = (literalsAt schema fs).get? input := by
  rcases inputAt?_cases hl hg hhas hfs input with ⟨wire, hlast, -⟩ | ⟨-, hget⟩
  · obtain ⟨s, hs, hfeeds⟩ := hlast.exists_mem
    exact absurd hfeeds (hnone s hs wire)
  · exact hget

end NodeFlow.Layout
