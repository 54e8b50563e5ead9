import Mathlib.Data.Finset.Card
import Mathlib.Logic.Relation
import NodeFlow.Graph
/-!
# Connections and dependencies

The connections of a workflow as a partial function: `linkAt?` gives the
link of an input of the node under a key. Everything said about the shape
of a workflow is said through it: `Closed` (every connection starts at a
node), `DependsOn` and `Acyclic`. A rank that falls along every dependency
rules cycles out, and it is easy to carry through a change of the workflow,
since a path of dependencies need not be followed.
-/

namespace NodeFlow

/-! ## The links of a node -/

namespace Node

/-- **The list of links and the link of an input agree.** -/
theorem mem_links_iff {n : Node} {input : String} {l : Link} :
    (input, l) ∈ n.links ↔ n.inputs.get? input = some l.toInput := by
  rw [Dict.get?_eq_some_iff, links, List.mem_filterMap]
  constructor
  · rintro ⟨⟨name, v⟩, hm, h⟩
    cases v with
    | connection source output =>
      simp only [Option.some.injEq, Prod.mk.injEq] at h
      obtain ⟨rfl, rfl⟩ := h
      exact hm
    | literal value => simp at h
    | slot type => simp at h
  · intro hm
    exact ⟨_, hm, rfl⟩

theorem link?_eq_some_iff {n : Node} {input : String} {l : Link} :
    n.link? input = some l ↔ n.inputs.get? input = some l.toInput := by
  rw [link?]
  obtain ⟨source, output⟩ := l
  cases h : n.inputs.get? input with
  | none => simp
  | some v => cases v <;> simp [InputValue.connection?, Link.toInput]

theorem mem_links_iff_link? {n : Node} {input : String} {l : Link} :
    (input, l) ∈ n.links ↔ n.link? input = some l := by
  rw [mem_links_iff, link?_eq_some_iff]

end Node

namespace Graph

variable {g h : Graph} {id input : String} {l : Link} {n : Node}

/-! ## Nodes under their ids -/

theorem WellKeyed.id_eq (hk : g.WellKeyed) (hn : g.node? id = some n) : n.id = id :=
  hk _ (Dict.get?_eq_some_iff.1 hn)

theorem wellKeyed_iff : g.WellKeyed ↔ ∀ id n, g.node? id = some n → n.id = id := by
  constructor
  · intro hk id n hn
    exact hk.id_eq hn
  · intro hall e he
    exact hall e.1 e.2 (Dict.get?_eq_some_iff.2 he)

theorem has_iff : g.has id ↔ ∃ n, g.node? id = some n := by
  rw [has, Dict.contains_iff, Dict.mem_keys_iff]
  rfl

theorem has_iff_mem_keys : g.has id ↔ id ∈ g.nodes.keys := Dict.contains_iff _ _

theorem mem_nodeList_iff : n ∈ g.nodeList ↔ ∃ id, g.node? id = some n :=
  Dict.mem_values_iff

/-- The nodes of a workflow are found under their ids. -/
theorem WellKeyed.node?_id (hk : g.WellKeyed) (hn : n ∈ g.nodeList) : g.node? n.id = some n := by
  obtain ⟨id, hid⟩ := mem_nodeList_iff.1 hn
  rw [hk.id_eq hid, hid]

theorem map_id_nodeList (hk : g.WellKeyed) : g.nodeList.map Node.id = g.nodes.keys := by
  rw [nodeList, Dict.values, List.map_map, Dict.keys, Entries.keys]
  exact List.map_congr_left hk

theorem node?_put (g : Graph) (n : Node) (id : String) :
    (g.put n).node? id = if n.id = id then some n else g.node? id :=
  Dict.get?_insert _ _ _ _

theorem node?_modify (g : Graph) (key : String) (f : Node → Node) (id : String) :
    (g.modify key f).node? id = if id = key then (g.node? id).map f else g.node? id :=
  Dict.get?_modify _ _ _ _

theorem node?_mapNodes (g : Graph) (f : Node → Node) (id : String) :
    (g.mapNodes f).node? id = (g.node? id).map f :=
  Dict.get?_map _ _ _

theorem WellKeyed.put (hk : g.WellKeyed) (n : Node) : (g.put n).WellKeyed := by
  refine wellKeyed_iff.2 fun id m hm => ?_
  rw [node?_put] at hm
  split at hm
  · rename_i he
    obtain rfl := Option.some.inj hm
    exact he
  · exact hk.id_eq hm

/-- A node may be changed under its key, as long as it keeps its id. -/
theorem WellKeyed.modify {f : Node → Node} (hk : g.WellKeyed) (hid : ∀ n, (f n).id = n.id)
    (key : String) : (g.modify key f).WellKeyed := by
  refine wellKeyed_iff.2 fun id m hm => ?_
  rw [node?_modify] at hm
  split at hm
  · obtain ⟨n, hn, rfl⟩ := Option.map_eq_some_iff.1 hm
    rw [hid, hk.id_eq hn]
  · exact hk.id_eq hm

theorem WellKeyed.mapNodes {f : Node → Node} (hk : g.WellKeyed) (hid : ∀ n, (f n).id = n.id) :
    (g.mapNodes f).WellKeyed := by
  refine wellKeyed_iff.2 fun id m hm => ?_
  rw [node?_mapNodes] at hm
  obtain ⟨n, hn, rfl⟩ := Option.map_eq_some_iff.1 hm
  rw [hid, hk.id_eq hn]

/-! ## The links of a workflow -/

/-- The link of an input of the node under a key. -/
def linkAt? (g : Graph) (id input : String) : Option Link :=
  (g.node? id).bind fun n => n.link? input

theorem linkAt?_eq_some_iff :
    g.linkAt? id input = some l ↔ ∃ n, g.node? id = some n ∧ n.link? input = some l :=
  Option.bind_eq_some_iff

theorem linkAt?_of_node? (hn : g.node? id = some n) : g.linkAt? id input = n.link? input := by
  rw [linkAt?, hn, Option.bind_some]

/-- A link ends at a node of the workflow. -/
theorem has_of_linkAt? (hl : g.linkAt? id input = some l) : g.has id := by
  obtain ⟨n, hn, -⟩ := linkAt?_eq_some_iff.1 hl
  exact has_iff.2 ⟨n, hn⟩

/-- **The edges and the links of inputs agree.** -/
theorem mem_edges_iff (hk : g.WellKeyed) {e : Edge} :
    e ∈ g.edges ↔ g.linkAt? e.target e.input = some ⟨e.source, e.output⟩ := by
  simp only [edges, List.mem_flatMap, List.mem_map, Prod.exists]
  constructor
  · rintro ⟨n, hn, input, l, hl, rfl⟩
    show g.linkAt? n.id input = some l
    rw [linkAt?_of_node? (hk.node?_id hn)]
    exact Node.mem_links_iff_link?.1 hl
  · intro hl
    obtain ⟨n, hn, hlink⟩ := linkAt?_eq_some_iff.1 hl
    refine ⟨n, mem_nodeList_iff.2 ⟨_, hn⟩, e.input, _, Node.mem_links_iff_link?.2 hlink, ?_⟩
    rw [hk.id_eq hn]

/-- Every connection starts at a node of the workflow. -/
def Closed (g : Graph) : Prop := ∀ id input l, g.linkAt? id input = some l → g.has l.source

/-! ## Dependencies -/

/-- A node depends on the nodes that its inputs are connected to. -/
def DependsOn (g : Graph) (a b : String) : Prop :=
  g.has b ∧ ∃ input l, g.linkAt? a input = some l ∧ l.source = b

/-- No node depends on itself, not even through others. -/
def Acyclic (g : Graph) : Prop := ∀ a, ¬ Relation.TransGen g.DependsOn a a

/-- A rank that falls along every dependency. -/
def RankedBy (g : Graph) (rank : String → Nat) : Prop := ∀ a b, g.DependsOn a b → rank b < rank a

variable {rank : String → Nat}

theorem RankedBy.lt_of_transGen (hr : g.RankedBy rank) {a b : String}
    (h : Relation.TransGen g.DependsOn a b) : rank b < rank a := by
  induction h with
  | single hab => exact hr _ _ hab
  | tail _ hbc ih => exact Nat.lt_trans (hr _ _ hbc) ih

/-- **A ranked workflow has no cycle.** -/
theorem RankedBy.acyclic (hr : g.RankedBy rank) : g.Acyclic :=
  fun _ h => Nat.lt_irrefl _ (hr.lt_of_transGen h)

/-- **A workflow without a cycle is ranked**, by the number of nodes that a node depends on. -/
theorem Acyclic.ranked (h : g.Acyclic) : ∃ rank, g.RankedBy rank := by
  classical
  refine ⟨fun a => {x ∈ g.nodes.keys.toFinset | Relation.TransGen g.DependsOn a x}.card, ?_⟩
  intro a b hab
  -- a node depends on what its dependency depends on, and on the dependency besides
  refine Finset.card_lt_card ((Finset.ssubset_iff_of_subset ?_).2 ⟨b, ?_, ?_⟩)
  · intro x hx
    obtain ⟨hkey, hbx⟩ := Finset.mem_filter.1 hx
    exact Finset.mem_filter.2 ⟨hkey, Relation.TransGen.head hab hbx⟩
  · exact Finset.mem_filter.2
      ⟨List.mem_toFinset.2 (has_iff_mem_keys.1 hab.1), Relation.TransGen.single hab⟩
  · intro hb
    exact h b (Finset.mem_filter.1 hb).2

theorem acyclic_iff_ranked : g.Acyclic ↔ ∃ rank, g.RankedBy rank :=
  ⟨Acyclic.ranked, fun ⟨_, hr⟩ => hr.acyclic⟩

theorem RankedBy.lt (hr : g.RankedBy rank) (hl : g.linkAt? id input = some l)
    (hs : g.has l.source) : rank l.source < rank id :=
  hr _ _ ⟨hs, input, l, hl, rfl⟩

/-- Ranks may be spread out, to make room between them. -/
theorem RankedBy.scale (hr : g.RankedBy rank) (k : Nat) :
    g.RankedBy fun id => (k + 1) * rank id :=
  fun a b h => Nat.mul_lt_mul_of_pos_left (hr a b h) (Nat.succ_pos k)

end Graph

end NodeFlow
