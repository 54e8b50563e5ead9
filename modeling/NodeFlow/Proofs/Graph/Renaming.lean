import NodeFlow.Proofs.Graph.Relink
/-!
# Renaming nodes

New nodes are numbered, and the same work done in another order numbers them
differently. A renaming of ids acts on a node by its own id and the sources
of its connections; `renumbering` is the renaming that takes the ids of one
list to those of another, in order.
-/

namespace NodeFlow

/-- The renaming that takes the entries of one list to those of another, in order, and everything
else to itself. -/
def renumbering (ids ids' : List String) (id : String) : String := (ids'[ids.idxOf id]?).getD id

section Renumbering

variable {ids ids' : List String} {id id' : String} {i : Nat}

theorem renumbering_of_not_mem (hlen : ids.length = ids'.length) (h : id ∉ ids) :
    renumbering ids ids' id = id := by
  rw [renumbering, List.idxOf_eq_length h, hlen, List.getElem?_eq_none (Nat.le_refl _)]
  rfl

/-- Entries at the same position belong together. -/
theorem renumbering_of_getElem? (hids : ids.Nodup) (h : ids[i]? = some id)
    (h' : ids'[i]? = some id') : renumbering ids ids' id = id' := by
  obtain ⟨hlt, rfl⟩ := List.getElem?_eq_some_iff.1 h
  rw [renumbering, hids.idxOf_getElem i hlt, h']
  rfl

theorem renumbering_self (ids : List String) (id : String) : renumbering ids ids id = id := by
  by_cases hmem : id ∈ ids
  · rw [renumbering, List.getElem?_idxOf hmem]
    rfl
  · exact renumbering_of_not_mem rfl hmem

end Renumbering

namespace Node

variable {ρ : String → String} {n : Node}

/-- A node with its id and the sources of its connections renamed. -/
def rename (ρ : String → String) (n : Node) : Node :=
  { n.mapLinks (fun l => { l with source := ρ l.source }) with id := ρ n.id }

@[simp] theorem id_rename (ρ : String → String) (n : Node) : (n.rename ρ).id = ρ n.id := rfl

theorem rename_of_id (h : ρ n.id = n.id) :
    n.rename ρ = n.mapLinks fun l => { l with source := ρ l.source } := by
  rw [rename, h]
  rfl

/-- A node is not renamed where neither its id nor what feeds it is. -/
theorem rename_of_fixes (h : ρ n.id = n.id)
    (hlinks : ∀ input l, n.link? input = some l → ρ l.source = l.source) : n.rename ρ = n := by
  rw [rename_of_id h]
  refine mapLinks_of_fixes fun input l hl => ?_
  rw [hlinks input l hl]

theorem rename_id (n : Node) : (n.rename fun id => id) = n := rename_of_fixes rfl fun _ _ _ => rfl

theorem rename_setInput (ρ : String → String) (n : Node) (input source : String) (output : Int) :
    (n.setInput input (.connection source output)).rename ρ =
      (n.rename ρ).setInput input (.connection (ρ source) output) := by
  simp only [rename, setInput, mapLinks, Dict.map_insert]
  rfl

end Node

/-- Two workflows are the same but for the ids of nodes, the order of nodes included. -/
structure Graph.RenamedTo (ρ : String → String) (g h : Graph) : Prop where
  entries : h.nodes.entries = g.nodes.entries.map fun e => (ρ e.1, e.2.rename ρ)
  /-- Groups, notes and metadata are literally the same. -/
  rest : h = { g with nodes := h.nodes }

end NodeFlow
