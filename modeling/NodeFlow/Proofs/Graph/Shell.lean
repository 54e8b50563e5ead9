import NodeFlow.Proofs.Graph.Input
/-!
# Workflows but for inputs

What a workflow is without the inputs of its nodes: the nodes under their keys
and in their order, groups, notes and the rest. Two workflows that agree in
this are equal as soon as their nodes have the same inputs (`eq_of_shell`).
Where the names of inputs agree as well, it is enough that the inputs hold the
same (`eq_of_outline`).
-/

namespace NodeFlow

/-- A node without its inputs. -/
def Node.shell (n : Node) : Node := { n with inputs := .empty }

namespace Graph

/-- A workflow without the inputs of its nodes. -/
def shell (g : Graph) : Graph := g.mapNodes Node.shell

variable {g g' : Graph} {n : Node} {key : String}

theorem has_of_shell (h : g'.shell = g.shell) (key : String) : g'.has key = g.has key := by
  have hkeys : g'.nodes.keys = g.nodes.keys := by
    rw [← Dict.keys_map g'.nodes fun _ n => n.shell, ← Dict.keys_map g.nodes fun _ n => n.shell]
    exact congrArg (fun g : Graph => g.nodes.keys) h
  rw [Bool.eq_iff_iff, has_iff_mem_keys, has_iff_mem_keys, hkeys]

/-- **Workflows are equal where their inputs are**, if all but inputs is. -/
theorem eq_of_shell (h : g'.shell = g.shell)
    (hinputs : ∀ key n n', g.node? key = some n → g'.node? key = some n' → n'.inputs = n.inputs) :
    g' = g := by
  have hnode : ∀ n n' : Node, n'.shell = n.shell → n'.inputs = n.inputs → n' = n := by
    intro n n' hshell hsame
    calc n' = { n'.shell with inputs := n'.inputs } := rfl
      _ = { n.shell with inputs := n.inputs } := by rw [hshell, hsame]
      _ = n := rfl
  have hmap : g'.nodes.entries.map (fun e => (e.1, e.2.shell)) =
      g.nodes.entries.map fun e => (e.1, e.2.shell) :=
    congrArg (fun g : Graph => g.nodes.entries) h
  have hnodes : g'.nodes = g.nodes := by
    refine Dict.ext (List.ext_getElem ?_ fun k hk' hk => ?_)
    · simpa using congrArg List.length hmap
    · have hat := congrArg (fun es => es[k]?) hmap
      simp only [List.getElem?_map, List.getElem?_eq_getElem hk', List.getElem?_eq_getElem hk,
        Option.map_some, Option.some.injEq, Prod.mk.injEq] at hat
      obtain ⟨hkey, hshell⟩ := hat
      have hn : g.node? g.nodes.entries[k].1 = some g.nodes.entries[k].2 :=
        Dict.get?_eq_some_iff.2 (List.getElem_mem hk)
      have hn' : g'.node? g.nodes.entries[k].1 = some g'.nodes.entries[k].2 := by
        rw [← hkey]
        exact Dict.get?_eq_some_iff.2 (List.getElem_mem hk')
      exact Prod.ext hkey (hnode _ _ hshell (hinputs _ _ _ hn hn'))
  calc g' = { g'.shell with nodes := g'.nodes } := rfl
    _ = { g.shell with nodes := g.nodes } := by rw [h, hnodes]
    _ = g := rfl

end Graph

/-! ## Workflows but for what inputs hold -/

/-- A node with the names of its inputs only. -/
def Node.outline (n : Node) : Node := { n with inputs := n.inputs.map fun _ _ => .literal .null }

theorem Node.keys_of_outline {n m : Node} (h : m.outline = n.outline) :
    m.inputs.keys = n.inputs.keys := by
  rw [← Dict.keys_map m.inputs fun _ _ => InputValue.literal .null,
    ← Dict.keys_map n.inputs fun _ _ => InputValue.literal .null]
  exact congrArg (fun n : Node => n.inputs.keys) h

namespace Graph

/-- A workflow with the names of all inputs, and nothing of what they hold. -/
def outline (g : Graph) : Graph := g.mapNodes Node.outline

variable {g g' : Graph}

theorem shell_outline (g : Graph) : g.outline.shell = g.shell := by
  rw [shell, shell, outline, mapNodes, mapNodes, mapNodes, Dict.map_map]
  rfl

theorem outline_mapNodes {f : Node → Node} (h : ∀ n, (f n).outline = n.outline) (g : Graph) :
    (g.mapNodes f).outline = g.outline := by
  rw [outline, outline, mapNodes, mapNodes, mapNodes, Dict.map_map]
  simp only [h]

theorem outline_modify {f : Node → Node} (h : ∀ n, (f n).outline = n.outline) (g : Graph)
    (id : String) : (g.modify id f).outline = g.outline := by
  rw [outline, outline, modify, mapNodes, mapNodes, Dict.modify, Dict.map_map]
  congr 2
  funext key n
  split
  · exact h n
  · rfl

/-- **Workflows with one outline are equal** where their inputs hold the same. -/
theorem eq_of_outline (h : g'.outline = g.outline)
    (hinputs : ∀ id input, g'.inputAt? id input = g.inputAt? id input) : g' = g := by
  refine eq_of_shell (by rw [← shell_outline g', h, shell_outline]) ?_
  intro id n n' hn hn'
  have houtline : n'.outline = n.outline := by
    have hmap : (g'.node? id).map Node.outline = (g.node? id).map Node.outline := by
      rw [← node?_mapNodes, ← node?_mapNodes]
      exact congrArg (fun g : Graph => g.node? id) h
    rw [hn, hn'] at hmap
    exact Option.some.inj hmap
  refine Dict.eq_of_get? (Node.keys_of_outline houtline) fun input => ?_
  rw [← inputAt?_of_node? hn, ← inputAt?_of_node? hn', hinputs]

end Graph

end NodeFlow
