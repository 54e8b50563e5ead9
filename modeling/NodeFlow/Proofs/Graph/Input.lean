import NodeFlow.Proofs.Graph.Dependency
/-!
# What inputs hold

The inputs of a workflow as a partial function: `inputAt?` gives what an
input of the node under a key holds, be it a literal, a connection or an
open slot. `linkAt?` is its view of connections. A pass that rewrites inputs
is described by one equation for `inputAt?`.
-/

namespace NodeFlow.Graph

variable {g : Graph} {id input : String} {v : InputValue} {n : Node}

/-- What an input of the node under a key holds. -/
def inputAt? (g : Graph) (id input : String) : Option InputValue :=
  (g.node? id).bind fun n => n.inputs.get? input

theorem inputAt?_eq_some_iff :
    g.inputAt? id input = some v ↔ ∃ n, g.node? id = some n ∧ n.inputs.get? input = some v :=
  Option.bind_eq_some_iff

theorem inputAt?_of_node? (hn : g.node? id = some n) :
    g.inputAt? id input = n.inputs.get? input := by
  rw [inputAt?, hn, Option.bind_some]

theorem inputAt?_of_not_has (h : ¬ g.has id) (input : String) : g.inputAt? id input = none := by
  rw [has_iff, not_exists] at h
  rw [inputAt?, Option.eq_none_iff_forall_ne_some.2 h, Option.bind_none]

/-- Links are connections that inputs hold. -/
theorem linkAt?_eq_some_iff_inputAt? {l : Link} :
    g.linkAt? id input = some l ↔ g.inputAt? id input = some l.toInput := by
  rw [linkAt?_eq_some_iff, inputAt?_eq_some_iff]
  simp only [Node.link?_eq_some_iff]

/-- An input that is there holds something. -/
theorem exists_inputAt? (hn : g.node? id = some n) (h : n.hasInput input) :
    ∃ v, g.inputAt? id input = some v := by
  rw [inputAt?_of_node? hn]
  exact Option.isSome_iff_exists.1 h

end NodeFlow.Graph
