import NodeFlow.Proofs.Graph.Dependency
import NodeFlow.Proofs.Validation.Search
/-!
# The search for cycles

The loop runs on what nodes depend on, so it ends with all nodes in a
topological order or with a circle of dependencies. The position in that
order is a rank, and there is none where there is a circle. So a cycle is
found exactly where there is one (`cycle?_eq_none_iff_acyclic`), and what is
found is one: `FindsCycle` puts both together.
-/

namespace NodeFlow.Graph

variable {g : Graph} {ids order : List String}

/-! ## What the search runs on -/

theorem mem_dependencies_iff {a b : String} : b ∈ g.dependencies a ↔ g.DependsOn a b := by
  rw [dependencies, DependsOn]
  cases hn : g.node? a with
  | none => simp [linkAt?, hn]
  | some n =>
    simp only [List.mem_filter, List.mem_map, Prod.exists, linkAt?_of_node? hn]
    constructor
    · rintro ⟨⟨input, l, hl, rfl⟩, hb⟩
      exact ⟨hb, input, l, Node.mem_links_iff_link?.1 hl, rfl⟩
    · rintro ⟨hb, input, l, hl, rfl⟩
      exact ⟨⟨input, l, Node.mem_links_iff_link?.2 hl, rfl⟩, hb⟩

theorem dependencies_eq_dependsOn (g : Graph) : (fun a b => b ∈ g.dependencies a) = g.DependsOn :=
  funext fun _ => funext fun _ => propext mem_dependencies_iff

theorem closed_dependencies (g : Graph) : Search.Closed g.dependencies g.nodes.keys where
  nodup := g.nodes.nodup
  mem _ _ _ hnext := has_iff_mem_keys.1 (mem_dependencies_iff.1 hnext).1

/-- The search looks at the keys and the dependencies alone. -/
theorem cycle?_congr {h : Graph} (hkeys : h.nodes.keys = g.nodes.keys)
    (hdeps : ∀ id, h.dependencies id = g.dependencies id) : h.cycle? = g.cycle? := by
  rw [cycle?, cycle?, hkeys, funext hdeps]

/-! ## What the search finds -/

/-- The position among finished nodes is a rank, where every node is finished. -/
theorem rankedBy_of_settled (hs : Settled g.dependencies order)
    (hall : ∀ id, g.has id → id ∈ order) :
    g.RankedBy order.idxOf := by
  intro a b hab
  have hb : b ∈ g.dependencies a := mem_dependencies_iff.2 hab
  have ha : g.has a := by
    obtain ⟨-, input, l, hl, -⟩ := hab
    exact has_of_linkAt? hl
  obtain ⟨before, after, rfl, hnot⟩ := List.eq_append_cons_of_mem (hall a ha)
  have hmem : b ∈ before := hs before a after rfl b hb
  show List.idxOf b (before ++ a :: after) < List.idxOf a (before ++ a :: after)
  rw [List.idxOf_append_of_mem hmem, List.idxOf_append_of_notMem hnot, List.idxOf_cons_self]
  exact Nat.lt_of_lt_of_le (List.idxOf_lt_length_of_mem hmem) (Nat.le_add_right _ _)

/-- **Nothing is found and the workflow has a rank, or a circle is found.** -/
theorem cycle?_cases (g : Graph) :
    (g.cycle? = none ∧ ∃ rank, g.RankedBy rank) ∨
      ∃ ids, g.cycle? = some ids ∧ IsCircle g.DependsOn ids := by
  rw [cycle?, ← dependencies_eq_dependsOn]
  rcases Search.followAll_cases g.closed_dependencies with
    ⟨marks, order, hrun, hs, hall⟩ | ⟨circle, hrun, hcircle⟩
  · rw [hrun]
    exact Or.inl ⟨rfl, _, rankedBy_of_settled hs fun id hid => hall id (has_iff_mem_keys.1 hid)⟩
  · rw [hrun]
    exact Or.inr ⟨circle, rfl, hcircle⟩

/-- **No cycle is found exactly where the workflow has a rank.** -/
theorem cycle?_eq_none_iff_ranked : g.cycle? = none ↔ ∃ rank, g.RankedBy rank := by
  rcases g.cycle?_cases with ⟨hnone, hrank⟩ | ⟨ids, hsome, hcircle⟩
  · exact iff_of_true hnone hrank
  · -- a rank would fall along the circle and come back to where it was
    refine iff_of_false (by simp [hsome]) fun hrank => ?_
    obtain ⟨id, hid⟩ := hcircle.transGen
    exact acyclic_iff_ranked.2 hrank id hid

/-- **The search finds a cycle exactly where there is one.** -/
theorem cycle?_eq_none_iff_acyclic : g.cycle? = none ↔ g.Acyclic :=
  cycle?_eq_none_iff_ranked.trans acyclic_iff_ranked.symm

/-- What a search for cycles has to find. -/
structure FindsCycle (g : Graph) (found : Option (List String)) : Prop where
  /-- Nothing is found exactly where no node depends on itself, not even through others. -/
  none_iff : found = none ↔ g.Acyclic
  /-- What is found are nodes that depend on each other in turn. -/
  circle : ∀ ids, found = some ids → IsCircle g.DependsOn ids

/-- **The search for cycles is sound and complete**, on every workflow: nodes may be connected to
themselves, to nodes that are not there, and several times to the same node. -/
theorem cycle?_findsCycle (g : Graph) : g.FindsCycle g.cycle? where
  none_iff := cycle?_eq_none_iff_acyclic
  circle ids h := by
    rcases g.cycle?_cases with ⟨hnone, -⟩ | ⟨ids', hsome, hcircle⟩
    · rw [hnone] at h
      cases h
    · obtain rfl : ids' = ids := Option.some.inj (hsome.symm.trans h)
      exact hcircle

/-- Two nodes that feed each other are found, without the one that leads to them. -/
example :
    let reroute (id source : String) : String × Node :=
      (id, { id := id, classType := "Reroute"
             inputs := .ofList [("latent", .connection source 0)] })
    Graph.cycle? { nodes := .ofList [reroute "1" "2", reroute "2" "3", reroute "3" "2"] } =
      some ["2", "3", "2"] := by
  decide +kernel

end NodeFlow.Graph
