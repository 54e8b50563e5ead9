import NodeFlow.Proofs.Bypass.Rewiring
import NodeFlow.Proofs.Validation.Soundness
/-!
# Resolving bypassed nodes keeps a workflow sound

A walk through bypassed nodes follows links of the workflow, so the link it
ends at starts at an output that exists, and at a node that ranks below all
nodes of the walk. The rank of the workflow is therefore one of the result.
-/

namespace NodeFlow.Graph

variable {g : Graph} {schema : Schema} {limit : Int} {id input : String} {l l' : Link} {n : Node}
variable {rank : String → Nat}

theorem knownOutputs_resolveNode (n : Node) :
    knownOutputs (g.resolveNode limit n) schema = knownOutputs n schema := by
  rw [resolveNode]
  split <;> rfl

/-- What is known of the outputs of a node that is left stays known. -/
theorem Admits.resolveBypassed (h : g.Admits schema l) (hlive : g.isBypassedAt l.source = false) :
    (g.resolveBypassed limit).graph.Admits schema l := by
  obtain ⟨n, hn, houtput⟩ := h
  have hmode : n.isBypassed = false := by rw [← isBypassedAt_of_node? hn, hlive]
  refine ⟨g.resolveNode limit n, node?_resolveBypassed_eq_some_iff.2 ⟨n, hn, hmode, rfl⟩, ?_⟩
  rw [knownOutputs_resolveNode]
  exact houtput

/-- A link of the result starts at an output that exists in the workflow, at a node that is not
bypassed and ranks below the node that it feeds. -/
theorem linkAt?_resolveBypassed_descends (hk : g.WellKeyed)
    (hadmits : ∀ id input l, g.linkAt? id input = some l → g.Admits schema l)
    (hr : g.RankedBy rank) (h : (g.resolveBypassed limit).graph.linkAt? id input = some l') :
    g.Admits schema l' ∧ rank l'.source < rank id ∧ g.isBypassedAt l'.source = false := by
  have hlt : ∀ {id input l}, g.linkAt? id input = some l → rank l.source < rank id :=
    fun hl => hr.lt hl (hadmits _ _ _ hl).has
  rcases linkAt?_resolveBypassed_cases hk h with ⟨hl, hlive⟩ | ⟨l, hl, -, type, steps, hwalk⟩
  · exact ⟨hadmits id input l' hl, hlt hl, hlive⟩
  · -- along the walk each link is one of the workflow, and each source ranks below the last
    have hwalked := walk_induction (P := fun l => g.Admits schema l ∧ rank l.source < rank id) hwalk
      ⟨hadmits id input l hl, hlt hl⟩
      fun l next name hP _ hnext =>
        ⟨hadmits l.source name next hnext, Nat.lt_trans (hlt hnext) hP.2⟩
    obtain ⟨⟨hadmitted, hbelow⟩, -, hlive⟩ := hwalked
    exact ⟨hadmitted, hbelow, hlive⟩

/-- **Resolving bypassed nodes keeps a workflow sound**, unless it is bypassed altogether. -/
theorem Sound.resolveBypassed (hg : g.Sound schema) (hk : g.WellKeyed)
    (hlive : ∃ id n, g.node? id = some n ∧ n.mode ≠ bypassedMode) (limit : Int) :
    (g.resolveBypassed limit).graph.Sound schema := by
  obtain ⟨rank, hr⟩ := hg.ranked
  have hlinks : ∀ {id input l}, (g.resolveBypassed limit).graph.linkAt? id input = some l →
      g.Admits schema l ∧ rank l.source < rank id ∧ g.isBypassedAt l.source = false :=
    fun hl => linkAt?_resolveBypassed_descends hk hg.admits hr hl
  refine ⟨?_, ?_, rank, ?_⟩
  · obtain ⟨id, n, hn, hmode⟩ := hlive
    refine ⟨id, has_resolveBypassed_iff.2 ⟨has_iff.2 ⟨n, hn⟩, ?_⟩⟩
    rw [isBypassedAt_of_node? hn, Node.isBypassed, decide_eq_false hmode]
  · intro id input l hl
    obtain ⟨hadmits, -, hsource⟩ := hlinks hl
    exact hadmits.resolveBypassed hsource
  · rintro a b ⟨-, input, l, hl, rfl⟩
    exact (hlinks hl).2.1

end NodeFlow.Graph
