import NodeFlow.Proofs.Validation.Cycle
import NodeFlow.Validation.Verdict
/-!
# What the structure check accepts

`Sound` says without the check what the check looks for: there is a node,
every link starts at an output that exists as far as outputs are known, and
dependencies have a rank. `structureErrors_eq_nil_iff` says that a workflow
is accepted exactly where it is sound, so a pass that keeps soundness keeps
acceptance.
-/

namespace NodeFlow.Graph

variable {g : Graph} {schema : Schema} {id input : String} {l : Link} {n : Node}

/-- A link starts at a node of the workflow, and not beyond the outputs that are known of it. An
index from the end is let through. -/
def Admits (g : Graph) (schema : Schema) (l : Link) : Prop :=
  ∃ m, g.node? l.source = some m ∧
    (0 < (knownOutputs m schema).length → l.output < (knownOutputs m schema).length)

theorem Admits.has (h : g.Admits schema l) : g.has l.source := by
  obtain ⟨m, hm, -⟩ := h
  exact has_iff.2 ⟨m, hm⟩

theorem linkError?_eq_none_iff : g.linkError? schema n input l = none ↔ g.Admits schema l := by
  rw [linkError?, Admits]
  cases hm : g.node? l.source with
  | none => simp
  | some m => simp

/-- A workflow that can be submitted: it has a node, its links start at outputs that exist as far
as outputs are known, and some rank falls along its dependencies. -/
structure Sound (g : Graph) (schema : Schema) : Prop where
  nonempty : ∃ id, g.has id
  admits : ∀ id input l, g.linkAt? id input = some l → g.Admits schema l
  ranked : ∃ rank, g.RankedBy rank

theorem Sound.closed (h : g.Sound schema) : g.Closed :=
  fun id input l hl => (h.admits id input l hl).has

theorem Sound.acyclic (h : g.Sound schema) : g.Acyclic := by
  obtain ⟨rank, hr⟩ := h.ranked
  exact hr.acyclic

theorem linkErrors_eq_nil_iff :
    g.linkErrors schema = [] ↔
      ∀ id input l, g.linkAt? id input = some l → g.Admits schema l := by
  simp only [linkErrors, List.flatMap_eq_nil_iff, List.filterMap_eq_nil_iff]
  constructor
  · intro h id input l hl
    obtain ⟨n, hn, hnl⟩ := linkAt?_eq_some_iff.1 hl
    have hmem : n ∈ g.nodeList := mem_nodeList_iff.2 ⟨id, hn⟩
    exact linkError?_eq_none_iff.1 (h n hmem (input, l) (Node.mem_links_iff_link?.2 hnl))
  · rintro h n hn ⟨input, l⟩ hl
    obtain ⟨id, hid⟩ := mem_nodeList_iff.1 hn
    have hlink : g.linkAt? id input = some l := by
      rw [linkAt?_of_node? hid, ← Node.mem_links_iff_link?]
      exact hl
    exact linkError?_eq_none_iff.2 (h id input l hlink)

theorem nodes_isEmpty_iff : g.nodes.isEmpty = true ↔ ¬ ∃ id, g.has id := by
  simp only [has_iff_mem_keys, Dict.isEmpty, List.isEmpty_iff, Dict.keys, Entries.keys]
  cases g.nodes.entries with
  | nil => simp
  | cons e es => simp

/-- **The structure check accepts exactly the sound workflows.** -/
theorem structureErrors_eq_nil_iff : g.structureErrors schema = [] ↔ g.Sound schema := by
  rw [structureErrors]
  by_cases hempty : g.nodes.isEmpty
  · rw [if_pos hempty]
    constructor
    · intro h
      cases h
    · intro h
      exact absurd h.nonempty (nodes_isEmpty_iff.1 hempty)
  · rw [if_neg hempty, List.append_eq_nil_iff, linkErrors_eq_nil_iff]
    have hne : ∃ id, g.has id := by
      by_contra hno
      exact hempty (nodes_isEmpty_iff.2 hno)
    have hcycle : (g.cycle?.map StructureError.cycle).toList = [] ↔ ∃ rank, g.RankedBy rank := by
      rw [Option.toList_eq_nil_iff, Option.map_eq_none_iff, cycle?_eq_none_iff_ranked]
    rw [hcycle]
    constructor
    · rintro ⟨hadmits, hranked⟩
      exact ⟨hne, hadmits, hranked⟩
    · intro h
      exact ⟨h.admits, h.ranked⟩

end NodeFlow.Graph
