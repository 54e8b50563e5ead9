import NodeFlow.Proofs.Bypass.Closure
import NodeFlow.Proofs.Bypass.Hops
import NodeFlow.Proofs.Graph.Input
/-!
# The full account of resolving bypassed nodes

`Accounts` says of a result all there is to say: which nodes are left and
what of them is, what every input of theirs holds, what is warned about, and
that the rest is the workflow's. An input that a bypassed node fed holds the
link that hops within the limit lead to, or is gone, and each one that is
gone has its own warning, in the order in which the inputs stood
(`goneInputs`). The graph on its own decides what is gone, so the warnings
are checked against it and not against the walks.
-/

namespace NodeFlow

open Bypass

namespace Graph

variable {g h : Graph} {limit : Int} {id input : String} {l : Link} {n : Node}

/-- The connected inputs, in the order of their nodes, that are no longer there in another workflow
which still has the node. -/
def goneInputs (g h : Graph) : List (Node × String × Link) :=
  g.nodeList.flatMap fun n =>
    (n.links.filter fun l => h.has n.id && (h.inputAt? n.id l.1).isNone).map fun l => (n, l)

/-- What a result of resolving the bypassed nodes of a workflow within a limit of hops is. -/
structure Accounts (g : Graph) (limit : Int) (r : Result) : Prop where
  /-- The keys are those of the nodes that were not bypassed, in their order. -/
  keys : r.graph.nodes.keys = g.nodes.keys.filter fun id => !g.isBypassedAt id
  /-- What was removed are the bypassed nodes. -/
  removed : r.removed = g.nodes.keys.filter g.isBypassedAt
  /-- Of a node that is left only inputs may have changed, and they stand in their order. -/
  nodes : ∀ id n, g.node? id = some n → n.isBypassed = false →
    ∃ m, r.graph.node? id = some m ∧ m = { n with inputs := m.inputs } ∧
      m.inputs.keys.Sublist n.inputs.keys
  /-- An input that a bypassed node fed holds the link that hops lead to, if there is one. -/
  fed : ∀ id input l, g.isBypassedAt id = false → g.linkAt? id input = some l →
    g.isBypassedAt l.source = true → ∀ v, r.graph.inputAt? id input = some v ↔
      ∃ l', v = l'.toInput ∧ g.RewiresTo limit input l l'
  /-- Every other input of a node that is left is there if it was, and holds what it held. -/
  unfed : ∀ id input, g.isBypassedAt id = false →
    (∀ l, g.linkAt? id input = some l → g.isBypassedAt l.source = false) →
      r.graph.inputAt? id input = g.inputAt? id input
  /-- There is one warning for each input that is gone, in their order. -/
  warned : r.warnings.map some =
    (g.goneInputs r.graph).map fun e => warning? e.1 e.2.1 e.2.2 (lostAs e.2.1)
  /-- The groups are left without the nodes that were removed, and one without members is gone. -/
  groups : r.graph.groups =
    (g.groups.map fun gr => { gr with members := gr.members.filter fun m => m ∉ r.removed }).filter
      fun gr => gr.members ≠ []
  /-- The rest of the workflow stays. -/
  rest : r.graph.notes = g.notes ∧ r.graph.metadata = g.metadata ∧ r.graph.wrapped = g.wrapped

/-! ## Inputs of the result -/

theorem inputAt?_resolveBypassed (hk : g.WellKeyed) (hlive : g.isBypassedAt id = false) :
    (g.resolveBypassed limit).graph.inputAt? id input =
      (g.inputAt? id input).bind (g.resolveInput limit input) := by
  rw [inputAt?, inputAt?, node?_resolveBypassed_of_live hlive]
  cases hn : g.node? id with
  | none => rfl
  | some n =>
    have hid : g.isBypassedAt n.id = false := by rw [hk.id_eq hn, hlive]
    rw [Option.map_some, Option.bind_some, Option.bind_some, resolveNode, hid,
      if_neg Bool.false_ne_true, Dict.get?_filterMap]

theorem resolveInput_of_fed (hby : g.isBypassedAt l.source = true) :
    g.resolveInput limit input l.toInput = (g.resolution limit input l).link?.map Link.toInput := by
  rw [Link.toInput, resolveInput, if_pos hby]

/-- An input that a bypassed node fed and that is resolved to a link holds it. -/
theorem inputAt?_of_fed (hk : g.WellKeyed) (hlive : g.isBypassedAt id = false)
    (hl : g.linkAt? id input = some l) (hby : g.isBypassedAt l.source = true) :
    (g.resolveBypassed limit).graph.inputAt? id input =
      (g.resolution limit input l).link?.map Link.toInput := by
  rw [inputAt?_resolveBypassed hk hlive, linkAt?_eq_some_iff_inputAt?.1 hl, Option.bind_some,
    resolveInput_of_fed hby]

theorem inputAt?_of_unfed (hk : g.WellKeyed) (hlive : g.isBypassedAt id = false)
    (h : ∀ l, g.linkAt? id input = some l → g.isBypassedAt l.source = false) :
    (g.resolveBypassed limit).graph.inputAt? id input = g.inputAt? id input := by
  rw [inputAt?_resolveBypassed hk hlive]
  cases hv : g.inputAt? id input with
  | none => rfl
  | some v =>
    obtain ⟨n, hn, hget⟩ := inputAt?_eq_some_iff.1 hv
    rw [Option.bind_some]
    refine resolveInput_of_unfed fun l hvl => h l ?_
    rw [linkAt?_of_node? hn, Node.link?_eq_some_iff, hget, hvl]

/-! ## Warnings of the result -/

theorem isSome_warning?_lostAs (n : Node) (input : String) (l : Link) :
    (warning? n input l (lostAs input)).isSome := by
  rw [lostAs]
  cases typeOfName? input <;> rfl

/-- What is gone of the inputs of a node is what a bypassed node fed and was resolved to nothing. -/
theorem isNone_inputAt?_resolveBypassed (hk : g.WellKeyed) (hlive : g.isBypassedAt id = false)
    (hl : g.linkAt? id input = some l) :
    ((g.resolveBypassed limit).graph.inputAt? id input).isNone =
      (g.isBypassedAt l.source && (g.resolution limit input l).link?.isNone) := by
  cases hby : g.isBypassedAt l.source with
  | true => rw [inputAt?_of_fed hk hlive hl hby, Option.isNone_map, Bool.true_and]
  | false =>
    have hunfed : ∀ l', g.linkAt? id input = some l' → g.isBypassedAt l'.source = false := by
      intro l' hl'
      obtain rfl : l = l' := Option.some.inj (hl.symm.trans hl')
      exact hby
    rw [inputAt?_of_unfed hk hlive hunfed, linkAt?_eq_some_iff_inputAt?.1 hl, Bool.false_and]
    rfl

/-- An input that a bypassed node fed is warned about where it is gone. -/
theorem isSome_warning?_eq_gone (hk : g.WellKeyed) (hlive : g.isBypassedAt id = false)
    (hl : g.linkAt? id input = some l) (n : Node) :
    ((warning? n input l (g.resolution limit input l)).isSome && g.isBypassedAt l.source) =
      ((g.resolveBypassed limit).graph.inputAt? id input).isNone := by
  rw [isNone_inputAt?_resolveBypassed hk hlive hl, warning?_resolution, Bool.and_comm]
  cases (g.resolution limit input l).link? with
  | none => simp [isSome_warning?_lostAs]
  | some l' => simp

/-- **The warnings about a node** are those about its inputs that are gone. -/
theorem nodeWarnings_eq_gone (hk : g.WellKeyed) (hn : g.node? id = some n) (limit : Int) :
    ((g.resolutions limit n).filterMap fun r => warning? n r.1 r.2.1 r.2.2).map some =
      (n.links.filter fun l => (g.resolveBypassed limit).graph.has n.id &&
        ((g.resolveBypassed limit).graph.inputAt? n.id l.1).isNone).map
          fun l => warning? n l.1 l.2 (lostAs l.1) := by
  obtain rfl : n.id = id := hk.id_eq hn
  rw [resolutions]
  by_cases hby : g.isBypassedAt n.id = true
  · have hgone : (g.resolveBypassed limit).graph.has n.id = false := by
      rw [← Bool.not_eq_true]
      intro hhas
      rw [(has_resolveBypassed_iff.1 hhas).2] at hby
      cases hby
    simp [hby, hgone]
  · have hlive : g.isBypassedAt n.id = false := by simpa using hby
    have hhas : (g.resolveBypassed limit).graph.has n.id = true :=
      has_resolveBypassed_iff.2 ⟨has_iff.2 ⟨n, hn⟩, hlive⟩
    have hlink : ∀ l ∈ n.links, g.linkAt? n.id l.1 = some l.2 := by
      intro l hl
      rw [linkAt?_of_node? hn]
      exact Node.mem_links_iff_link?.1 hl
    rw [if_neg hby, List.filterMap_map, List.map_filterMap_some_eq_filter_map_isSome,
      List.filter_map, List.filter_filter, hhas]
    simp only [Function.comp_apply, Bool.true_and]
    -- both sides filter the links in the same way
    rw [List.filter_congr fun l hl => isSome_warning?_eq_gone hk hlive (hlink l hl) n]
    refine List.map_congr_left fun l hl => ?_
    obtain ⟨hmem, hgone⟩ := List.mem_filter.1 hl
    rw [isNone_inputAt?_resolveBypassed hk hlive (hlink l hmem), Bool.and_eq_true,
      Option.isNone_iff_eq_none] at hgone
    rw [Function.comp_apply, warning?_resolution, hgone.2]
    rfl

/-- **The warnings** are those about the inputs that are gone. -/
theorem warnings_eq_gone (hk : g.WellKeyed) (limit : Int) :
    (g.resolveBypassed limit).warnings.map some =
      (g.goneInputs (g.resolveBypassed limit).graph).map
        fun e => warning? e.1 e.2.1 e.2.2 (lostAs e.2.1) := by
  rw [Graph.warnings_resolveBypassed, goneInputs, List.map_flatMap, List.map_flatMap]
  refine List.flatMap_congr fun n hn => ?_
  obtain ⟨id, hn⟩ := mem_nodeList_iff.1 hn
  rw [nodeWarnings_eq_gone hk hn limit, List.map_map]
  rfl

/-! ## The account -/

theorem inputs_resolveNode_sublist (n : Node) :
    (g.resolveNode limit n).inputs.keys.Sublist n.inputs.keys := by
  rw [resolveNode]
  split
  · exact List.Sublist.refl _
  · exact Dict.keys_filterMap_sublist _ _

theorem resolveNode_eq_with_inputs (n : Node) :
    g.resolveNode limit n = { n with inputs := (g.resolveNode limit n).inputs } := by
  rw [resolveNode]
  split <;> rfl

/-- What the result has besides its nodes, where some node is bypassed. -/
theorem resolveBypassed_rest (hby : g.isBypassedAt id = true) :
    (g.resolveBypassed limit).graph =
      { g with nodes := (g.resolveBypassed limit).graph.nodes, groups := g.liveGroups } := by
  have hsome : ¬ g.bypassedIds.isEmpty = true := by
    intro hempty
    rw [bypassedIds_isEmpty_iff.1 hempty id] at hby
    cases hby
  rw [resolveBypassed, if_neg hsome]
  rfl

/-- **Resolving bypassed nodes is accounted for in full**: whatever the limit, and however bypassed
nodes feed each other, in branches and circles or from sources that are missing. -/
theorem resolveBypassed_accounts (hk : g.WellKeyed) (hby : ∃ id, g.isBypassedAt id = true)
    (limit : Int) : g.Accounts limit (g.resolveBypassed limit) where
  keys := keys_resolveBypassed
  removed := by rw [removed_resolveBypassed, bypassedIds_eq]
  nodes id n hn hlive :=
    ⟨_, node?_resolveBypassed_eq_some_iff.2 ⟨n, hn, hlive, rfl⟩, resolveNode_eq_with_inputs n,
      inputs_resolveNode_sublist n⟩
  fed id input l hlive hl hfed v := by
    rw [inputAt?_of_fed hk hlive hl hfed, Option.map_eq_some_iff]
    refine exists_congr fun l' => ?_
    rw [link?_resolution_eq_some_iff, eq_comm, and_comm]
  unfed id input hlive h := inputAt?_of_unfed hk hlive h
  warned := warnings_eq_gone hk limit
  groups := by
    obtain ⟨id, hid⟩ := hby
    have hmember : ∀ m, (!g.isBypassedAt m) = decide (m ∉ g.bypassedIds) := by
      intro m
      rw [Bool.eq_iff_iff, decide_eq_true_iff, ← isBypassedAt_iff_mem, Bool.not_eq_true',
        Bool.not_eq_true]
    rw [resolveBypassed_rest hid, removed_resolveBypassed]
    simp only [liveGroups, hmember]
    refine List.filter_congr fun gr _ => ?_
    rw [Bool.eq_iff_iff, decide_eq_true_iff, Bool.not_eq_true', List.isEmpty_eq_false_iff]
  rest := by
    obtain ⟨id, hid⟩ := hby
    rw [resolveBypassed_rest hid]
    exact ⟨rfl, rfl, rfl⟩

/-- A loader, two bypassed modifiers in a row behind it, and a sampler that the second one feeds.
The first takes its text encoder from a node that is missing. -/
def passedRow : Graph where
  nodes := .ofList [
    ("1", { id := "1", classType := "UNETLoader" }),
    ("2", { id := "2", classType := "LoraLoader", mode := 4
            inputs := .ofList [("model", .connection "1" 0), ("clip", .connection "9" 1)] }),
    ("3", { id := "3", classType := "LoraLoader", mode := 4
            inputs := .ofList [("clip", .connection "2" 1), ("model", .connection "2" 0)] }),
    ("4", { id := "4", classType := "KSampler"
            inputs := .ofList [("extra", .connection "3" 2), ("seed", .literal (.int 7)),
              ("model", .connection "3" 0), ("clip", .connection "3" 1)] })]
  groups := [⟨.int 1, "row", ["2", "3"]⟩, ⟨.int 2, "all", ["1", "2", "4"]⟩]

/-- The hypotheses of `resolveBypassed_accounts` are met. Two hops lead to the loader, so a limit of
two keeps the model of the sampler and a limit of one does not; what else fed it is gone. -/
theorem passedRow_accounts :
    passedRow.WellKeyed ∧ passedRow.isBypassedAt "2" = true ∧
      (passedRow.Accounts 2 (passedRow.resolveBypassed 2) ∧
        (passedRow.resolveBypassed 2).graph.edges = [⟨"1", 0, "4", "model"⟩] ∧
        (passedRow.resolveBypassed 2).warnings.length = 2 ∧
        (passedRow.resolveBypassed 2).graph.groups = [⟨.int 2, "all", ["1", "4"]⟩]) ∧
      passedRow.Accounts 1 (passedRow.resolveBypassed 1) ∧
        (passedRow.resolveBypassed 1).graph.edges = [] ∧
        (passedRow.resolveBypassed 1).warnings.length = 3 := by
  have hk : passedRow.WellKeyed := by decide +kernel
  have hby : passedRow.isBypassedAt "2" = true := by decide +kernel
  exact ⟨hk, hby, ⟨resolveBypassed_accounts hk ⟨"2", hby⟩ 2, by decide +kernel⟩,
    resolveBypassed_accounts hk ⟨"2", hby⟩ 1, by decide +kernel⟩

end Graph

end NodeFlow
