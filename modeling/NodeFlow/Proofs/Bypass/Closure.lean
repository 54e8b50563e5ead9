import NodeFlow.Proofs.Bypass.Rewiring
/-!
# Resolving bypassed nodes closes the workflow

Nothing in the result points at a node that was removed: a link that is left
either starts at a node that is left, or was there before and dangled
already. Since no node of the result is bypassed, resolving it again does
nothing.
-/

namespace NodeFlow.Graph

open Bypass

variable {g : Graph} {limit : Int} {id input : String} {l : Link}

/-- What a result of resolving the bypassed nodes of a workflow has to be. -/
structure ClosesBypass (g : Graph) (r : Result) : Prop where
  /-- No node is bypassed. -/
  live : ∀ id n, r.graph.node? id = some n → n.mode ≠ bypassedMode
  /-- The keys are those of the nodes that were not bypassed, in their order. -/
  keys : r.graph.nodes.keys = g.nodes.keys.filter fun id => !g.isBypassedAt id
  /-- What was removed are the bypassed nodes. -/
  removed : r.removed = g.nodes.keys.filter g.isBypassedAt
  /-- A link starts at a node that is left, or is one that dangled before, at the same input. -/
  links : ∀ id input l, r.graph.linkAt? id input = some l →
    r.graph.has l.source ∨ (g.linkAt? id input = some l ∧ ¬ g.has l.source)
  /-- No link starts at a node that was removed. -/
  notRemoved : ∀ id input l, r.graph.linkAt? id input = some l → l.source ∉ r.removed
  /-- Nothing dangles where nothing dangled before. -/
  closed : g.Closed → r.graph.Closed
  /-- Resolving again, under any limit, does nothing. -/
  again : ∀ limit, r.graph.resolveBypassed limit = ⟨r.graph, [], []⟩

/-- Every link of the result starts at a node that is left, or dangled already. -/
theorem source_of_linkAt?_resolveBypassed (hk : g.WellKeyed)
    (h : (g.resolveBypassed limit).graph.linkAt? id input = some l) :
    (g.resolveBypassed limit).graph.has l.source ∨
      (g.linkAt? id input = some l ∧ ¬ g.has l.source) := by
  rcases linkAt?_resolveBypassed_cases hk h with ⟨hl, hlive⟩ | ⟨l₀, -, -, type, steps, hwalk⟩
  · -- a link that was not rewired keeps its source, be it there or not
    by_cases hhas : g.has l.source
    · exact Or.inl (has_resolveBypassed_iff.2 ⟨hhas, hlive⟩)
    · exact Or.inr ⟨hl, hhas⟩
  · exact Or.inl (has_resolveBypassed_iff.2 (live_of_walk_eq_reached hwalk))

theorem isBypassedAt_resolveBypassed (id : String) :
    (g.resolveBypassed limit).graph.isBypassedAt id = false := by
  cases hm : (g.resolveBypassed limit).graph.node? id with
  | none => rw [isBypassedAt, hm]
  | some m =>
    obtain ⟨n, -, hlive, rfl⟩ := node?_resolveBypassed_eq_some_iff.1 hm
    rw [isBypassedAt_of_node? hm, isBypassed_resolveNode, hlive]

theorem removed_resolveBypassed : (g.resolveBypassed limit).removed = g.bypassedIds := by
  rw [resolveBypassed]
  split
  · rename_i hempty
    exact (List.isEmpty_iff.1 hempty).symm
  · rfl

/-- **Resolving bypassed nodes closes the workflow and is idempotent**, whatever the limit: removed
nodes may feed each other in chains and circles, and sources may be missing. -/
theorem resolveBypassed_closesBypass (hk : g.WellKeyed) (limit : Int) :
    g.ClosesBypass (g.resolveBypassed limit) where
  live id n hn hmode := by
    have hby : (g.resolveBypassed limit).graph.isBypassedAt id = false :=
      isBypassedAt_resolveBypassed id
    rw [isBypassedAt_of_node? hn, Node.isBypassed, hmode] at hby
    simp at hby
  keys := keys_resolveBypassed
  removed := by rw [removed_resolveBypassed, bypassedIds_eq]
  links id input l h := source_of_linkAt?_resolveBypassed hk h
  notRemoved id input l h hmem := by
    rw [removed_resolveBypassed, bypassedIds_eq, List.mem_filter] at hmem
    rcases source_of_linkAt?_resolveBypassed hk h with hhas | ⟨-, hno⟩
    · rw [(has_resolveBypassed_iff.1 hhas).2] at hmem
      exact absurd hmem.2 (by simp)
    · exact hno (has_iff_mem_keys.2 hmem.1)
  closed hclosed id input l h := by
    rcases source_of_linkAt?_resolveBypassed hk h with hhas | ⟨hl, hno⟩
    · exact hhas
    · exact absurd (hclosed id input l hl) hno
  again limit' := by
    rw [resolveBypassed, if_pos (bypassedIds_isEmpty_iff.2 isBypassedAt_resolveBypassed)]

/-- A loader, a bypassed modifier behind it, two bypassed nodes in a circle, and a sampler that all
three bypassed nodes feed; one of its inputs dangles. -/
def bypassedCircle : Graph where
  nodes := .ofList [
    ("1", { id := "1", classType := "UNETLoader" }),
    ("2", { id := "2", classType := "LoraLoaderModelOnly", mode := 4
            inputs := .ofList [("model", .connection "1" 0)] }),
    ("3", { id := "3", classType := "Reroute", mode := 4
            inputs := .ofList [("latent", .connection "4" 0)] }),
    ("4", { id := "4", classType := "Reroute", mode := 4
            inputs := .ofList [("latent", .connection "3" 0)] }),
    ("5", { id := "5", classType := "KSampler"
            inputs := .ofList [("model", .connection "2" 0), ("latent_image", .connection "3" 0),
              ("seed", .literal (.int 7)), ("vae", .connection "9" 1)] })]

/-- The hypothesis of `resolveBypassed_closesBypass` is met: the circle is cut, the modifier is
passed over, and what dangled still dangles. -/
theorem bypassedCircle_closesBypass :
    bypassedCircle.WellKeyed ∧ bypassedCircle.ClosesBypass (bypassedCircle.resolveBypassed 10) ∧
      (bypassedCircle.resolveBypassed 10).removed = ["2", "3", "4"] ∧
      (bypassedCircle.resolveBypassed 10).graph.edges =
        [⟨"1", 0, "5", "model"⟩, ⟨"9", 1, "5", "vae"⟩] := by
  have hk : bypassedCircle.WellKeyed := by decide +kernel
  exact ⟨hk, resolveBypassed_closesBypass hk 10, by decide +kernel, by decide +kernel⟩

end NodeFlow.Graph
