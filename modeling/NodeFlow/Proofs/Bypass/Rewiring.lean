import NodeFlow.Bypass
import NodeFlow.Proofs.Graph.Dependency
/-!
# What resolving bypassed nodes leaves

One equation for each way to look at the result: its nodes
(`nodes_resolveBypassed`), the node under a key (`node?_resolveBypassed`),
its links (`linkAt?_resolveBypassed`). They hold whether anything is bypassed
or not, so nothing below asks which of the two it was. A walk that ends at a
link ends at one of the workflow, whose source is there and not bypassed.
-/

namespace NodeFlow

open Bypass

namespace Graph

variable {g : Graph} {limit : Int} {id input type : String} {l l' : Link} {n : Node}

/-! ## Which nodes are bypassed -/

theorem isBypassedAt_of_node? (hn : g.node? id = some n) : g.isBypassedAt id = n.isBypassed := by
  rw [isBypassedAt, hn]

theorem has_of_isBypassedAt (h : g.isBypassedAt id = true) : g.has id := by
  rw [isBypassedAt] at h
  cases hn : g.node? id with
  | none => simp [hn] at h
  | some n => exact has_iff.2 ⟨n, hn⟩

theorem bypassedIds_eq : g.bypassedIds = g.nodes.keys.filter g.isBypassedAt := by
  rw [bypassedIds, Dict.keys, Entries.keys, List.filter_map]
  congr 1
  refine List.filter_congr fun e he => ?_
  exact (isBypassedAt_of_node? (Dict.get?_eq_some_iff.2 he)).symm

theorem bypassedIds_isEmpty_iff : g.bypassedIds.isEmpty ↔ ∀ id, g.isBypassedAt id = false := by
  rw [List.isEmpty_iff, bypassedIds_eq, List.filter_eq_nil_iff]
  constructor
  · intro h id
    rw [← Bool.not_eq_true]
    intro hby
    exact h id (has_iff_mem_keys.1 (has_of_isBypassedAt hby)) hby
  · intro h id _
    simp [h id]

/-! ## Walks -/

theorem passedOn?_eq_some (h : g.passedOn? id type = some l) :
    ∃ input, g.linkAt? id input = some l := by
  rw [passedOn?, Option.bind_eq_some_iff] at h
  obtain ⟨n, hn, hfind⟩ := h
  obtain ⟨⟨input, l₀⟩, hmem, rfl⟩ := Option.map_eq_some_iff.1 hfind
  refine ⟨input, ?_⟩
  rw [linkAt?_of_node? hn]
  exact Node.mem_links_iff_link?.1 (List.mem_of_find?_eq_some hmem)

/-- **A walk ends at a node that is there and is not bypassed**, and what holds of a link, and of
the next link of a walk where it holds of one, holds of the link where the walk ends. -/
theorem walk_induction {P : Link → Prop} {steps : Nat} (h : g.walk type steps l = .reached l')
    (hl : P l)
    (hstep : ∀ l next input, P l → g.isBypassedAt l.source = true →
      g.linkAt? l.source input = some next → P next) :
    P l' ∧ g.has l'.source ∧ g.isBypassedAt l'.source = false := by
  -- on the steps that are left; each goes on from the link that a bypassed node passes on
  induction steps generalizing l with
  | zero => simp [walk] at h
  | succ steps ih =>
    rw [walk] at h
    by_cases hby : g.isBypassedAt l.source
    · rw [if_pos hby] at h
      cases hnext : g.passedOn? l.source type with
      | none => simp [hnext] at h
      | some next =>
        rw [hnext] at h
        obtain ⟨input, hlink⟩ := passedOn?_eq_some hnext
        exact ih h (hstep l next input hl hby hlink)
    · rw [if_neg hby] at h
      by_cases hhas : g.has l.source
      · rw [if_pos hhas] at h
        obtain rfl : l = l' := by simpa using h
        exact ⟨hl, hhas, by simpa using hby⟩
      · simp [hhas] at h

theorem live_of_walk_eq_reached {steps : Nat} (h : g.walk type steps l = .reached l') :
    g.has l'.source ∧ g.isBypassedAt l'.source = false :=
  (walk_induction (P := fun _ => True) h trivial fun _ _ _ _ _ _ => trivial).2

theorem walk_of_resolution (h : (g.resolution limit input l).link? = some l') :
    ∃ type steps, g.walk type steps l = .reached l' := by
  rw [resolution] at h
  cases htype : typeOfName? input with
  | none => simp [htype, Resolution.link?] at h
  | some type =>
    refine ⟨type, (limit + 1).toNat, ?_⟩
    rw [htype] at h
    cases hwalk : g.walk type (limit + 1).toNat l with
    | reached link =>
      obtain rfl : link = l' := by simpa [hwalk, Resolution.link?] using h
      rfl
    | lost => simp [hwalk, Resolution.link?] at h
    | cut node => simp [hwalk, Resolution.link?] at h

/-! ## Nodes of the result -/

theorem isBypassed_resolveNode (n : Node) : (g.resolveNode limit n).isBypassed = n.isBypassed := by
  rw [resolveNode]
  split <;> rfl

theorem id_resolveNode (n : Node) : (g.resolveNode limit n).id = n.id := by
  rw [resolveNode]
  split <;> rfl

theorem resolveInput_of_none (h : ∀ id, g.isBypassedAt id = false) (v : InputValue) :
    g.resolveInput limit input v = some v := by
  cases v <;> simp [resolveInput, h]

theorem resolveNode_of_none (h : ∀ id, g.isBypassedAt id = false) (n : Node) :
    g.resolveNode limit n = n := by
  have hid : n.inputs.filterMap (g.resolveInput limit) = n.inputs := by
    refine Dict.ext ?_
    simp [Dict.filterMap, resolveInput_of_none h]
  rw [resolveNode, h, if_neg (by simp), hid]

/-- **The nodes that are left** are those that are not bypassed, in their order, resolved. -/
theorem nodes_resolveBypassed :
    (g.resolveBypassed limit).graph.nodes =
      (g.nodes.filter fun _ n => !n.isBypassed).map fun _ n => g.resolveNode limit n := by
  rw [resolveBypassed]
  by_cases hempty : g.bypassedIds.isEmpty
  · -- the workflow is returned as it is, and resolving would change no node of it
    rw [if_pos hempty]
    have hnone := bypassedIds_isEmpty_iff.1 hempty
    refine Dict.ext ?_
    have hall : ∀ e ∈ g.nodes.entries, (!e.2.isBypassed) = true := by
      intro e he
      rw [← isBypassedAt_of_node? (Dict.get?_eq_some_iff.2 he), hnone]
      rfl
    simp [Dict.map, Dict.filter, List.filter_eq_self.2 hall, resolveNode_of_none hnone]
  · rw [if_neg hempty]
    rfl

theorem node?_resolveBypassed :
    (g.resolveBypassed limit).graph.node? id =
      ((g.node? id).filter fun n => !n.isBypassed).map (g.resolveNode limit) := by
  rw [node?, nodes_resolveBypassed, Dict.get?_map, Dict.get?_filter]
  rfl

theorem node?_resolveBypassed_of_live (hlive : g.isBypassedAt id = false) :
    (g.resolveBypassed limit).graph.node? id = (g.node? id).map (g.resolveNode limit) := by
  rw [node?_resolveBypassed]
  cases hn : g.node? id with
  | none => rfl
  | some n => simp [← isBypassedAt_of_node? hn, hlive]

theorem node?_resolveBypassed_eq_some_iff {m : Node} :
    (g.resolveBypassed limit).graph.node? id = some m ↔
      ∃ n, g.node? id = some n ∧ n.isBypassed = false ∧ g.resolveNode limit n = m := by
  simp [node?_resolveBypassed, and_assoc]

theorem has_resolveBypassed_iff :
    (g.resolveBypassed limit).graph.has id ↔ g.has id ∧ g.isBypassedAt id = false := by
  simp only [has_iff, node?_resolveBypassed_eq_some_iff]
  constructor
  · rintro ⟨m, n, hn, hlive, rfl⟩
    exact ⟨⟨n, hn⟩, by rw [isBypassedAt_of_node? hn, hlive]⟩
  · rintro ⟨⟨n, hn⟩, hlive⟩
    exact ⟨_, n, hn, by rw [← isBypassedAt_of_node? hn, hlive], rfl⟩

theorem keys_resolveBypassed :
    (g.resolveBypassed limit).graph.nodes.keys =
      g.nodes.keys.filter fun id => !g.isBypassedAt id := by
  rw [nodes_resolveBypassed, Dict.keys_map, Dict.keys_filter, Dict.keys, Entries.keys,
    List.filter_map]
  congr 1
  refine List.filter_congr fun e he => ?_
  rw [Function.comp_apply, isBypassedAt_of_node? (Dict.get?_eq_some_iff.2 he)]

/-- Nothing but nodes and groups is changed. -/
theorem rest_resolveBypassed (g : Graph) (limit : Int) :
    (g.resolveBypassed limit).graph =
      { g with
        nodes := (g.resolveBypassed limit).graph.nodes
        groups := (g.resolveBypassed limit).graph.groups } := by
  rw [resolveBypassed]
  split <;> rfl

/-- A group that is left was there, under its id. -/
theorem exists_group_of_resolveBypassed {gr : Group}
    (h : gr ∈ (g.resolveBypassed limit).graph.groups) : ∃ gr' ∈ g.groups, gr'.id = gr.id := by
  rw [resolveBypassed] at h
  split at h
  · exact ⟨gr, h, rfl⟩
  · obtain ⟨gr', hgr', rfl⟩ := List.mem_map.1 (List.mem_of_mem_filter h)
    exact ⟨gr', hgr', rfl⟩

theorem WellKeyed.resolveBypassed (hk : g.WellKeyed) (limit : Int) :
    (g.resolveBypassed limit).graph.WellKeyed := by
  refine wellKeyed_iff.2 fun id m hm => ?_
  obtain ⟨n, hn, -, rfl⟩ := node?_resolveBypassed_eq_some_iff.1 hm
  rw [id_resolveNode, hk.id_eq hn]

/-! ## Links of the result -/

theorem link?_resolveNode (hlive : g.isBypassedAt n.id = false) :
    (g.resolveNode limit n).link? input =
      (n.link? input).bind fun l =>
        if g.isBypassedAt l.source then (g.resolution limit input l).link? else some l := by
  rw [resolveNode, hlive, if_neg (by simp), Node.link?, Node.link?, Dict.get?_filterMap]
  cases hv : n.inputs.get? input with
  | none => rfl
  | some v =>
    cases v with
    | literal value => rfl
    | slot type => rfl
    | connection source output =>
      by_cases hby : g.isBypassedAt source
      · cases hres : (g.resolution limit input ⟨source, output⟩).link? <;>
          simp [resolveInput, InputValue.connection?, hby, hres, Link.toInput]
      · simp [resolveInput, InputValue.connection?, hby]

/-- **The links that are left**: a link from a live node stays, one from a bypassed node becomes
the link that its resolution is left with. -/
theorem linkAt?_resolveBypassed (hk : g.WellKeyed) (hlive : g.isBypassedAt id = false) :
    (g.resolveBypassed limit).graph.linkAt? id input =
      (g.linkAt? id input).bind fun l =>
        if g.isBypassedAt l.source then (g.resolution limit input l).link? else some l := by
  rw [linkAt?, linkAt?, node?_resolveBypassed_of_live hlive]
  cases hn : g.node? id with
  | none => rfl
  | some n =>
    have hid : g.isBypassedAt n.id = false := by rw [hk.id_eq hn, hlive]
    rw [Option.map_some, Option.bind_some, link?_resolveNode hid, Option.bind_some]

/-- A link of the result is one of the workflow from a live node, or else where the walk from one
that a bypassed node feeds has ended. -/
theorem linkAt?_resolveBypassed_cases (hk : g.WellKeyed)
    (h : (g.resolveBypassed limit).graph.linkAt? id input = some l') :
    (g.linkAt? id input = some l' ∧ g.isBypassedAt l'.source = false) ∨
      ∃ l, g.linkAt? id input = some l ∧ g.isBypassedAt l.source = true ∧
        ∃ type steps, g.walk type steps l = .reached l' := by
  have hlive : g.isBypassedAt id = false := (has_resolveBypassed_iff.1 (has_of_linkAt? h)).2
  rw [linkAt?_resolveBypassed hk hlive, Option.bind_eq_some_iff] at h
  obtain ⟨l, hl, hres⟩ := h
  by_cases hby : g.isBypassedAt l.source
  · rw [if_pos hby] at hres
    exact Or.inr ⟨l, hl, hby, walk_of_resolution hres⟩
  · rw [if_neg hby] at hres
    obtain rfl : l = l' := by simpa using hres
    exact Or.inl ⟨hl, by simpa using hby⟩

end Graph

end NodeFlow
