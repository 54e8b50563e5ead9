import NodeFlow.Proofs.Bypass.Closure
import NodeFlow.Proofs.Graph.Relink
/-!
# Resolving a relinked workflow

Let the links of a workflow be changed so that those from bypassed nodes
stay and the others keep starting at live nodes (`Lockstep`). Then a walk in
the changed workflow visits the bypassed nodes that the walk in the old one
visits, and ends at the image of the link where that one ends, after the same
number of steps. So the change is still there once both are resolved, and the
warnings are the same.
-/

namespace NodeFlow

open Bypass

/-- The link at which a walk ends. -/
def Bypass.WalkEnd.link? : WalkEnd → Option Link
  | .reached link => some link
  | _ => none

/-- How the resolution of an input that is removed is told: by its type, if its name tells one. -/
def Bypass.lostAs (input : String) : Resolution :=
  match typeOfName? input with
  | none => .untyped
  | some type => .unresolved type none

namespace Graph

variable {f : Link → Link} {extra : List (String × Node)} {g h : Graph} {limit : Int}
variable {id input type : String} {l : Link} {n : Node}

/-- A relinked workflow whose links are bypassed where those of the other are. -/
structure Lockstep (f : Link → Link) (extra : List (String × Node)) (g h : Graph) : Prop
    extends Relinked f extra g h where
  /-- Links from bypassed nodes stay. -/
  fixes : ∀ l, g.isBypassedAt l.source = true → f l = l
  /-- Links from live nodes become links from live nodes. -/
  live : ∀ l, g.has l.source → g.isBypassedAt l.source = false →
    h.has (f l).source ∧ h.isBypassedAt (f l).source = false
  /-- Bypassed nodes feed none of the further nodes. -/
  unfed : ∀ e ∈ extra, ∀ l ∈ e.2.links, h.isBypassedAt l.2.source = false

/-! ## Bypassed nodes -/

theorem Relinked.bypassedIds_eq (hr : g.Relinked f extra h) : h.bypassedIds = g.bypassedIds := by
  have hnone : extra.filter (fun e => e.2.isBypassed) = [] := by
    refine List.filter_eq_nil_iff.2 fun e he => ?_
    rw [hr.active e he]
    exact Bool.false_ne_true
  rw [bypassedIds, bypassedIds, hr.entries, List.filter_append, hnone, List.append_nil,
    List.filter_map, List.map_map]
  rfl

theorem isBypassedAt_iff_mem : g.isBypassedAt id = true ↔ id ∈ g.bypassedIds := by
  rw [Graph.bypassedIds_eq, List.mem_filter]
  exact ⟨fun hby => ⟨has_iff_mem_keys.1 (has_of_isBypassedAt hby), hby⟩, And.right⟩

theorem Relinked.isBypassedAt_eq (hr : g.Relinked f extra h) (id : String) :
    h.isBypassedAt id = g.isBypassedAt id := by
  rw [Bool.eq_iff_iff, isBypassedAt_iff_mem, isBypassedAt_iff_mem, hr.bypassedIds_eq]

/-! ## Walks -/

theorem Lockstep.passedOn?_eq (hr : g.Lockstep f extra h) (hid : g.has id) (type : String) :
    h.passedOn? id type = (g.passedOn? id type).map f := by
  obtain ⟨n, hn⟩ := has_iff.1 hid
  rw [passedOn?, passedOn?, hn, hr.node?_eq hn, Option.bind_some, Option.bind_some,
    Node.links_mapLinks, List.find?_map, Option.map_map, Option.map_map]
  rfl

/-- **Lockstep**: where the walk ends in one workflow, its image ends in the other. -/
theorem Lockstep.link?_walk (hr : g.Lockstep f extra h) (hclosed : g.Closed)
    (hl : g.has l.source) (type : String) (steps : Nat) :
    (h.walk type steps (f l)).link? = (g.walk type steps l).link?.map f := by
  -- on the steps that are left; both walks make the same choice at each bypassed node
  induction steps generalizing l with
  | zero => rfl
  | succ steps ih =>
    rw [walk, walk]
    by_cases hby : g.isBypassedAt l.source = true
    · rw [hr.fixes l hby, hr.isBypassedAt_eq, if_pos hby, if_pos hby, hr.passedOn?_eq hl]
      cases hnext : g.passedOn? l.source type with
      | none => rfl
      | some next =>
        obtain ⟨input, hlink⟩ := passedOn?_eq_some hnext
        exact ih (hclosed _ _ _ hlink)
    · obtain ⟨hhas, hlive⟩ := hr.live l hl (by simpa using hby)
      rw [hlive, if_neg Bool.false_ne_true, if_pos hhas, if_neg hby, if_pos hl]
      rfl

theorem Resolution.link?_eq (g : Graph) (limit : Int) (input : String) (l : Link) :
    (g.resolution limit input l).link? =
      (typeOfName? input).bind fun type => (g.walk type (limit + 1).toNat l).link? := by
  rw [resolution]
  cases typeOfName? input with
  | none => rfl
  | some type =>
    rw [Option.bind_some]
    cases hwalk : g.walk type (limit + 1).toNat l <;> simp [hwalk, Resolution.link?, WalkEnd.link?]

theorem Lockstep.link?_resolution (hr : g.Lockstep f extra h) (hclosed : g.Closed)
    (hby : g.isBypassedAt l.source = true) (input : String) :
    (h.resolution limit input l).link? = (g.resolution limit input l).link?.map f := by
  have hwalk (type : String) :=
    hr.link?_walk hclosed (has_of_isBypassedAt hby) type (limit + 1).toNat
  rw [hr.fixes l hby] at hwalk
  rw [Resolution.link?_eq, Resolution.link?_eq]
  cases typeOfName? input with
  | none => rfl
  | some type => exact hwalk type

/-- A warning does not say how a walk failed. -/
theorem warning?_resolution (g : Graph) (limit : Int) (n : Node) (input : String) (l : Link) :
    warning? n input l (g.resolution limit input l) =
      if (g.resolution limit input l).link?.isSome then none
      else warning? n input l (lostAs input) := by
  rw [resolution, lostAs]
  cases typeOfName? input with
  | none => rfl
  | some type =>
    cases hwalk : g.walk type (limit + 1).toNat l <;> simp [hwalk, Resolution.link?, warning?]

/-! ## Nodes of the result -/

theorem resolveInput_of_live (hlive : g.isBypassedAt l.source = false) :
    g.resolveInput limit input l.toInput = some l.toInput := by
  rw [Link.toInput, resolveInput, hlive, if_neg Bool.false_ne_true]

/-- An input that holds no link from a bypassed node is not touched. -/
theorem resolveInput_of_unfed {v : InputValue}
    (h : ∀ l : Link, v = l.toInput → g.isBypassedAt l.source = false) :
    g.resolveInput limit input v = some v := by
  cases v with
  | literal value => rfl
  | slot type => rfl
  | connection source output => exact resolveInput_of_live (h ⟨source, output⟩ rfl)

theorem Lockstep.resolveInput_eq (hr : g.Lockstep f extra h) (hclosed : g.Closed)
    (hn : g.node? id = some n) {v : InputValue} (hv : n.inputs.get? input = some v) :
    h.resolveInput limit input (v.mapLink f) =
      (g.resolveInput limit input v).map fun w => w.mapLink f := by
  cases v with
  | literal value => rfl
  | slot type => rfl
  | connection source output =>
    have hlink : g.linkAt? id input = some ⟨source, output⟩ := by
      rw [linkAt?_of_node? hn]
      exact Node.link?_eq_some_iff.2 hv
    have hhas : g.has source := hclosed _ _ _ hlink
    by_cases hby : g.isBypassedAt source = true
    · have hfix : f ⟨source, output⟩ = ⟨source, output⟩ := hr.fixes ⟨source, output⟩ hby
      have hres : (h.resolution limit input ⟨source, output⟩).link? =
          (g.resolution limit input ⟨source, output⟩).link?.map f :=
        hr.link?_resolution hclosed hby input
      rw [InputValue.mapLink, hfix, Link.toInput, resolveInput, resolveInput, hr.isBypassedAt_eq,
        if_pos hby, if_pos hby, hres, Option.map_map, Option.map_map]
      rfl
    · have hlive : g.isBypassedAt source = false := by simpa using hby
      rw [InputValue.mapLink, resolveInput_of_live (hr.live ⟨source, output⟩ hhas hlive).2,
        resolveInput, if_neg hby]
      rfl

theorem Lockstep.resolveNode_eq (hr : g.Lockstep f extra h) (hclosed : g.Closed)
    (hn : g.node? id = some n) :
    h.resolveNode limit (n.mapLinks f) = (g.resolveNode limit n).mapLinks f := by
  have hinputs : (n.inputs.map fun _ v => v.mapLink f).filterMap (h.resolveInput limit) =
      (n.inputs.filterMap (g.resolveInput limit)).map fun _ v => v.mapLink f := by
    rw [Dict.map_filterMap]
    refine Dict.ext ?_
    simp only [Dict.map, Dict.filterMap, List.filterMap_map]
    refine List.filterMap_congr fun e he => ?_
    rw [Function.comp_apply, hr.resolveInput_eq hclosed hn (Dict.get?_eq_some_iff.2 he)]
  rw [resolveNode, resolveNode, hr.isBypassedAt_eq]
  by_cases hby : g.isBypassedAt n.id = true
  · exact (if_pos hby).trans (congrArg (Node.mapLinks f) (if_pos hby).symm)
  · rw [if_neg hby]
    refine (if_neg hby).trans ?_
    simp only [Node.mapLinks, hinputs]

/-- A node that no bypassed node feeds is left as it is. -/
theorem resolveNode_of_links (hn : ∀ l ∈ n.links, g.isBypassedAt l.2.source = false) :
    g.resolveNode limit n = n := by
  have hinputs : n.inputs.filterMap (g.resolveInput limit) = n.inputs := by
    refine Dict.ext ?_
    have hkeep : ∀ e ∈ n.inputs.entries,
        ((g.resolveInput limit e.1 e.2).map fun v => (e.1, v)) = some e := by
      intro e he
      have hlive : ∀ l : Link, e.2 = l.toInput → g.isBypassedAt l.source = false := by
        intro l hl
        refine hn (e.1, l) (Node.mem_links_iff.2 ?_)
        rw [Dict.get?_eq_some_iff.2 he, hl]
      rw [resolveInput_of_unfed hlive, Option.map_some]
    exact (List.filterMap_congr hkeep).trans List.filterMap_some
  rw [resolveNode, hinputs]
  split <;> rfl

/-- **The nodes that are left** are relinked in the same way. -/
theorem Lockstep.entries_resolveBypassed (hr : g.Lockstep f extra h) (hclosed : g.Closed)
    (limit : Int) :
    (h.resolveBypassed limit).graph.nodes.entries =
      (g.resolveBypassed limit).graph.nodes.entries.map (fun e => (e.1, e.2.mapLinks f)) ++
        extra := by
  rw [nodes_resolveBypassed, nodes_resolveBypassed]
  simp only [Dict.map, Dict.filter, hr.entries, List.filter_append, List.map_append,
    List.filter_map, List.map_map]
  congr 1
  · refine List.map_congr_left fun e he => ?_
    have hn : g.node? e.1 = some e.2 :=
      Dict.get?_eq_some_iff.2 (List.mem_filter.1 he).1
    exact congrArg (Prod.mk e.1) (hr.resolveNode_eq hclosed hn)
  · have hall : extra.filter (fun e => !e.2.isBypassed) = extra := by
      refine List.filter_eq_self.2 fun e he => ?_
      rw [hr.active e he]
      rfl
    rw [hall]
    refine (List.map_congr_left fun e he => ?_).trans (List.map_id _)
    rw [resolveNode_of_links (hr.unfed e he)]
    rfl

/-! ## What is reported, and the rest of the result -/

/-- Bypassed nodes feed the same inputs by the same links. -/
theorem Lockstep.filter_links (hr : g.Lockstep f extra h) (hclosed : g.Closed)
    (hn : g.node? id = some n) :
    ((n.mapLinks f).links.filter fun l => h.isBypassedAt l.2.source) =
      n.links.filter fun l => g.isBypassedAt l.2.source := by
  have hsame : ∀ l ∈ n.links, h.isBypassedAt (f l.2).source = g.isBypassedAt l.2.source := by
    intro l hl
    by_cases hby : g.isBypassedAt l.2.source = true
    · rw [hr.fixes l.2 hby, hr.isBypassedAt_eq]
    · have hlive : g.isBypassedAt l.2.source = false := by simpa using hby
      have hlink : g.linkAt? id l.1 = some l.2 := by
        rw [linkAt?_of_node? hn, Node.mem_links_iff_link?.1 hl]
      rw [hlive, (hr.live l.2 (hclosed _ _ _ hlink) hlive).2]
  rw [Node.links_mapLinks, List.filter_map]
  have hfilter : n.links.filter ((fun l => h.isBypassedAt l.2.source) ∘ fun l => (l.1, f l.2)) =
      n.links.filter fun l => g.isBypassedAt l.2.source :=
    List.filter_congr hsame
  rw [hfilter]
  refine (List.map_congr_left fun l hl => ?_).trans (List.map_id _)
  rw [hr.fixes l.2 (List.mem_filter.1 hl).2]
  rfl

/-- **A node is warned about as before.** -/
theorem Lockstep.nodeWarnings_eq (hr : g.Lockstep f extra h) (hclosed : g.Closed)
    (hn : g.node? id = some n) :
    ((h.resolutions limit (n.mapLinks f)).filterMap fun r =>
        warning? (n.mapLinks f) r.1 r.2.1 r.2.2) =
      (g.resolutions limit n).filterMap fun r => warning? n r.1 r.2.1 r.2.2 := by
  have hid : (n.mapLinks f).id = n.id := rfl
  have hword : ∀ (input : String) (l : Link) (r : Resolution),
      warning? (n.mapLinks f) input l r = warning? n input l r := by
    intro input l r
    cases r <;> rfl
  rw [resolutions, resolutions, hid, hr.isBypassedAt_eq, hr.filter_links hclosed hn]
  split
  · rfl
  · rw [List.filterMap_map, List.filterMap_map]
    refine List.filterMap_congr fun l hl => ?_
    have hby : g.isBypassedAt l.2.source = true := (List.mem_filter.1 hl).2
    rw [Function.comp_apply, Function.comp_apply, hword, warning?_resolution h,
      hr.link?_resolution hclosed hby, Option.isSome_map, ← warning?_resolution g]

theorem warnings_resolveBypassed (g : Graph) (limit : Int) :
    (g.resolveBypassed limit).warnings = g.nodeList.flatMap fun n =>
      (g.resolutions limit n).filterMap fun r => warning? n r.1 r.2.1 r.2.2 := by
  rw [resolveBypassed]
  split
  · rename_i hempty
    -- where nothing is bypassed there is nothing to resolve
    have hnone := bypassedIds_isEmpty_iff.1 hempty
    simp [resolutions, hnone]
  · rfl

/-- **The warnings are the same.** -/
theorem Lockstep.warnings_resolveBypassed (hr : g.Lockstep f extra h) (hclosed : g.Closed)
    (limit : Int) : (h.resolveBypassed limit).warnings = (g.resolveBypassed limit).warnings := by
  rw [Graph.warnings_resolveBypassed, Graph.warnings_resolveBypassed, nodeList, nodeList,
    Dict.values, Dict.values, hr.entries, List.map_append, List.flatMap_append, List.map_map,
    List.flatMap_map, List.flatMap_map, List.flatMap_map]
  have hextra : (extra.flatMap fun e =>
      (h.resolutions limit e.2).filterMap fun r => warning? e.2 r.1 r.2.1 r.2.2) = [] := by
    refine List.flatMap_eq_nil_iff.2 fun e he => ?_
    have hnone : e.2.links.filter (fun l => h.isBypassedAt l.2.source) = [] := by
      refine List.filter_eq_nil_iff.2 fun l hl => ?_
      rw [(hr.unfed e he) l hl]
      exact Bool.false_ne_true
    rw [resolutions, hnone]
    split <;> rfl
  rw [hextra, List.append_nil]
  refine List.flatMap_congr fun e he => ?_
  exact hr.nodeWarnings_eq hclosed (Dict.get?_eq_some_iff.2 he)

theorem Relinked.removed_resolveBypassed (hr : g.Relinked f extra h) (limit : Int) :
    (h.resolveBypassed limit).removed = (g.resolveBypassed limit).removed := by
  rw [Graph.removed_resolveBypassed, Graph.removed_resolveBypassed, hr.bypassedIds_eq]

theorem Lockstep.rest_resolveBypassed (hr : g.Lockstep f extra h) (limit : Int) :
    (h.resolveBypassed limit).graph =
      { (g.resolveBypassed limit).graph with nodes := (h.resolveBypassed limit).graph.nodes } := by
  have hgroups : h.groups = g.groups := by rw [hr.rest]
  have hlive : h.liveGroups = g.liveGroups := by
    simp only [liveGroups, hgroups, hr.isBypassedAt_eq]
  rw [resolveBypassed, resolveBypassed, hr.bypassedIds_eq]
  split
  · exact hr.rest
  · rw [withoutBypassed, withoutBypassed, hlive]
    rw [hr.rest]

/-- **Resolved, a workflow is relinked as before**, with the same nodes behind it. -/
theorem Lockstep.resolveBypassed (hr : g.Lockstep f extra h) (hclosed : g.Closed) (limit : Int) :
    (g.resolveBypassed limit).graph.Relinked f extra (h.resolveBypassed limit).graph where
  entries := hr.entries_resolveBypassed hclosed limit
  rest := hr.rest_resolveBypassed limit
  active := hr.active

end Graph

end NodeFlow
