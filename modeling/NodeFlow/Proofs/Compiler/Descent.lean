import NodeFlow.Proofs.Bypass.Simulation
import NodeFlow.Proofs.Mapping.Undoing
import NodeFlow.Proofs.Modifier.Hygiene
import NodeFlow.Proofs.Template.Skeleton
/-!
# What passes keep of a workflow

Values, seeds, overrides and placeholders change inputs and nothing else; a
chain adds nodes that are not bypassed; resolving bypassed nodes takes these
out, of the workflow and of its groups. `Descends` is what all passes have in
common. It composes, so it holds of any sequence of passes, with all that was
taken out on the way.
-/

namespace NodeFlow

/-! ## Groups -/

/-- A group without some of its members. -/
def Group.without (gone : List String) (gr : Group) : Group :=
  { gr with members := gr.members.filter fun m => m ∉ gone }

theorem Group.without_without (gone gone' : List String) (gr : Group) :
    (gr.without gone).without gone' = gr.without (gone ++ gone') := by
  have hmem : ∀ m, (decide (m ∉ gone) && decide (m ∉ gone')) = decide (m ∉ gone ++ gone') := by
    intro m
    rw [← Bool.decide_and]
    simp [not_or]
  simp only [without, List.filter_filter, ← hmem, Bool.and_comm]

/-- A group that has members left had some before. -/
theorem Group.isEmpty_members_of_without {gone : List String} {gr : Group}
    (h : (gr.without gone).members.isEmpty = false) : gr.members.isEmpty = false := by
  rw [List.isEmpty_eq_false_iff] at h ⊢
  rintro hnil
  exact h (by rw [Group.without, hnil]; rfl)

namespace Graph

variable {g h k : Graph} {gone gone' : List String} {cfg : CompilerSettings} {chain : Chain}
variable {id : String}

/-- The groups without some of their members; where any node is gone, groups without members are
dropped. -/
def groupsLeft (gone : List String) (groups : List Group) : List Group :=
  if gone.isEmpty then groups
  else (groups.map (Group.without gone)).filter fun gr => !gr.members.isEmpty

theorem groupsLeft_nil (groups : List Group) : groupsLeft [] groups = groups := rfl

/-- Taking nodes out one after the other is taking them out together. -/
theorem groupsLeft_groupsLeft (gone gone' : List String) (groups : List Group) :
    groupsLeft gone' (groupsLeft gone groups) = groupsLeft (gone ++ gone') groups := by
  by_cases hgone : gone = []
  · rw [hgone, groupsLeft_nil, List.nil_append]
  by_cases hgone' : gone' = []
  · rw [hgone', groupsLeft_nil, List.append_nil]
  have hboth : (gone ++ gone').isEmpty = false := by simp [hgone]
  rw [groupsLeft, groupsLeft, groupsLeft, hboth, List.isEmpty_eq_false_iff.2 hgone,
    List.isEmpty_eq_false_iff.2 hgone']
  -- a group that is dropped at first would be dropped in the end
  have hlater : ∀ gr : Group, (!(gr.without (gone ++ gone')).members.isEmpty &&
      !(gr.without gone).members.isEmpty) = !(gr.without (gone ++ gone')).members.isEmpty := by
    intro gr
    rw [Bool.and_eq_left_iff_imp, Bool.not_eq_true', Bool.not_eq_true', ← Group.without_without]
    exact Group.isEmpty_members_of_without
  simp only [Bool.false_eq_true, if_false, List.filter_map, List.map_map, List.filter_filter,
    Function.comp_def, hlater, Group.without_without]

/-- Resolving takes the bypassed nodes out of the groups. -/
theorem groups_resolveBypassed (g : Graph) (limit : Int) :
    (g.resolveBypassed limit).graph.groups = groupsLeft g.bypassedIds g.groups := by
  rw [resolveBypassed, groupsLeft]
  split
  · rfl
  · show g.liveGroups = _
    have hlive : ∀ m, (!g.isBypassedAt m) = decide (m ∉ g.bypassedIds) := by
      intro m
      rw [Bool.eq_iff_iff]
      simp [← isBypassedAt_iff_mem]
    simp only [liveGroups, hlive]
    rfl

/-! ## Passes -/

/-- What a workflow keeps of the one it was made of, when nodes are taken out. -/
structure Descends (g h : Graph) (gone : List String) : Prop where
  /-- Nodes still stand under their ids. -/
  keyed : g.WellKeyed → h.WellKeyed
  wrapped : h.wrapped = g.wrapped
  notes : h.notes = g.notes
  metadata : h.metadata = g.metadata
  groups : h.groups = groupsLeft gone g.groups
  /-- What was taken out was bypassed. -/
  removed : ∀ id ∈ gone, g.isBypassedAt id
  /-- What is bypassed was so before and is not taken out. -/
  bypassed : ∀ id, h.isBypassedAt id → g.isBypassedAt id

theorem Descends.refl (g : Graph) : g.Descends g [] where
  keyed hk := hk
  wrapped := rfl
  notes := rfl
  metadata := rfl
  groups := rfl
  removed := nofun
  bypassed _ hid := hid

theorem Descends.trans (hgh : g.Descends h gone) (hhk : h.Descends k gone') :
    g.Descends k (gone ++ gone') where
  keyed hk := hhk.keyed (hgh.keyed hk)
  wrapped := hhk.wrapped.trans hgh.wrapped
  notes := hhk.notes.trans hgh.notes
  metadata := hhk.metadata.trans hgh.metadata
  groups := by rw [hhk.groups, hgh.groups, groupsLeft_groupsLeft]
  removed id hid := by
    rcases List.mem_append.1 hid with hid | hid
    · exact hgh.removed id hid
    · exact hgh.bypassed id (hhk.removed id hid)
  bypassed id hid := hgh.bypassed id (hhk.bypassed id hid)

/-! ### Inputs alone -/

theorem map_shell_node? (heq : h.shell = g.shell) (id : String) :
    (h.node? id).map Node.shell = (g.node? id).map Node.shell := by
  rw [← node?_mapNodes, ← node?_mapNodes]
  exact congrArg (fun g : Graph => g.node? id) heq

/-- A node of one workflow is one of the other, but for its inputs. -/
theorem exists_node?_of_shell {p : Node} (heq : h.shell = g.shell) (hp : h.node? id = some p) :
    ∃ q, g.node? id = some q ∧ q.shell = p.shell := by
  have hmap := map_shell_node? heq id
  rw [hp] at hmap
  exact Option.map_eq_some_iff.1 hmap.symm

/-- **A pass that changes inputs alone.** -/
theorem descends_of_shell (heq : h.shell = g.shell) : g.Descends h [] where
  keyed hk := by
    refine wellKeyed_iff.2 fun id p hp => ?_
    obtain ⟨q, hq, hshell⟩ := exists_node?_of_shell heq hp
    rw [← hk.id_eq hq]
    exact (congrArg Node.id hshell).symm
  wrapped := (congrArg Graph.wrapped heq :)
  notes := (congrArg Graph.notes heq :)
  metadata := (congrArg Graph.metadata heq :)
  groups := (congrArg Graph.groups heq :)
  removed := nofun
  bypassed id hid := by
    obtain ⟨p, hp⟩ := has_iff.1 (has_of_isBypassedAt hid)
    obtain ⟨q, hq, hshell⟩ := exists_node?_of_shell heq hp
    rw [isBypassedAt_of_node? hp] at hid
    rw [isBypassedAt_of_node? hq, ← hid]
    exact (congrArg Node.isBypassed hshell :)

theorem shell_skeleton (g : Graph) : g.skeleton.shell = g.shell := by
  rw [shell, shell, skeleton, mapNodes, mapNodes, mapNodes, Dict.map_map]
  rfl

theorem descends_of_skeleton (heq : h.skeleton = g.skeleton) : g.Descends h [] :=
  descends_of_shell (by rw [← shell_skeleton h, heq, shell_skeleton])

theorem descends_of_outline (heq : h.outline = g.outline) : g.Descends h [] :=
  descends_of_shell (by rw [← shell_outline h, heq, shell_outline])

theorem shell_setInput (g : Graph) (id input : String) (v : InputValue) :
    (g.setInput id input v).shell = g.shell := by
  rw [shell, shell, setInput, modify, mapNodes, mapNodes, Dict.modify, Dict.map_map]
  congr 2
  funext key p
  split <;> rfl

/-! ### Chains -/

/-- Nodes that are put behind those of a workflow, none of them bypassed. -/
theorem descends_of_entries {extra : List (String × Node)}
    (hentries : h.nodes.entries = g.nodes.entries ++ extra)
    (hrest : h = { g with nodes := h.nodes }) (hkeyed : ∀ e ∈ extra, e.2.id = e.1)
    (hactive : ∀ e ∈ extra, e.2.isBypassed = false) :
    g.Descends h [] where
  keyed hk e he := by
    rw [hentries, List.mem_append] at he
    exact he.elim (hk e) (hkeyed e)
  wrapped := by rw [hrest]
  notes := by rw [hrest]
  metadata := by rw [hrest]
  groups := by rw [hrest]; rfl
  removed := nofun
  bypassed id hid := by
    obtain ⟨p, hp⟩ := has_iff.1 (has_of_isBypassedAt hid)
    rw [isBypassedAt_of_node? hp] at hid
    rcases (node?_longer hentries).1 hp with hold | hnew
    · rwa [isBypassedAt_of_node? hold]
    · have := hactive _ hnew
      simp [this] at hid

/-- **A splice** adds active nodes and wires inputs. -/
theorem descends_splice {source : String} {targets : List (String × String)}
    (hfloor : 0 ≤ cfg.injectedIdFloor) (hrun : g.splice cfg chain source targets = .ok h) :
    g.Descends h [] := by
  obtain ⟨n, hfirst⟩ := exists_nextId_of_splice hfloor hrun
  obtain ⟨longer, hentries, hrest, rfl⟩ := exists_longer_of_splice hfirst hrun
  have hrow : g.Descends longer [] :=
    descends_of_entries hentries hrest (fun e he => id_of_mem_row he)
      fun e he => isBypassed_of_mem_row he
  refine hrow.trans (descends_of_shell ?_)
  refine List.foldlRecOn (motive := fun k : Graph => k.shell = longer.shell) _ _ rfl ?_
  intro k hk t _
  rw [shell_setInput, hk]

theorem descends_spliceAt {site? : Option Site} {r : Option Graph}
    (hfloor : 0 ≤ cfg.injectedIdFloor) (hrun : g.spliceAt cfg chain site? = .ok r) :
    g.Descends (r.getD g) [] := by
  cases r with
  | none => exact Descends.refl g
  | some h =>
    obtain ⟨site, -, hsplice⟩ := exists_of_spliceAt hrun
    exact descends_splice hfloor hsplice

/-! ### Bypassed nodes -/

/-- **Resolving takes the bypassed nodes out**, and changes inputs. -/
theorem descends_resolveBypassed (g : Graph) (limit : Int) :
    g.Descends (g.resolveBypassed limit).graph (g.resolveBypassed limit).removed where
  keyed hk := hk.resolveBypassed limit
  wrapped := (congrArg Graph.wrapped (rest_resolveBypassed g limit) :)
  notes := (congrArg Graph.notes (rest_resolveBypassed g limit) :)
  metadata := (congrArg Graph.metadata (rest_resolveBypassed g limit) :)
  groups := by rw [removed_resolveBypassed, groups_resolveBypassed]
  removed id hid := by
    rw [removed_resolveBypassed] at hid
    exact isBypassedAt_iff_mem.2 hid
  bypassed id hid := by
    rw [isBypassedAt_resolveBypassed] at hid
    cases hid

end Graph

end NodeFlow
