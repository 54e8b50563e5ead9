import NodeFlow.Proofs.Bypass.Simulation
import NodeFlow.Proofs.Modifier.Site
import NodeFlow.Proofs.Template.Skeleton
import NodeFlow.Proofs.Validation.Cycle
import NodeFlow.Validation.Verdict
/-!
# What the passes read of a workflow

Once a template is filled in, the passes look at its nodes and at nothing
else, and of a literal they see that it is one. What they read is the `frame`
of a workflow: every function they are made of has the same result on a
workflow and on its frame, so that what is found out about one workflow holds
of every other one with the same frame.
-/

namespace NodeFlow

open Bypass

/-! ## One node -/

@[simp] theorem InputValue.skeleton_skeleton (v : InputValue) :
    v.skeleton.skeleton = v.skeleton := by
  cases v <;> rfl

namespace Node

@[simp] theorem skeleton_skeleton (n : Node) : n.skeleton.skeleton = n.skeleton := by
  simp [skeleton, Dict.map_map]

@[simp] theorem isBypassed_skeleton (n : Node) : n.skeleton.isBypassed = n.isBypassed := rfl

/-- A value that is forgotten was no link. -/
@[simp] theorem links_skeleton (n : Node) : n.skeleton.links = n.links := by
  rw [links, links, skeleton, Dict.map, List.filterMap_map]
  refine List.filterMap_congr fun e _ => ?_
  obtain ⟨name, v⟩ := e
  cases v <;> rfl

theorem skeleton_setInput_eq (n : Node) (name : String) (v : InputValue) :
    (n.setInput name v).skeleton = n.skeleton.setInput name v.skeleton := by
  rw [skeleton, setInput, Dict.map_insert]
  rfl

end Node

namespace Graph

/-- What the passes read of a workflow: its nodes, with the values of literals forgotten. -/
def frame (g : Graph) : Graph := { nodes := g.skeleton.nodes }

theorem nodeList_frame (g : Graph) : g.frame.nodeList = g.nodeList.map Node.skeleton := by
  simp [frame, skeleton, mapNodes, nodeList, Dict.values, Dict.map, Function.comp_def]

theorem keys_frame (g : Graph) : g.frame.nodes.keys = g.nodes.keys := g.keys_skeleton

theorem node?_frame (g : Graph) (id : String) :
    g.frame.node? id = (g.node? id).map Node.skeleton := g.node?_skeleton id

theorem has_frame (g : Graph) (id : String) : g.frame.has id = g.has id := by
  rw [has, has, Dict.contains, Dict.contains]
  exact (congrArg Option.isSome (g.node?_frame id)).trans Option.isSome_map

theorem nodeList_flatMap_frame {β : Type} {F : Node → List β} (g : Graph)
    (hF : ∀ n, F n.skeleton = F n) : g.frame.nodeList.flatMap F = g.nodeList.flatMap F := by
  rw [nodeList_frame, List.flatMap_map]
  simp only [hF]

theorem edges_frame (g : Graph) : g.frame.edges = g.edges :=
  g.nodeList_flatMap_frame fun n => by rw [n.links_skeleton]; rfl

/-! ## Putting chains in -/

theorem nextId_frame (g : Graph) (floor : Int) : g.frame.nextId floor = g.nextId floor := by
  rw [nextId, nextId, keys_frame]

theorem ofType_frame (g : Graph) (classType : String) :
    g.frame.ofType classType = (g.ofType classType).map Node.skeleton := by
  rw [ofType, ofType, nodeList_frame, List.filter_map]
  rfl

theorem modelSource?_frame (cfg : CompilerSettings) (g : Graph) :
    g.frame.modelSource? cfg = (g.modelSource? cfg).map Node.skeleton := by
  rw [modelSource?, modelSource?]
  induction cfg.modelSourceClassTypes with
  | nil => rfl
  | cons c cs ih =>
    rw [List.findSome?_cons, List.findSome?_cons, ofType_frame, List.head?_map, ih]
    cases (g.ofType c).head? <;> rfl

theorem consumers_frame (g : Graph) (source : String) :
    g.frame.consumers source = g.consumers source :=
  g.nodeList_flatMap_frame fun n => by rw [n.links_skeleton]; rfl

/-- **A chain goes in behind the same node, for the same inputs.** -/
theorem injectionSite?_frame (cfg : CompilerSettings) (g : Graph) (chain : Chain) :
    g.frame.injectionSite? cfg chain = g.injectionSite? cfg chain := by
  rw [injectionSite?, injectionSite?, modelSource?_frame]
  cases g.modelSource? cfg with
  | none => rfl
  | some n =>
    have hid : n.skeleton.id = n.id := rfl
    rw [Option.map_some, Option.bind_some, Option.bind_some, consumers_frame, hid]

theorem feedingModifier?_frame (cfg : CompilerSettings) (g : Graph) (n : Node) :
    g.frame.feedingModifier? cfg n.skeleton = (g.feedingModifier? cfg n).map Node.skeleton := by
  rw [feedingModifier?, feedingModifier?, Node.link?_skeleton]
  cases n.link? "model" with
  | none => rfl
  | some l =>
    rw [Option.bind_some, Option.bind_some, node?_frame]
    cases g.node? l.source with
    | none => rfl
    | some m =>
      by_cases hm : m.classType = cfg.modifierClassType <;>
        simp [Option.filter, Node.skeleton, hm]

/-- **The site of an extension is that in the frame**, for the answers that the classifier gives
about the workflow itself. -/
theorem extensionSite?_frame (cfg : CompilerSettings) (g : Graph) (path : NoisePath)
    (c : Classifier) :
    g.frame.extensionSite? cfg path ⟨fun _ => c.classify g⟩ =
      (g.extensionSite? cfg path c).map fun s => (s.1.skeleton, s.2.skeleton) := by
  rw [extensionSite?, extensionSite?, ofType_frame, List.findSome?_map, List.map_findSome?]
  congr 1
  funext n
  rw [Function.comp_apply, Function.comp_apply, feedingModifier?_frame]
  cases g.feedingModifier? cfg n with
  | none => rfl
  | some m =>
    show (if (c.classify g n.id).contains path then some (n.skeleton, m.skeleton) else none) =
      (if (c.classify g n.id).contains path then some (n, m) else none).map _
    split <;> rfl

theorem extendingSite?_frame (cfg : CompilerSettings) (g : Graph) (chain : Chain) (path : NoisePath)
    (c : Classifier) :
    g.frame.extendingSite? cfg chain path ⟨fun _ => c.classify g⟩ =
      g.extendingSite? cfg chain path c := by
  rw [extendingSite?, extendingSite?, extensionSite?_frame, Option.map_map]
  rfl

/-! ## Resolving bypassed nodes -/

theorem isBypassedAt_frame (g : Graph) (id : String) :
    g.frame.isBypassedAt id = g.isBypassedAt id := by
  rw [isBypassedAt, isBypassedAt, node?_frame]
  cases g.node? id <;> rfl

theorem bypassedIds_frame (g : Graph) : g.frame.bypassedIds = g.bypassedIds := by
  rw [bypassedIds_eq, bypassedIds_eq, keys_frame]
  exact List.filter_congr fun id _ => g.isBypassedAt_frame id

theorem passedOn?_frame (g : Graph) (id type : String) :
    g.frame.passedOn? id type = g.passedOn? id type := by
  rw [passedOn?, passedOn?, node?_frame]
  cases g.node? id with
  | none => rfl
  | some n => rw [Option.map_some, Option.bind_some, Option.bind_some, Node.links_skeleton]

/-- **A walk goes the same way in the frame.** -/
theorem walk_frame (g : Graph) (type : String) (steps : Nat) (l : Link) :
    g.frame.walk type steps l = g.walk type steps l := by
  induction steps generalizing l with
  | zero => rfl
  | succ steps ih =>
    rw [walk, walk, isBypassedAt_frame, passedOn?_frame, has_frame]
    cases g.passedOn? l.source type with
    | none => rfl
    | some next => simp only [ih]

theorem resolution_frame (g : Graph) (limit : Int) (input : String) (l : Link) :
    g.frame.resolution limit input l = g.resolution limit input l := by
  rw [resolution, resolution]
  cases typeOfName? input with
  | none => rfl
  | some type => simp only [walk_frame]

theorem resolutions_frame (g : Graph) (limit : Int) (n : Node) :
    g.frame.resolutions limit n.skeleton = g.resolutions limit n := by
  simp only [resolutions, isBypassedAt_frame, Node.links_skeleton, resolution_frame]
  rfl

theorem removed_frame (g : Graph) (limit : Int) :
    (g.frame.resolveBypassed limit).removed = (g.resolveBypassed limit).removed := by
  rw [removed_resolveBypassed, removed_resolveBypassed, bypassedIds_frame]

theorem warnings_frame (g : Graph) (limit : Int) :
    (g.frame.resolveBypassed limit).warnings = (g.resolveBypassed limit).warnings := by
  rw [warnings_resolveBypassed, warnings_resolveBypassed, nodeList_frame, List.flatMap_map]
  simp only [resolutions_frame]
  rfl

/-! ## Workflows with one frame -/

variable {g h : Graph}

theorem isBypassedAt_congr (heq : g.frame = h.frame) (id : String) :
    g.isBypassedAt id = h.isBypassedAt id := by
  rw [← isBypassedAt_frame, heq, isBypassedAt_frame]

theorem bypassedIds_congr (heq : g.frame = h.frame) : g.bypassedIds = h.bypassedIds := by
  rw [← bypassedIds_frame, heq, bypassedIds_frame]

theorem resolution_congr (heq : g.frame = h.frame) (limit : Int) (input : String) (l : Link) :
    g.resolution limit input l = h.resolution limit input l := by
  rw [← resolution_frame, heq, resolution_frame]

theorem resolveNode_congr (heq : g.frame = h.frame) (limit : Int) (n : Node) :
    g.resolveNode limit n = h.resolveNode limit n := by
  have hinput : g.resolveInput limit = h.resolveInput limit := by
    funext input v
    cases v with
    | literal value => rfl
    | slot type => rfl
    | connection source output =>
      rw [resolveInput, resolveInput, isBypassedAt_congr heq, resolution_congr heq]
  rw [resolveNode, resolveNode, isBypassedAt_congr heq, hinput]

/-! ## The verdict -/

theorem linkError?_frame (g : Graph) (schema : Schema) (n : Node) (input : String) (l : Link) :
    g.frame.linkError? schema n.skeleton input l = g.linkError? schema n input l := by
  rw [linkError?, linkError?, node?_frame]
  cases g.node? l.source <;> rfl

theorem linkErrors_frame (g : Graph) (schema : Schema) :
    g.frame.linkErrors schema = g.linkErrors schema := by
  rw [linkErrors, linkErrors, nodeList_frame, List.flatMap_map]
  simp only [Node.links_skeleton, linkError?_frame]

theorem dependencies_frame (g : Graph) (id : String) :
    g.frame.dependencies id = g.dependencies id := by
  have hhas : g.frame.has = g.has := funext g.has_frame
  rw [dependencies, dependencies, node?_frame, hhas]
  cases g.node? id with
  | none => rfl
  | some n => simp only [Option.map_some, Node.links_skeleton]

/-- **The verdict on a workflow is that on its frame.** -/
theorem structureErrors_frame (g : Graph) (schema : Schema) :
    g.frame.structureErrors schema = g.structureErrors schema := by
  have hempty : g.frame.nodes.isEmpty = g.nodes.isEmpty := by
    simp [frame, skeleton, mapNodes, Dict.isEmpty, Dict.map]
  rw [structureErrors, structureErrors, hempty, linkErrors_frame,
    cycle?_congr g.keys_frame g.dependencies_frame]

end Graph

end NodeFlow
