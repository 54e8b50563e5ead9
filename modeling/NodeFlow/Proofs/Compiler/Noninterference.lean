import NodeFlow.Proofs.Compiler.Each
import NodeFlow.Proofs.Compiler.Lookalike
/-!
# Values do not interfere with structure

What a request fills a template with decides the values of literals in the
compiled workflow and nothing else. The passes behind the filling in respect
having one skeleton, so two requests with the same chain lead to the same
nodes, links and removed nodes, and to the same verdict. Chains on noise
paths are left out: where they go in is up to a classifier, and the usual one
looks at a literal, the first step of a sampler.
-/

namespace NodeFlow

open Bypass

/-! ## Workflows that differ in values -/

/-- Both hold a literal, or both hold the same. -/
def InputValue.SameButValue (v w : InputValue) : Prop :=
  (∃ a b, v = .literal a ∧ w = .literal b) ∨ v = w

/-- Nodes that differ in the values of their literals at most. -/
structure Node.SameButValues (n m : Node) : Prop where
  id : n.id = m.id
  classType : n.classType = m.classType
  mode : n.mode = m.mode
  title : n.title = m.title
  outputs : n.outputs = m.outputs
  /-- The inputs have the same names, in the same order. -/
  names : n.inputs.keys = m.inputs.keys
  inputs : ∀ name v w, n.inputs.get? name = some v → m.inputs.get? name = some w →
    v.SameButValue w

/-- Workflows that differ in the values of literals at most. -/
structure Graph.SameButValues (g h : Graph) : Prop where
  /-- The nodes stand under the same keys, in the same order. -/
  keys : g.nodes.keys = h.nodes.keys
  nodes : ∀ key n m, g.node? key = some n → h.node? key = some m → n.SameButValues m
  edges : g.edges = h.edges
  groups : g.groups = h.groups
  notes : g.notes = h.notes
  wrapped : g.wrapped = h.wrapped
  metadata : g.metadata = h.metadata

theorem InputValue.sameButValue_of_skeleton_eq {v w : InputValue} (h : v.skeleton = w.skeleton) :
    v.SameButValue w := by
  cases v with
  | literal a =>
    cases w with
    | literal b => exact Or.inl ⟨a, b, rfl, rfl⟩
    | connection source output => cases h
    | slot type => cases h
  | connection source output =>
    cases w with
    | literal b => cases h
    | connection source' output' => exact Or.inr h
    | slot type => cases h
  | slot type =>
    cases w with
    | literal b => cases h
    | connection source output => cases h
    | slot type' => exact Or.inr h

theorem Node.sameButValues_of_skeleton_eq {n m : Node} (h : n.skeleton = m.skeleton) :
    n.SameButValues m := by
  have hfields := h
  simp only [skeleton, mk.injEq] at hfields
  obtain ⟨hid, hclass, hinputs, htitle, hmode, houtputs⟩ := hfields
  refine ⟨hid, hclass, hmode, htitle, houtputs, ?_, ?_⟩
  · have hkeys := congrArg Dict.keys hinputs
    rwa [Dict.keys_map, Dict.keys_map] at hkeys
  · intro name v w hv hw
    have hget := congrArg (fun d => d.get? name) hinputs
    simp only [Dict.get?_map, hv, hw, Option.map_some, Option.some.injEq] at hget
    exact InputValue.sameButValue_of_skeleton_eq hget

namespace Graph

variable {g h : Graph} {limit : Int}

theorem frame_eq_of_skeleton_eq (heq : g.skeleton = h.skeleton) : g.frame = h.frame :=
  congrArg (fun k : Graph => ({ nodes := k.nodes } : Graph)) heq

/-- **Workflows with one skeleton differ in the values of literals at most.** -/
theorem sameButValues_of_skeleton_eq (heq : g.skeleton = h.skeleton) : g.SameButValues h := by
  have hframe := frame_eq_of_skeleton_eq heq
  have hfields := heq
  simp only [skeleton, mapNodes, mk.injEq] at hfields
  obtain ⟨-, hgroups, hnotes, hwrapped, hmetadata⟩ := hfields
  refine ⟨?_, ?_, ?_, hgroups, hnotes, hwrapped, hmetadata⟩
  · rw [← keys_skeleton, heq, keys_skeleton]
  · intro key n m hn hm
    have hnode : (g.node? key).map Node.skeleton = (h.node? key).map Node.skeleton := by
      rw [← node?_skeleton, heq, node?_skeleton]
    rw [hn, hm] at hnode
    exact Node.sameButValues_of_skeleton_eq (Option.some.inj hnode)
  · rw [← edges_frame, hframe, edges_frame]

/-! ## The passes respect skeletons -/

theorem frame_skeleton (g : Graph) : g.skeleton.frame = g.frame := by
  simp [frame, skeleton, mapNodes, Dict.map_map]

theorem skeleton_put (g : Graph) (n : Node) : (g.put n).skeleton = g.skeleton.put n.skeleton := by
  rw [skeleton, put, mapNodes, Dict.map_insert]
  rfl

theorem skeleton_setInput (g : Graph) (id input : String) (v : InputValue) :
    (g.setInput id input v).skeleton = g.skeleton.setInput id input v.skeleton := by
  simp only [skeleton, setInput, modify, mapNodes, Dict.modify, Dict.map_map]
  congr 2
  funext key n
  split
  · exact n.skeleton_setInput_eq input v
  · rfl

theorem resolveInput_skeleton (g : Graph) (limit : Int) (input : String) (v : InputValue) :
    g.skeleton.resolveInput limit input v.skeleton =
      (g.resolveInput limit input v).map InputValue.skeleton := by
  cases v with
  | literal a => rfl
  | slot type => rfl
  | connection source output =>
    have hv : (InputValue.connection source output).skeleton = .connection source output := rfl
    rw [hv, resolveInput, resolveInput, isBypassedAt_congr g.frame_skeleton,
      resolution_congr g.frame_skeleton]
    cases (g.resolution limit input ⟨source, output⟩).link? <;> split <;> rfl

theorem skeleton_resolveNode (g : Graph) (limit : Int) (n : Node) :
    (g.resolveNode limit n).skeleton = g.skeleton.resolveNode limit n.skeleton := by
  have hid : n.skeleton.id = n.id := rfl
  rw [resolveNode, resolveNode, hid, isBypassedAt_congr g.frame_skeleton]
  split
  · rfl
  · have hinputs : (n.inputs.filterMap (g.resolveInput limit)).map (fun _ v => v.skeleton) =
        (n.inputs.map fun _ v => v.skeleton).filterMap (g.skeleton.resolveInput limit) := by
      rw [Dict.map_filterMap, Dict.filterMap_map]
      simp only [resolveInput_skeleton]
    simp only [Node.skeleton, hinputs]

/-- **Resolving bypassed nodes respects skeletons.** -/
theorem skeleton_resolveBypassed (g : Graph) (limit : Int) :
    (g.resolveBypassed limit).graph.skeleton = (g.skeleton.resolveBypassed limit).graph := by
  have hnodes : (g.withoutBypassed limit).skeleton.nodes =
      (g.skeleton.withoutBypassed limit).nodes := by
    simp only [withoutBypassed, skeleton, mapNodes, Dict.filter_map, Dict.map_map]
    simp only [skeleton_resolveNode, Node.isBypassed_skeleton]
    rfl
  rw [resolveBypassed, resolveBypassed, bypassedIds_congr g.frame_skeleton]
  split
  · rfl
  · have hgroups : g.skeleton.liveGroups = g.liveGroups := by
      simp only [liveGroups, isBypassedAt_congr g.frame_skeleton]
      rfl
    have hrest : (g.withoutBypassed limit).skeleton =
        { g with nodes := (g.withoutBypassed limit).skeleton.nodes, groups := g.liveGroups } := rfl
    dsimp only
    rw [hrest, hnodes, ← hgroups]
    rfl

theorem lookalike_skeleton : Lookalike fun g h => g.skeleton = h.skeleton where
  frame := frame_eq_of_skeleton_eq
  put heq n := by rw [skeleton_put, heq, skeleton_put]
  setInput heq id input v := by rw [skeleton_setInput, heq, skeleton_setInput]
  resolveBypassed heq limit := by rw [skeleton_resolveBypassed, heq, skeleton_resolveBypassed]

end Graph

/-! ## Two compilations of one template -/

namespace Submission

open NodeFlow.Graph

variable {s s' : Submission} {strict strict' : Bool} {c c' : Compiled}

/-- Without chains on noise paths, the classifier is never asked. -/
theorem classifies_of_nil {R : Graph → Graph → Prop} (hhigh : s.request.highChain = [])
    (hlow : s.request.lowChain = []) : s.Classifies R := by
  intro hne
  rcases hne with hne | hne
  · exact absurd hhigh hne
  · exact absurd hlow hne

/-- **Values do not interfere with structure.** Let two requests have the same chain and none on
noise paths, and differ in values, overrides and seeds as they like. If both compile a template,
then the compiled workflows differ in the values of literals at most; the same is wrong with them,
the same nodes were removed, and the same warnings were given about it. -/
theorem sameButValues_compile (g : Graph) (hs : s.SameChains s')
    (hhigh : s.request.highChain = []) (hlow : s.request.lowChain = [])
    (hc : (s.compile g strict).result = .ok c) (hc' : (s'.compile g strict').result = .ok c') :
    ∃ r r' : Bypass.Result,
      (s.run g).result = .ok r ∧ c.graph = some r.graph ∧
        c.warnings = g.fillWarnings s.request.values ++ r.warnings ∧
      (s'.run g).result = .ok r' ∧ c'.graph = some r'.graph ∧
        c'.warnings = g.fillWarnings s'.request.values ++ r'.warnings ∧
      r.graph.SameButValues r'.graph ∧ c.errors = c'.errors ∧ r.removed = r'.removed ∧
      r.warnings = r'.warnings := by
  obtain ⟨k, hk, hcompiled⟩ := exists_run_of_compile s g strict hc
  obtain ⟨k', hk', hcompiled'⟩ := exists_run_of_compile s' g strict' hc'
  have hrun := result_run_of_assemble s g hk
  have hrun' := result_run_of_assemble s' g hk'
  obtain ⟨f, hfilled⟩ := exists_filled_of_assemble hk
  obtain ⟨f', hfilled'⟩ := exists_filled_of_assemble hk'
  have hsame : Agree (fun g h => g.skeleton = h.skeleton) (s.filled g).result
      (s'.filled g).result := by
    rw [hfilled, hfilled']
    exact .ok ((skeleton_filled hfilled).trans (skeleton_filled hfilled').symm)
  have hagree := lookalike_skeleton.run hs (classifies_of_nil hhigh hlow) hsame
  rw [hrun, hrun'] at hagree
  have halike := hagree.of_ok
  exact ⟨_, _, hrun, hcompiled.graph, hcompiled.warnings, hrun', hcompiled'.graph,
    hcompiled'.warnings, sameButValues_of_skeleton_eq halike.graph,
    lookalike_skeleton.errors hs halike hcompiled hcompiled', halike.removed, halike.warnings⟩

/-- A loader, a bypassed modifier, and a sampler that it feeds twice, with a placeholder and a
seed. -/
def passedTemplate : Graph where
  nodes := .ofList [
    ("1", { id := "1", classType := "UNETLoader" }),
    ("2", { id := "2", classType := "LoraLoaderModelOnly", mode := 4
            inputs := .ofList [("model", .connection "1" 0)] }),
    ("3", { id := "3", classType := "KSampler"
            inputs := .ofList [("model", .connection "2" 0), ("anything", .connection "2" 1),
              ("text", .literal (.str "\x7b\x7bpositive_prompt\x7d\x7d")),
              ("seed", .literal (.int 7))] })]

/-- One modifier, a prompt and a seed. -/
def plainPrompt : Submission where
  cfg := {}
  schema := .empty
  request :=
    { values := [("positive_prompt", .str "a cat")], seed := some 1, chain := [⟨"a", .one⟩] }
  classifier := .usual {}

/-- The same modifier, a prompt that is shaped like a connection, and an override of the seed. -/
def linkLikePrompt : Submission :=
  { plainPrompt with
    request :=
      { values := [("positive_prompt", .arr [.str "2", .int 0])]
        overrides := [("3", [("seed", .arr []), ("model", .null)])]
        chain := [⟨"a", .one⟩] } }

/-- Two prompts for one template, one of them shaped like a connection: the documents differ, and
not in their structure. -/
theorem passedTemplate_sameButValues :
    plainPrompt.SameChains linkLikePrompt ∧ plainPrompt.request.highChain = [] ∧
      plainPrompt.request.lowChain = [] ∧
      ∃ c c' k k', (plainPrompt.compile passedTemplate false).result = .ok c ∧
        (linkLikePrompt.compile passedTemplate false).result = .ok c' ∧
        c.graph = some k ∧ c'.graph = some k' ∧ k.SameButValues k' ∧ c.errors = c'.errors ∧
        c.document ≠ c'.document := by
  have hs : plainPrompt.SameChains linkLikePrompt := ⟨rfl, rfl, rfl, rfl, rfl, rfl⟩
  have hreturns : (plainPrompt.compile passedTemplate false).result.toOption.isSome ∧
      (linkLikePrompt.compile passedTemplate false).result.toOption.isSome := by
    decide +kernel
  obtain ⟨c, hc⟩ := Option.isSome_iff_exists.1 hreturns.1
  obtain ⟨c', hc'⟩ := Option.isSome_iff_exists.1 hreturns.2
  have hdiffer :
      ((plainPrompt.compile passedTemplate false).result.map Compiled.document).toOption ≠
        ((linkLikePrompt.compile passedTemplate false).result.map Compiled.document).toOption := by
    decide +kernel
  have hok := eq_ok_of_toOption hc
  have hok' := eq_ok_of_toOption hc'
  obtain ⟨r, r', -, hk, -, -, hk', -, hsame, herrors, -, -⟩ :=
    sameButValues_compile passedTemplate hs rfl rfl hok hok'
  refine ⟨hs, rfl, rfl, c, c', _, _, hok, hok', hk, hk', hsame, herrors, ?_⟩
  intro hdocuments
  rw [hok, hok'] at hdiffer
  exact hdiffer (congrArg some hdocuments)

end Submission

end NodeFlow
