import NodeFlow.Proofs.Compiler.Descent
import NodeFlow.Proofs.Compiler.Passes
import NodeFlow.Proofs.Layout.Represents
import NodeFlow.Proofs.Validation.Table
/-!
# Workflows that passes lead to

Whatever passes are run on a workflow that was loaded, in whatever order and
however often, its nodes stand under their ids and its document keeps its
shape (`Loaded.keepsShape`). Every pass is a step that descends from the
workflow before it, so a run of them descends from the workflow that was
loaded, with all nodes that were taken out on the way. Compiling is one such
run (`Submission.run_passes`).
-/

namespace NodeFlow

/-! ## Loading -/

/-- A workflow that was read from a document, imported from a layout, or is new. -/
inductive Loaded : Graph → Prop where
  | read {source : Json} {schema : Option Schema} {g : Graph}
      (hread : Graph.read source schema = .ok g) : Loaded g
  | imported {source : Json} {schema : Schema} {r : Imported}
      (himport : (Imported.ofLayout source schema).result = .ok r) : Loaded r.graph
  | new : Loaded .empty

/-- An import depends on the entries of its document alone. -/
theorem Imported.exists_ofLayout_obj {source : Json} {schema : Schema} {r : Imported}
    (h : (ofLayout source schema).result = .ok r) :
    ∃ document, (ofLayout (.obj document) schema).result = .ok r := by
  rw [ofLayout, Log.Traced.result_bind] at h
  obtain ⟨document, -, h⟩ := exists_of_bind_eq_ok h
  exact ⟨document, h⟩

/-- **Nodes are loaded under their ids.** -/
theorem Loaded.wellKeyed {g : Graph} (hg : Loaded g) : g.WellKeyed := by
  cases hg with
  | read hread =>
    obtain ⟨document, hdocument⟩ := Graph.exists_ofEntries_of_read hread
    exact Graph.wellKeyed_of_ofEntries hdocument
  | imported himport =>
    obtain ⟨document, hdocument⟩ := Imported.exists_ofLayout_obj himport
    obtain ⟨l, hl, htoGraph⟩ := Layout.exists_layout_of_ofLayout hdocument
    have hrepresents := Layout.represents_of_toGraph hl htoGraph
    exact Graph.wellKeyed_iff.2 fun key n hn => (hrepresents.keys key n hn).1
  | new => exact nofun

/-! ## Passes -/

/-- A pass over a workflow, with what it is given besides. -/
inductive Pass where
  /-- Takes out the bypassed nodes, with a limit of hops. -/
  | resolve (limit : Int)
  /-- Puts a chain behind the model source. -/
  | inject (cfg : CompilerSettings) (chain : Chain)
  /-- Puts a chain on a noise path. -/
  | extend (cfg : CompilerSettings) (chain : Chain) (path : NoisePath) (classifier : Classifier)
  /-- Fills in values. -/
  | fill (values : Fields)
  /-- Writes overrides. -/
  | override (overrides : Json)
  /-- Writes a seed. -/
  | seed (value : Json)
  /-- Writes placeholders into given targets. -/
  | place (targets : List Target)
  /-- Writes the placeholders of the chosen candidates. -/
  | placeChosen (mapping : Mapping)

/-- A workflow on its way, with the nodes that were taken out of it so far. -/
structure Stage where
  graph : Graph
  removed : List String := []
  deriving DecidableEq

/-- Where a pass numbers nodes from, if it adds any. -/
def Pass.floor? : Pass → Option Int
  | .inject cfg _ => some cfg.injectedIdFloor
  | .extend cfg _ _ _ => some cfg.injectedIdFloor
  | _ => none

/-- Runs a pass, which may fail. -/
def Pass.run (s : Stage) : Pass → Except Fault Stage
  | .resolve limit =>
    let r := s.graph.resolveBypassed limit
    .ok ⟨r.graph, s.removed ++ r.removed⟩
  | .inject cfg chain =>
    (s.graph.inject cfg chain).map fun r => { s with graph := r.getD s.graph }
  | .extend cfg chain path classifier =>
    (s.graph.extend cfg chain path classifier).map fun r => { s with graph := r.getD s.graph }
  | .fill values => (s.graph.fill values).map fun h => { s with graph := h }
  | .override overrides =>
    (Overrides.ofJson overrides).map fun o => { s with graph := s.graph.override o }
  | .seed value => .ok { s with graph := s.graph.withSeed value }
  | .place targets => .ok { s with graph := s.graph.writePlaceholders targets }
  | .placeChosen mapping =>
    mapping.targets.map fun targets => { s with graph := s.graph.writePlaceholders targets }

/-- Runs passes one after the other. -/
def Stage.run (s : Stage) (passes : List Pass) : Except Fault Stage := passes.foldlM Pass.run s

/-- **Step: every pass descends** from the workflow it was run on. -/
theorem Pass.exists_descends_run {s s' : Stage} {p : Pass} (hfloor : ∀ floor ∈ p.floor?, 0 ≤ floor)
    (hrun : p.run s = .ok s') :
    ∃ gone, s'.removed = s.removed ++ gone ∧ s.graph.Descends s'.graph gone := by
  -- all but resolving take nothing out
  have hkept : ∀ {h : Graph}, s.graph.Descends h [] →
      ∃ gone, s.removed = s.removed ++ gone ∧ s.graph.Descends h gone :=
    fun hd => ⟨[], (List.append_nil _).symm, hd⟩
  cases p with
  | resolve limit =>
    obtain rfl := Except.ok.inj hrun
    exact ⟨_, rfl, Graph.descends_resolveBypassed s.graph limit⟩
  | inject cfg chain =>
    obtain ⟨r, hr, rfl⟩ := exists_of_map_eq_ok hrun
    rw [Graph.inject_eq_spliceAt] at hr
    exact hkept (Graph.descends_spliceAt (hfloor _ rfl) hr)
  | extend cfg chain path classifier =>
    obtain ⟨r, hr, rfl⟩ := exists_of_map_eq_ok hrun
    rw [Graph.extend_eq_spliceAt] at hr
    exact hkept (Graph.descends_spliceAt (hfloor _ rfl) hr)
  | fill values =>
    obtain ⟨h, hfill, rfl⟩ := exists_of_map_eq_ok hrun
    exact hkept (Graph.descends_of_skeleton (Graph.skeleton_fill hfill))
  | override overrides =>
    obtain ⟨o, -, rfl⟩ := exists_of_map_eq_ok hrun
    exact hkept (Graph.descends_of_skeleton (Graph.skeleton_override s.graph o))
  | seed value =>
    obtain rfl := Except.ok.inj hrun
    exact hkept (Graph.descends_of_skeleton (Graph.skeleton_withSeed s.graph value))
  | place targets =>
    obtain rfl := Except.ok.inj hrun
    exact hkept (Graph.descends_of_outline (Graph.outline_writePlaceholders s.graph targets))
  | placeChosen mapping =>
    obtain ⟨targets, -, rfl⟩ := exists_of_map_eq_ok hrun
    exact hkept (Graph.descends_of_outline (Graph.outline_writePlaceholders s.graph targets))

/-- **Run: so does every sequence of passes**, with all that was taken out on the way. -/
theorem Stage.exists_descends_run {s s' : Stage} {passes : List Pass}
    (hfloor : ∀ p ∈ passes, ∀ floor ∈ p.floor?, 0 ≤ floor) (hrun : s.run passes = .ok s') :
    ∃ gone, s'.removed = s.removed ++ gone ∧ s.graph.Descends s'.graph gone := by
  induction passes generalizing s with
  | nil =>
    obtain rfl := Except.ok.inj hrun
    exact ⟨[], (List.append_nil _).symm, Graph.Descends.refl _⟩
  | cons p passes ih =>
    rw [Stage.run, List.foldlM_cons] at hrun
    obtain ⟨t, ht, hrest⟩ := exists_of_bind_eq_ok hrun
    obtain ⟨gone, hremoved, hstep⟩ := Pass.exists_descends_run (hfloor p (by simp)) ht
    obtain ⟨gone', hremoved', hlater⟩ := ih (fun q hq => hfloor q (List.mem_cons_of_mem _ hq)) hrest
    refine ⟨gone ++ gone', ?_, hstep.trans hlater⟩
    rw [hremoved', hremoved, List.append_assoc]

/-! ## The shape -/

namespace Graph

/-- What a workflow has in common with the one that was loaded, and what was taken out. -/
structure KeepsShape (g h : Graph) (removed : List String) : Prop where
  /-- Nodes stand under their ids. -/
  keyed : ∀ id n, h.node? id = some n → n.id = id
  /-- Every edge ends at a key. -/
  targets : ∀ e ∈ h.edges, h.has e.target
  /-- The search for cycles misses no entry of its table. -/
  searched : h.cycleByTable? = .ok h.cycle?
  wrapped : h.wrapped = g.wrapped
  notes : h.notes = g.notes
  metadata : h.metadata = g.metadata
  /-- What was taken out was bypassed. -/
  bypassed : ∀ id ∈ removed, g.isBypassedAt id
  /-- The groups are without what was taken out, and those left without members are dropped. -/
  groups : h.groups = groupsLeft removed g.groups

theorem keepsShape_of_descends {g h : Graph} {gone : List String} (hk : g.WellKeyed)
    (hgh : g.Descends h gone) : g.KeepsShape h gone where
  keyed := wellKeyed_iff.1 (hgh.keyed hk)
  targets _ he := has_of_linkAt? ((mem_edges_iff (hgh.keyed hk)).1 he)
  searched := cycleByTable?_eq (hgh.keyed hk)
  wrapped := hgh.wrapped
  notes := hgh.notes
  metadata := hgh.metadata
  bypassed := hgh.removed
  groups := hgh.groups

end Graph

/-- **Reachable workflows are well keyed and keep the shape of their document**, whatever passes
were run on what was loaded. -/
theorem Loaded.keepsShape {g : Graph} {passes : List Pass} {s : Stage} (hg : Loaded g)
    (hfloor : ∀ p ∈ passes, ∀ floor ∈ p.floor?, 0 ≤ floor)
    (hrun : Stage.run { graph := g } passes = .ok s) : g.KeepsShape s.graph s.removed := by
  obtain ⟨gone, hremoved, hdescends⟩ := Stage.exists_descends_run hfloor hrun
  obtain rfl : s.removed = gone := hremoved
  exact Graph.keepsShape_of_descends hg.wellKeyed hdescends

/-- A document with a bypassed node between a loader and a sampler. One group has the bypassed node
alone, the other also the sampler. -/
def groupedDocument : Json :=
  .obj [("nodes", .obj [
      ("1", .obj [("class_type", .str "UNETLoader")]),
      ("2", .obj [("class_type", .str "LoraLoaderModelOnly"), ("mode", .int 4),
        ("inputs", .obj [("model", .arr [.str "1", .int 0])])]),
      ("3", .obj [("class_type", .str "KSampler"),
        ("inputs", .obj [("model", .arr [.str "2", .int 0]), ("seed", .int 5),
          ("text", .str "a fox")])])]),
    ("groups", .arr [
      .obj [("id", .int 1), ("title", .str "skipped"), ("member_nodes", .arr [.str "2"])],
      .obj [("id", .int 2), ("title", .str "sampled"),
        ("member_nodes", .arr [.str "2", .str "3"])]]),
    ("version", .str "0.4")]

/-- Passes of every kind. -/
def allPasses : List Pass :=
  [.fill [("prompt", .str "a hare")], .override (.obj [("3", .obj [("seed", .int 6)])]),
    .seed (.int 7), .inject {} [Graph.lightModifier], .resolve 10,
    .extend {} [Graph.lightModifier] .high (.usual {}),
    .place [⟨.str "positive_text", "3", "text"⟩],
    .placeChosen { category := .textToImage }, .resolve 10]

/-- The hypotheses of `Loaded.keepsShape` are met by passes of every kind. The bypassed node is
taken out, and with it the group that it was alone in. -/
theorem keepsShape_grouped :
    ∃ g s, Loaded g ∧ (∀ p ∈ allPasses, ∀ floor ∈ p.floor?, 0 ≤ floor) ∧
      Stage.run { graph := g } allPasses = .ok s ∧ g.KeepsShape s.graph s.removed ∧
      s.removed = ["2"] ∧ s.graph.groups = [⟨.int 2, "sampled", ["3"]⟩] := by
  have hruns : ((Graph.read groupedDocument none >>= fun g =>
      Stage.run { graph := g } allPasses).toOption.map fun s => (s.removed, s.graph.groups)) =
        some (["2"], [⟨.int 2, "sampled", ["3"]⟩]) := by
    decide +kernel
  obtain ⟨s, hs, hends⟩ := Option.map_eq_some_iff.1 hruns
  obtain ⟨g, hread, hrun⟩ := exists_of_bind_eq_ok (eq_ok_of_toOption hs)
  obtain ⟨hremoved, hgroups⟩ := Prod.mk.inj hends
  have hfloor : ∀ p ∈ allPasses, ∀ floor ∈ p.floor?, 0 ≤ floor := by decide +kernel
  exact ⟨g, s, .read hread, hfloor, hrun, Loaded.keepsShape (.read hread) hfloor hrun, hremoved,
    hgroups⟩

/-! ## Submissions -/

namespace Submission

variable (s : Submission) (g : Graph)

/-- The passes of a submission. -/
def passes : List Pass :=
  [.fill s.request.values] ++
    ((s.request.seedToWrite s.drawn).map fun seed => Pass.seed (.int seed)).toList ++
    [.override (.obj (s.request.overrides.map fun o => (o.1, .obj o.2))),
      .inject s.cfg s.request.chain, .extend s.cfg s.request.highChain .high s.classifier,
      .extend s.cfg s.request.lowChain .low s.classifier, .resolve s.cfg.bypassMaxDepth]

theorem ofJson_overrides (overrides : Overrides) :
    Overrides.ofJson (.obj (overrides.map fun o => (o.1, .obj o.2))) = .ok overrides := by
  rw [Overrides.ofJson, List.map_map]
  exact congrArg Except.ok (List.map_id overrides)

/-- Compiling runs the passes in this order. -/
theorem run_passes :
    Stage.run { graph := g } s.passes =
      (s.run g).result.map fun r => { graph := r.graph, removed := r.removed } := by
  have hseeded (h : Graph) : ((s.request.seedToWrite s.drawn).map fun seed =>
      Pass.seed (.int seed)).toList.foldlM Pass.run ({ graph := h } : Stage) =
        .ok { graph := s.seeded h } := by
    rw [seeded]
    cases s.request.seedToWrite s.drawn <;> rfl
  rw [result_run, result_assemble, result_filled, passes, Stage.run, List.append_assoc,
    List.foldlM_append]
  simp only [List.foldlM_cons, List.foldlM_nil, Pass.run]
  -- a template that cannot be filled in, or a chain that cannot be put in, ends both
  cases g.fill s.request.values with
  | error e => rfl
  | ok h =>
    simp only [List.foldlM_append, List.foldlM_cons, List.foldlM_nil, Pass.run, hseeded,
      ofJson_overrides, adjusted, Except.map, bind, Except.bind, pure, Except.pure]
    generalize (s.seeded h).override s.request.overrides = k
    cases k.inject s.cfg s.request.chain with
    | error e => rfl
    | ok injected =>
      dsimp only
      cases (injected.getD k).extend s.cfg s.request.highChain .high s.classifier with
      | error e => rfl
      | ok high =>
        dsimp only
        generalize high.getD (injected.getD k) = l
        cases l.extend s.cfg s.request.lowChain .low s.classifier <;> rfl

/-- The passes that number nodes take the floor of the submission. -/
theorem floor?_of_mem_passes {p : Pass} (hp : p ∈ s.passes) :
    p.floor? = none ∨ p.floor? = some s.cfg.injectedIdFloor := by
  simp only [passes, List.mem_append, List.mem_cons, Option.mem_toList, Option.map_eq_some_iff,
    List.not_mem_nil, or_false] at hp
  rcases hp with (rfl | ⟨seed, -, rfl⟩) | rfl | rfl | rfl | rfl | rfl <;> simp [Pass.floor?]

/-- **Compiling a workflow that was loaded keeps the shape of its document.** -/
theorem keepsShape_run {r : Bypass.Result} (hg : Loaded g) (hfloor : 0 ≤ s.cfg.injectedIdFloor)
    (hrun : (s.run g).result = .ok r) : g.KeepsShape r.graph r.removed := by
  have hpasses : ∀ p ∈ s.passes, ∀ floor ∈ p.floor?, 0 ≤ floor := by
    intro p hp floor hf
    rcases s.floor?_of_mem_passes hp with hnone | hsome
    · rw [hnone] at hf
      cases hf
    · rw [hsome] at hf
      obtain rfl := Option.some.inj hf
      exact hfloor
  have hstage : Stage.run { graph := g } s.passes =
      .ok { graph := r.graph, removed := r.removed } := by
    rw [run_passes, hrun]
    rfl
  obtain ⟨gone, hremoved, hdescends⟩ := Stage.exists_descends_run hpasses hstage
  obtain rfl : r.removed = gone := hremoved
  exact Graph.keepsShape_of_descends hg.wellKeyed hdescends

end Submission

end NodeFlow
