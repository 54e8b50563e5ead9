import NodeFlow.Proofs.Bypass.Soundness
import NodeFlow.Proofs.Compiler.Each
import NodeFlow.Proofs.Document.Limit
/-!
# Compiling an accepted template

A template that the structure check accepts is accepted once it is compiled:
filling it in changes no link, each chain goes in along a link that is there,
and walks through bypassed nodes go down the rank. The one way to fail is an
integer with more digits than can be written. Such an integer is the number
of a modifier, or it comes from the template or from the request.
-/

namespace NodeFlow

open NodeFlow.Graph

variable {g h : Graph} {schema : Schema} {bound : Int}

/-! ## Filling in -/

/-- What the passes need of a workflow can be read off its skeleton. -/
theorem Graph.Ready.of_skeleton_eq (hg : g.Ready schema bound) (heq : h.skeleton = g.skeleton) :
    h.Ready schema bound := by
  obtain ⟨rank, hsound⟩ := hg.sound
  refine ⟨⟨rank, wellKeyed_iff.2 ?_, ?_, rankedBy_of_links ?_⟩, ?_, ?_⟩
  · intro id m hm
    obtain ⟨n, hn, hsame⟩ := exists_node?_of_skeleton_eq heq.symm hm
    rw [(Node.eq_of_skeleton_eq hsame).1.symm, hsound.wellKeyed.id_eq hn]
  · intro id input l hl
    rw [linkAt?_of_skeleton_eq heq] at hl
    obtain ⟨n, hn, houtput⟩ := hsound.admits id input l hl
    obtain ⟨m, hm, hsame⟩ := exists_node?_of_skeleton_eq heq hn
    obtain ⟨-, hclass, -, houtputs⟩ := Node.eq_of_skeleton_eq hsame
    refine ⟨m, hm, ?_⟩
    rw [knownOutputs, hclass, houtputs]
    exact houtput
  · intro id input l hl
    rw [linkAt?_of_skeleton_eq heq] at hl
    exact hsound.lt hl
  · obtain ⟨id, n, hn, hmode⟩ := hg.live
    obtain ⟨m, hm, hsame⟩ := exists_node?_of_skeleton_eq heq hn
    exact ⟨id, m, hm, by rwa [(Node.eq_of_skeleton_eq hsame).2.2.1]⟩
  · intro id hid hdigits
    exact hg.ids id ((has_of_skeleton_eq heq id).1 hid) hdigits

namespace Submission

variable {s : Submission} {first : Int} {k : Graph} {c : Compiled}

/-- The number of modifiers in the chains of a request. -/
def injections (s : Submission) : Nat :=
  s.request.chain.length + s.request.highChain.length + s.request.lowChain.length

/-- **The passes up to the resolution of bypassed nodes** keep a template ready, once it is filled
in. -/
theorem yieldsReady_assemble {f : Graph} (hg : g.Ready s.schema bound)
    (hfloor : 0 ≤ s.cfg.injectedIdFloor) (hbound : s.cfg.injectedIdFloor ≤ bound)
    (hfill : (s.filled g).result = .ok f) :
    YieldsReady s.schema (bound + s.injections) (s.assemble g).result := by
  have hfilled := hg.of_skeleton_eq (skeleton_filled hfill)
  -- each chain raises the bound by its length, so the three of them by their lengths together
  rw [result_assemble, hfill]
  refine (hfilled.inject hfloor hbound s.request.chain).bind (by simp [injections]; omega) ?_
  intro injected hinjected
  refine (hinjected.extend hfloor (by omega) s.request.highChain .high s.classifier).bind
    (by simp [injections]; omega) ?_
  intro high hhigh
  refine (hhigh.extend hfloor (by omega) s.request.lowChain .low s.classifier).mono ?_
  simp [injections]
  omega

/-! ## Short integers -/

/-- No integer that is filled in has too many digits to be written. -/
structure Short (s : Submission) : Prop where
  values : ∀ key v, (key, v) ∈ s.request.values → v.isWritable
  seed : ∀ seed, s.request.seedToWrite s.drawn = some seed → (Json.int seed).isWritable
  overrides : ∀ o ∈ s.request.overrides, ∀ e ∈ o.2, e.2.isWritable

/-- A template can be filled in with values that can be written. -/
theorem Short.isFillable (hs : s.Short) (g : Graph) : g.isFillable s.request.values := by
  have hpart : ∀ p, Template.isPartShown s.request.values p := by
    rintro (c | name)
    · rfl
    · rw [Template.isPartShown, Option.all_eq_true]
      intro v hv
      obtain ⟨key, hkey⟩ := mem_of_valueFor?_eq_some hv
      exact hs.values key v hkey
  have hinput : ∀ v, Template.isInputShown s.request.values v := by
    intro v
    rw [Template.isInputShown.eq_def]
    split
    · rw [Bool.or_eq_true, Template.isTextShown.eq_def]
      right
      split
      · rfl
      · exact List.all_eq_true.2 fun p _ => hpart p
    · rfl
  exact List.all_eq_true.2 fun e _ => List.all_eq_true.2 fun i _ => hinput i.2

/-- **Integers stay short**: a chain brings in strengths and links from first outputs. -/
theorem Short.graph {limit : Int} (hs : s.Short) (hg : g.Short)
    (hrun : (s.assemble g).result = .ok k) : (k.resolveBypassed limit).graph.Short := by
  have hrest := rest_assemble hrun
  have hrest' := rest_resolveBypassed k limit
  have heach : g.Each (fun _ n => (Json.int n.mode).isWritable) (fun v => v.toJson.isWritable) :=
    fun id n hn => Node.isWritable_toJson_iff.1 (hg.nodes id n hn)
  have hzero : (Json.int 0).isWritable := by decide +kernel
  have hown : AllowsOwn fun v => v.toJson.isWritable := by
    refine ⟨fun _ => rfl, fun _ => rfl, fun source => Json.isWritable_arr_iff.2 ?_⟩
    exact List.forall_mem_cons.2 ⟨rfl, List.forall_mem_singleton.2 hzero⟩
  have hk := each_assemble heach hown (fun _ _ _ => hzero) hs.values hs.seed hs.overrides hrun
  refine ⟨?_, ?_, ?_, ?_⟩
  · intro id n hn
    exact Node.isWritable_toJson_iff.2 (hk.resolveBypassed limit id n hn)
  · intro gr hgr
    obtain ⟨gr', hgr', hid⟩ := exists_group_of_resolveBypassed hgr
    rw [hrest] at hgr'
    exact hid ▸ hg.groups gr' hgr'
  · rw [hrest', hrest]
    exact hg.notes
  · rw [hrest', hrest]
    exact hg.metadata

/-! ## The verdict -/

/-- A compiled workflow in which nothing is wrong: nothing is reported, no connection dangles or
starts at an output that does not exist as far as outputs are known, and there is no cycle. -/
structure Accepted (c : Compiled) (schema : Schema) : Prop where
  errors : c.errors = []
  graph : ∃ k, c.graph = some k ∧ c.document = k.toFields ∧ k.structureErrors schema = [] ∧
    k.Closed ∧ (∀ id input l, k.linkAt? id input = some l → k.Admits schema l) ∧ k.Acyclic

/-- A sound result becomes an accepted workflow, or an integer in it has too many digits. -/
theorem concluded_cases {r : Bypass.Result} (g : Graph) (strict : Bool)
    (hr : r.graph.Sound s.schema) :
    (∃ c, s.concluded g strict r = .ok c ∧ Accepted c s.schema) ∨
      s.concluded g strict r = .error idTooLong ∧ r.graph.toJson.isWritable = false := by
  have hnone : r.graph.structureErrors s.schema = [] := structureErrors_eq_nil_iff.2 hr
  have htexts : r.graph.structureTexts s.schema = .ok [] := by
    rw [structureTexts, hnone]
    rfl
  have hconcluded : s.concluded g strict r =
      Compiled.ofGraph r.graph (g.fillWarnings s.request.values ++ r.warnings) [] := by
    rw [concluded, htexts]
    simp only [bind, Except.bind]
    rw [ite_self, result_requireSound_nil]
  rw [hconcluded]
  rcases Compiled.ofGraph_cases r.graph (g.fillWarnings s.request.values ++ r.warnings) [] with
    ⟨c, hc, -⟩ | hlong
  · obtain ⟨hdocument, hgraph, -, herrors⟩ := Compiled.ofGraph_eq_ok_iff.1 hc
    exact Or.inl ⟨c, hc, herrors, r.graph, hgraph, hdocument, hnone, hr.closed, hr.admits,
      hr.acyclic⟩
  · exact Or.inr hlong

/-- **An accepted template compiles to an accepted workflow**, whether it must be valid or not, for
every request, every classifier and every schema. The one failure there can be is an integer with
too many digits, and then the ids reach the largest number that can be written, or there is such an
integer in the template or in what it is filled in with. -/
theorem compile_accepted (s : Submission) (g : Graph) (strict : Bool) (hk : g.WellKeyed)
    (hlive : ∃ id n, g.node? id = some n ∧ n.mode ≠ bypassedMode)
    (hvalid : g.structureErrors s.schema = []) (hfloor : 0 ≤ s.cfg.injectedIdFloor)
    (hfirst : g.nextId s.cfg.injectedIdFloor = .ok first) :
    (∃ c, (s.compile g strict).result = .ok c ∧ Accepted c s.schema) ∨
      ((s.compile g strict).result = .error idTooLong ∧
        (Numeral.unwritable < first + s.injections ∨ ¬ g.Short ∨ ¬ s.Short)) := by
  obtain ⟨hge, hids⟩ := idsBelow_nextId hfirst
  have hsound := structureErrors_eq_nil_iff.1 hvalid
  obtain ⟨rank, hr⟩ := hsound.ranked
  have hready : g.Ready s.schema first := ⟨⟨rank, hk, hsound.admits, hr⟩, hlive, hids⟩
  rw [result_compile, result_run]
  cases hfill : g.isFillable s.request.values with
  | false =>
    -- nothing comes after a value that cannot be shown
    refine Or.inr ⟨?_, Or.inr (Or.inr fun hs => ?_)⟩
    · rw [result_assemble, result_filled_eq, hfill]
      rfl
    · rw [hs.isFillable g] at hfill
      cases hfill
  | true =>
    have hfilled : (s.filled g).result = .ok (s.adjusted (g.filledWith s.request.values)) := by
      rw [result_filled_eq, hfill, withinLimit_true]
    rcases yieldsReady_assemble hready hfloor hge hfilled with ⟨k, hrun, hk'⟩ | ⟨hrun, hlong⟩
    · -- resolving bypassed nodes keeps what the chains have led to sound
      obtain ⟨rank', hk''⟩ := hk'.sound
      have hresolved : (k.resolveBypassed s.cfg.bypassMaxDepth).graph.Sound s.schema := by
        refine Sound.resolveBypassed ⟨?_, hk''.admits, rank', hk''.ranked⟩ hk''.wellKeyed
          hk'.live _
        obtain ⟨id, n, hn, -⟩ := hk'.live
        exact ⟨id, has_iff.2 ⟨n, hn⟩⟩
      rw [hrun]
      refine (concluded_cases g strict hresolved).imp_right fun ⟨herror, hlong⟩ => ⟨herror, ?_⟩
      refine Or.inr (not_and_or.1 fun ⟨hg, hs⟩ => ?_)
      rw [(hs.graph hg hrun).isWritable_toJson] at hlong
      cases hlong
    · -- a chain ran out of ids, and nothing comes after it
      refine Or.inr ⟨?_, Or.inl hlong⟩
      rw [hrun]
      rfl

/-- A loader behind a bypassed modifier and one that is not, a model-sampling node and a sampler on
the high-noise path. -/
def highNoise : Graph where
  nodes := .ofList [
    ("1", { id := "1", classType := "UNETLoader" }),
    ("2", { id := "2", classType := "LoraLoaderModelOnly", mode := 4
            inputs := .ofList [("model", .connection "1" 0)] }),
    ("3", { id := "3", classType := "LoraLoaderModelOnly"
            inputs := .ofList [("model", .connection "2" 0)] }),
    ("4", { id := "4", classType := "ModelSamplingSD3"
            inputs := .ofList [("model", .connection "3" 0)] }),
    ("5", { id := "5", classType := "KSamplerAdvanced"
            inputs := .ofList [("model", .connection "4" 0),
              ("start_at_step", .literal (.int 0))] })]

/-- One modifier behind the loader and two on the high-noise path. -/
def threeModifiers : Submission where
  cfg := {}
  schema := .empty
  request := { chain := [⟨"a", .one⟩], highChain := [⟨"b", .one⟩, ⟨"c", .one⟩] }
  classifier := .usual {}

/-- The hypotheses of `compile_accepted` are met, and there is room for all ids. -/
theorem highNoise_accepted :
    highNoise.WellKeyed ∧ (∃ id n, highNoise.node? id = some n ∧ n.mode ≠ bypassedMode) ∧
      highNoise.structureErrors threeModifiers.schema = [] ∧
      0 ≤ threeModifiers.cfg.injectedIdFloor ∧
      highNoise.nextId threeModifiers.cfg.injectedIdFloor = .ok 100 ∧
      ∃ c, (threeModifiers.compile highNoise true).result = .ok c ∧
        Accepted c threeModifiers.schema := by
  have hk : highNoise.WellKeyed := by decide +kernel
  have hlive : ∃ id n, highNoise.node? id = some n ∧ n.mode ≠ bypassedMode :=
    ⟨"1", { id := "1", classType := "UNETLoader" }, by decide +kernel, by decide⟩
  have hvalid : highNoise.structureErrors threeModifiers.schema = [] := by decide +kernel
  have hfirst : highNoise.nextId threeModifiers.cfg.injectedIdFloor = .ok 100 := by rfl
  refine ⟨hk, hlive, hvalid, by decide, hfirst, ?_⟩
  rcases compile_accepted threeModifiers highNoise true hk hlive hvalid (by decide) hfirst with
    haccepted | ⟨herror, -⟩
  · exact haccepted
  · have hreturns : (threeModifiers.compile highNoise true).result.toOption.isSome := by
      decide +kernel
    rw [herror] at hreturns
    cases hreturns

/-! ## Where ids run out -/

/-- A loader whose id is the text of a number. -/
def numberedLoader (n : Nat) : Node :=
  { id := (Json.int n).display, classType := "CheckpointLoaderSimple" }

/-- A sampler that the loader feeds. -/
def numberedSampler (n : Nat) : Node :=
  { id := "sampler", classType := "KSampler"
    inputs := .ofList [("model", .connection (numberedLoader n).id 0)] }

theorem id_numberedLoader_ne (n : Nat) : (numberedLoader n).id ≠ "sampler" :=
  (display_natCast_ne (by decide +kernel) n).symm

/-- The loader and the sampler. -/
def numbered (n : Nat) : Graph where
  nodes := ⟨[((numberedLoader n).id, numberedLoader n), ("sampler", numberedSampler n)],
    by simp [Entries.keys, id_numberedLoader_ne]⟩

/-- One modifier behind the model source. -/
def oneModifier : Submission where
  cfg := {}
  schema := .empty
  request := { chain := [⟨"a.safetensors", .one⟩] }
  classifier := .usual {}

theorem node?_numbered_eq_some_iff {n : Nat} {id : String} {m : Node} :
    (numbered n).node? id = some m ↔
      (id = (numberedLoader n).id ∧ m = numberedLoader n) ∨
        (id = "sampler" ∧ m = numberedSampler n) := by
  simp [Graph.node?, Dict.get?_eq_some_iff, numbered]

theorem links_numberedSampler (n : Nat) :
    (numberedSampler n).links = [("model", ⟨(numberedLoader n).id, 0⟩)] := rfl

theorem sound_numbered (n : Nat) : (numbered n).Sound schema := by
  have hloader : (numbered n).node? (numberedLoader n).id = some (numberedLoader n) :=
    node?_numbered_eq_some_iff.2 (Or.inl ⟨rfl, rfl⟩)
  have hlinks : ∀ id input l, (numbered n).linkAt? id input = some l →
      id = "sampler" ∧ l = ⟨(numberedLoader n).id, 0⟩ := by
    intro id input l hl
    obtain ⟨m, hm, hlink⟩ := linkAt?_eq_some_iff.1 hl
    rw [← Node.mem_links_iff_link?] at hlink
    rcases node?_numbered_eq_some_iff.1 hm with ⟨-, rfl⟩ | ⟨rfl, rfl⟩
    · cases hlink
    · rw [links_numberedSampler, List.mem_singleton] at hlink
      exact ⟨rfl, congrArg Prod.snd hlink⟩
  refine ⟨⟨_, has_iff.2 ⟨_, hloader⟩⟩, ?_, fun id => if id = "sampler" then 1 else 0,
    rankedBy_of_links ?_⟩
  · intro id input l hl
    obtain ⟨-, rfl⟩ := hlinks id input l hl
    exact admits_first (has_iff.2 ⟨_, hloader⟩)
  · intro id input l hl
    obtain ⟨rfl, rfl⟩ := hlinks id input l hl
    simp [id_numberedLoader_ne]

/-- Behind the largest number that can be written comes the next one all the same. -/
theorem nextId_numbered {n : Nat} (hn : n + 1 = Numeral.unwritable) :
    (numbered n).nextId oneModifier.cfg.injectedIdFloor = .ok (n + 1 : Nat) := by
  have hread : integerOfText (numberedLoader n).id = .ok (n : Int) := by
    rw [numberedLoader, integerOfText_display_natCast, if_pos (by omega)]
  have hids : (numbered n).IdsBelow (n + 1 : Nat) := by
    intro id hid hdigits
    obtain ⟨m, hm⟩ := has_iff.1 hid
    rcases node?_numbered_eq_some_iff.1 hm with ⟨rfl, -⟩ | ⟨rfl, -⟩
    · exact ⟨n, hread, by omega⟩
    · exact absurd hdigits (by decide +kernel)
  have hfloor : oneModifier.cfg.injectedIdFloor ≤ (n + 1 : Nat) := by
    rw [hn]
    decide +kernel
  have hhas : (numbered n).has (numberedLoader n).id :=
    has_iff.2 ⟨_, node?_numbered_eq_some_iff.2 (Or.inl ⟨rfl, rfl⟩)⟩
  exact nextId_of_greatest (by omega) hhas hids hfloor

/-- But it has too many digits for an id. -/
theorem assemble_numbered {n : Nat} (hn : n + 1 = Numeral.unwritable) :
    (oneModifier.assemble (numbered n)).result = .error idTooLong := by
  have hfilled : (oneModifier.filled (numbered n)).result = .ok (numbered n) := by
    rw [result_filled_eq]
    rfl
  -- the loader is the model source, and the sampler is all it feeds
  have hsource : (numbered n).modelSource? oneModifier.cfg = some (numberedLoader n) := by
    simp [modelSource?, ofType, nodeList, Dict.values, numbered, numberedLoader, oneModifier]
  have hconsumers : (numbered n).consumers (numberedLoader n).id = [("sampler", "model")] := by
    have hloader : (numberedLoader n).links = [] := rfl
    have hsampler : (numberedSampler n).id = "sampler" := rfl
    simp [consumers, nodeList, Dict.values, numbered, hloader, hsampler, links_numberedSampler]
  have hsplice : ∀ targets, (numbered n).splice oneModifier.cfg oneModifier.request.chain
      (numberedLoader n).id targets = .error idTooLong := by
    intro targets
    rw [Graph.splice, nextId_numbered hn]
    simp only [bind, Except.bind, oneModifier]
    rw [appendChain_cons, hn, if_neg (Nat.lt_irrefl _)]
  rw [result_assemble, hfilled]
  simp only [bind, Except.bind]
  rw [Graph.inject, hsource]
  simp only [hconsumers, hsplice]
  rfl

/-- The largest number that can be written. -/
def lastWritable : Nat := Numeral.unwritable - 1

theorem lastWritable_succ : lastWritable + 1 = Numeral.unwritable := by
  have hlarge := Numeral.thousand_le_unwritable
  rw [lastWritable]
  omega

/-- **An accepted template need not compile**: its next id exists, but cannot be written. -/
theorem not_compile_numbered_lastWritable :
    (numbered lastWritable).WellKeyed ∧
      (∃ id n, (numbered lastWritable).node? id = some n ∧ n.mode ≠ bypassedMode) ∧
      (numbered lastWritable).structureErrors oneModifier.schema = [] ∧
      0 ≤ oneModifier.cfg.injectedIdFloor ∧
      (∃ first, (numbered lastWritable).nextId oneModifier.cfg.injectedIdFloor = .ok first) ∧
      ¬ ∃ c, (oneModifier.compile (numbered lastWritable) false).result = .ok c := by
  refine ⟨?_, ⟨"sampler", numberedSampler lastWritable, ?_, by decide⟩, ?_, by decide,
    ⟨_, nextId_numbered lastWritable_succ⟩, ?_⟩
  · refine wellKeyed_iff.2 fun id m hm => ?_
    rcases node?_numbered_eq_some_iff.1 hm with ⟨rfl, rfl⟩ | ⟨rfl, rfl⟩ <;> rfl
  · exact node?_numbered_eq_some_iff.2 (Or.inr ⟨rfl, rfl⟩)
  · exact structureErrors_eq_nil_iff.2 (sound_numbered _)
  · rintro ⟨c, hc⟩
    obtain ⟨k, hk, -⟩ := exists_run_of_compile _ _ _ hc
    rw [assemble_numbered lastWritable_succ] at hk
    cases hk

end Submission

end NodeFlow
