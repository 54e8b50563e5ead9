import NodeFlow.Proofs.Graph.Input
import NodeFlow.Wiring
/-!
# The two queries of an editor agree

One query lists the inputs that an output could feed, the other the outputs
that could feed an input. They find the type of an output in different ways:
the first by its index, at the node and then at its class; the second in the
list of known outputs. For an output that is in this list the two ways come to
the same type (`outputSlotType_of_getElem?`), and so each query lists what the
other one says (`dual_queries`).
-/

namespace NodeFlow

variable {g : Graph} {schema : Schema} {n m : Node} {p : Port} {v : InputValue}
variable {source target input : String} {output : Int} {i : Nat} {r : SlotRef}

theorem Schema.itemAt?_natCast {α : Type} (xs : List α) (i : Nat) :
    Schema.itemAt? xs (i : Int) = xs[i]? := by
  rw [itemAt?, if_neg (by omega), Int.toNat_natCast]

/-- **The type of a known output** is what is found by its index. -/
theorem outputSlotType_of_getElem? (hp : (knownOutputs n schema)[i]? = some p) :
    outputSlotType n i schema = some p.type := by
  rw [knownOutputs] at hp
  rw [outputSlotType, Schema.itemAt?_natCast]
  split at hp
  · -- a node without outputs of its own has those of its class
    rename_i hempty
    rw [List.isEmpty_iff.1 hempty, List.getElem?_nil]
    dsimp only
    rw [Schema.outputType?]
    rw [Schema.outputs] at hp
    cases htype : schema.get? n.classType with
    | none => simp [htype] at hp
    | some t =>
      rw [htype, Option.map_some, Option.getD_some] at hp
      rw [Option.bind_some, Schema.itemAt?_natCast, hp, Option.map_some]
  · rw [hp]

namespace Graph

/-! ## What is listed -/

/-- **The inputs that an output could feed** are the ports of other nodes with a type that agrees
with its own. -/
theorem mem_targetsOf_iff (hk : g.WellKeyed) (hn : g.node? source = some n) :
    r ∈ g.targetsOf schema source output ↔ ∃ target m input v, target ≠ source ∧
      g.node? target = some m ∧ m.inputs.get? input = some v ∧ v.isPort ∧
      isCompatible (outputSlotType n output schema) (inputSlotType m input schema) ∧
      r = { node := target, type := inputSlotType m input schema, input := some input } := by
  rw [targetsOf, hn]
  simp only [List.mem_flatMap, List.mem_filterMap, List.mem_filter, decide_eq_true_eq]
  constructor
  · rintro ⟨m, ⟨hm, hne⟩, ⟨input, v⟩, ⟨hv, hport⟩, hr⟩
    split at hr
    · rename_i hfits
      cases hr
      exact ⟨m.id, m, input, v, hne, hk.node?_id hm, Dict.get?_eq_some_iff.2 hv, hport, hfits, rfl⟩
    · cases hr
  · rintro ⟨target, m, input, v, hne, hm, hv, hport, hfits, rfl⟩
    obtain rfl := hk.id_eq hm
    refine ⟨m, ⟨mem_nodeList_iff.2 ⟨_, hm⟩, hne⟩, (input, v),
      ⟨Dict.get?_eq_some_iff.1 hv, hport⟩, ?_⟩
    rw [if_pos hfits]

/-- **The outputs that could feed an input** are the known outputs of other nodes with a type that
agrees with its own. -/
theorem mem_sourcesOf_iff (hk : g.WellKeyed) (hm : g.node? target = some m) :
    r ∈ g.sourcesOf schema target input ↔ ∃ source n, ∃ (i : Nat) (p : Port), source ≠ target ∧
      g.node? source = some n ∧ (knownOutputs n schema)[i]? = some p ∧
      isCompatible (some p.type) (inputSlotType m input schema) ∧
      r = { node := source, type := some p.type, output := some (i : Int) } := by
  rw [sourcesOf, hm]
  simp only [List.mem_flatMap, List.mem_filterMap, List.mem_filter, decide_eq_true_eq]
  constructor
  · rintro ⟨n, ⟨hn, hne⟩, ⟨p, i⟩, hp, hr⟩
    split at hr
    · rename_i hfits
      cases hr
      exact ⟨n.id, n, i, p, hne, hk.node?_id hn, List.mk_mem_zipIdx_iff_getElem?.1 hp, hfits, rfl⟩
    · cases hr
  · rintro ⟨source, n, i, p, hne, hn, hp, hfits, rfl⟩
    obtain rfl := hk.id_eq hn
    refine ⟨n, ⟨mem_nodeList_iff.2 ⟨_, hn⟩, hne⟩, (p, i), List.mk_mem_zipIdx_iff_getElem?.2 hp, ?_⟩
    rw [if_pos hfits]

/-! ## Each end once -/

/-- What is listed node by node keeps what the ends of one node have, as nodes differ in their
ids. -/
theorem pairwise_flatMap_nodes (hk : g.WellKeyed) (f : Node → Bool) {ends : Node → List SlotRef}
    {R : SlotRef → SlotRef → Prop} (hnode : ∀ m, ∀ r ∈ ends m, r.node = m.id)
    (hends : ∀ m, (ends m).Pairwise R) :
    ((g.nodeList.filter f).flatMap ends).Pairwise fun r r' => r.node = r'.node → R r r' := by
  have hids : (g.nodeList.map Node.id).Nodup := by
    rw [map_id_nodeList hk]
    exact g.nodes.nodup
  refine List.pairwise_flatMap.2 ⟨fun m _ => ?_, ?_⟩
  · refine (hends m).imp ?_
    exact fun hr _ => hr
  · refine ((List.pairwise_map.1 hids).filter _).imp fun hne r hr r' hr' hsame => ?_
    rw [hnode _ r hr, hnode _ r' hr'] at hsame
    exact absurd hsame hne

/-- **No input is listed twice.** -/
theorem pairwise_targetsOf (hk : g.WellKeyed) (schema : Schema) (source : String) (output : Int) :
    (g.targetsOf schema source output).Pairwise fun r r' =>
      r.node = r'.node → r.input ≠ r'.input := by
  rw [targetsOf]
  split
  · exact .nil
  · refine pairwise_flatMap_nodes hk _ (fun m r hr => ?_) fun m => ?_
    · obtain ⟨e, -, he⟩ := List.mem_filterMap.1 hr
      obtain ⟨-, he⟩ := Option.ite_none_right_eq_some.1 he
      cases he
      rfl
    · -- the inputs of one node differ in their names
      have hnames : m.inputs.entries.Pairwise fun e e' => e.1 ≠ e'.1 :=
        List.pairwise_map.1 m.inputs.nodup
      refine List.pairwise_filterMap.2 ((hnames.filter _).imp fun hne r hr r' hr' => ?_)
      obtain ⟨-, hr⟩ := Option.ite_none_right_eq_some.1 hr
      obtain ⟨-, hr'⟩ := Option.ite_none_right_eq_some.1 hr'
      cases hr
      cases hr'
      simpa using hne

/-- **No output is listed twice.** -/
theorem pairwise_sourcesOf (hk : g.WellKeyed) (schema : Schema) (target input : String) :
    (g.sourcesOf schema target input).Pairwise fun r r' =>
      r.node = r'.node → r.output ≠ r'.output := by
  rw [sourcesOf]
  split
  · exact .nil
  · refine pairwise_flatMap_nodes hk _ (fun n r hr => ?_) fun n => ?_
    · obtain ⟨o, -, ho⟩ := List.mem_filterMap.1 hr
      obtain ⟨-, ho⟩ := Option.ite_none_right_eq_some.1 ho
      cases ho
      rfl
    · -- the outputs of one node differ in their indices
      have hindices : (knownOutputs n schema).zipIdx.Pairwise fun o o' => o.2 ≠ o'.2 :=
        List.pairwise_map.1 (by rw [List.zipIdx_map_snd]; exact List.nodup_range')
      refine List.pairwise_filterMap.2 (hindices.imp fun hne r hr r' hr' => ?_)
      obtain ⟨-, hr⟩ := Option.ite_none_right_eq_some.1 hr
      obtain ⟨-, hr'⟩ := Option.ite_none_right_eq_some.1 hr'
      cases hr
      cases hr'
      exact fun hsame => hne (Int.ofNat_inj.1 (Option.some.inj hsame))

/-- Where two elements that pass a test cannot stand together, at most one passes. -/
theorem length_filter_le_one {refs : List SlotRef} {R : SlotRef → SlotRef → Prop}
    {f : SlotRef → Bool} (h : refs.Pairwise R) (hf : ∀ r r', f r → f r' → ¬ R r r') :
    (refs.filter f).length ≤ 1 := by
  have hpairs := h.filter f
  cases hrefs : refs.filter f with
  | nil => simp
  | cons r rest =>
    cases rest with
    | nil => simp
    | cons r' rest =>
      have hpass : ∀ s ∈ r :: r' :: rest, f s := fun s hs => (List.mem_filter.1 (hrefs ▸ hs)).2
      rw [hrefs] at hpairs
      exact absurd (List.rel_of_pairwise_cons hpairs List.mem_cons_self)
        (hf r r' (hpass r (by simp)) (hpass r' (by simp)))

/-! ## Both queries -/

/-- The first query lists an input of a node among those that an output could feed. -/
def ListsTarget (g : Graph) (schema : Schema) (source : String) (output : Int)
    (target input : String) : Prop :=
  ∃ r ∈ g.targetsOf schema source output, r.node = target ∧ r.input = some input

/-- The second query lists an output of a node among those that could feed an input. -/
def ListsSource (g : Graph) (schema : Schema) (target input source : String) (output : Int) :
    Prop :=
  ∃ r ∈ g.sourcesOf schema target input, r.node = source ∧ r.output = some output

/-- What the two queries say of an output and an input. -/
structure Dual (g : Graph) (schema : Schema) (source : String) (output : Int)
    (target input : String) : Prop where
  /-- The input is listed for the output where the output is listed for the input. -/
  both : g.ListsTarget schema source output target input ↔
    g.ListsSource schema target input source output
  /-- That is where their types agree. -/
  types : g.ListsTarget schema source output target input ↔
    ∀ n m, g.node? source = some n → g.node? target = some m →
      isCompatible (outputSlotType n output schema) (inputSlotType m input schema)
  /-- The input is listed at most once. -/
  targetOnce : ((g.targetsOf schema source output).filter fun r =>
    r.node = target ∧ r.input = some input).length ≤ 1
  /-- So is the output. -/
  sourceOnce : ((g.sourcesOf schema target input).filter fun r =>
    r.node = source ∧ r.output = some output).length ≤ 1
  /-- No input of the node itself is listed. -/
  otherTargets : ∀ r ∈ g.targetsOf schema source output, r.node ≠ source
  /-- Nor is an output. -/
  otherSources : ∀ r ∈ g.sourcesOf schema target input, r.node ≠ target

/-- An input is listed where it is a port of another node and the types agree. -/
theorem listsTarget_iff (hk : g.WellKeyed) (hn : g.node? source = some n)
    (hm : g.node? target = some m) (hne : source ≠ target)
    (hv : m.inputs.get? input = some v) (hport : v.isPort) :
    g.ListsTarget schema source output target input ↔
      isCompatible (outputSlotType n output schema) (inputSlotType m input schema) := by
  constructor
  · rintro ⟨r, hr, htarget, hinput⟩
    obtain ⟨target', m', input', v', -, hm', -, -, hfits, rfl⟩ := (mem_targetsOf_iff hk hn).1 hr
    obtain rfl : target' = target := htarget
    obtain rfl : input' = input := Option.some.inj hinput
    obtain rfl : m' = m := Option.some.inj (hm'.symm.trans hm)
    exact hfits
  · intro hfits
    exact ⟨_, (mem_targetsOf_iff hk hn).2
      ⟨target, m, input, v, hne.symm, hm, hv, hport, hfits, rfl⟩, rfl, rfl⟩

/-- An output is listed where it is known, of another node, and the types agree. -/
theorem listsSource_iff (hk : g.WellKeyed) (hn : g.node? source = some n)
    (hm : g.node? target = some m) (hne : source ≠ target)
    (hp : (knownOutputs n schema)[i]? = some p) :
    g.ListsSource schema target input source i ↔
      isCompatible (some p.type) (inputSlotType m input schema) := by
  constructor
  · rintro ⟨r, hr, hsource, houtput⟩
    obtain ⟨source', n', i', p', -, hn', hp', hfits, rfl⟩ := (mem_sourcesOf_iff hk hm).1 hr
    obtain rfl : source' = source := hsource
    obtain rfl : i' = i := Int.ofNat_inj.1 (Option.some.inj houtput)
    obtain rfl : n' = n := Option.some.inj (hn'.symm.trans hn)
    obtain rfl : p' = p := Option.some.inj (hp'.symm.trans hp)
    exact hfits
  · intro hfits
    exact ⟨_, (mem_sourcesOf_iff hk hm).2 ⟨source, n, i, p, hne, hn, hp, hfits, rfl⟩, rfl, rfl⟩

/-- **The two queries are dual**, whatever the schema and whether types are known or not: for a
known output of one node and a port of another one, each lists the other end where the other query
does, at most once, and none lists an end of the node it is asked about. -/
theorem dual_queries (hk : g.WellKeyed) (schema : Schema) (hn : g.node? source = some n)
    (hm : g.node? target = some m) (hne : source ≠ target) (hlow : 0 ≤ output)
    (hhigh : output < (knownOutputs n schema).length) (hv : m.inputs.get? input = some v)
    (hport : v.isPort) : g.Dual schema source output target input where
  both := by
    obtain ⟨i, rfl⟩ := Int.eq_ofNat_of_zero_le hlow
    have hp := List.getElem?_eq_getElem (Int.ofNat_lt.1 hhigh)
    rw [listsTarget_iff hk hn hm hne hv hport, listsSource_iff hk hn hm hne hp,
      outputSlotType_of_getElem? hp]
  types := by
    rw [listsTarget_iff hk hn hm hne hv hport]
    constructor
    · intro hfits n' m' hn' hm'
      obtain rfl : n' = n := Option.some.inj (hn'.symm.trans hn)
      obtain rfl : m' = m := Option.some.inj (hm'.symm.trans hm)
      exact hfits
    · intro h
      exact h n m hn hm
  targetOnce := by
    refine length_filter_le_one (pairwise_targetsOf hk schema source output) ?_
    intro r r' hr hr' hdiffer
    obtain ⟨⟨hnode, hinput⟩, hnode', hinput'⟩ : (r.node = target ∧ r.input = some input) ∧
        r'.node = target ∧ r'.input = some input := by simpa using And.intro hr hr'
    exact hdiffer (hnode.trans hnode'.symm) (hinput.trans hinput'.symm)
  sourceOnce := by
    refine length_filter_le_one (pairwise_sourcesOf hk schema target input) ?_
    intro r r' hr hr' hdiffer
    obtain ⟨⟨hnode, houtput⟩, hnode', houtput'⟩ : (r.node = source ∧ r.output = some output) ∧
        r'.node = source ∧ r'.output = some output := by simpa using And.intro hr hr'
    exact hdiffer (hnode.trans hnode'.symm) (houtput.trans houtput'.symm)
  otherTargets r hr := by
    obtain ⟨target', -, -, -, hother, -, -, -, -, rfl⟩ := (mem_targetsOf_iff hk hn).1 hr
    exact hother
  otherSources r hr := by
    obtain ⟨source', -, -, -, hother, -, -, -, rfl⟩ := (mem_sourcesOf_iff hk hm).1 hr
    exact hother

/-- A schema that knows the outputs of a loader, and what a sampler takes. -/
def loaderSchema : Schema :=
  ⟨.ofList [
    ("CheckpointLoaderSimple",
      { classType := "CheckpointLoaderSimple", outputs := [⟨"MODEL", "MODEL"⟩, ⟨"CLIP", "CLIP"⟩] }),
    ("KSampler",
      { classType := "KSampler"
        inputs := [
          { name := "model", type := "model" }, { name := "latent_image", type := "LATENT" }]
        outputs := [⟨"LATENT", "LATENT"⟩] })]⟩

/-- A loader whose outputs only the schema knows, a node with an output of any type that the schema
does not know, and a sampler with a connection, an open slot and a literal. -/
def partlyKnown : Graph where
  nodes := .ofList [
    ("1", { id := "1", classType := "CheckpointLoaderSimple" }),
    ("2", { id := "2", classType := "Switch", outputs := [⟨"any", "*"⟩] }),
    ("3", { id := "3", classType := "KSampler"
            inputs := .ofList [("model", .connection "2" 0), ("latent_image", .slot "LATENT"),
              ("seed", .literal (.int 7))] })]

/-- The hypotheses of `dual_queries` are met: the model of the loader may feed the sampler, with a
type that is spelled otherwise, and so may the output of any type. -/
theorem partlyKnown_dual :
    partlyKnown.WellKeyed ∧ partlyKnown.Dual loaderSchema "1" 0 "3" "model" ∧
      partlyKnown.targetsOf loaderSchema "1" 0 =
        [{ node := "3", type := some "model", input := some "model" }] ∧
      partlyKnown.sourcesOf loaderSchema "3" "model" =
        [{ node := "1", type := some "MODEL", output := some 0 },
          { node := "2", type := some "*", output := some 0 }] := by
  have hk : partlyKnown.WellKeyed := by decide +kernel
  have hn : partlyKnown.node? "1" = some { id := "1", classType := "CheckpointLoaderSimple" } := by
    decide +kernel
  have hm : partlyKnown.node? "3" = some
      { id := "3", classType := "KSampler"
        inputs := .ofList [("model", .connection "2" 0), ("latent_image", .slot "LATENT"),
          ("seed", .literal (.int 7))] } := by
    decide +kernel
  exact ⟨hk,
    dual_queries hk loaderSchema hn hm (by decide) (by decide) (by decide +kernel)
      (v := .connection "2" 0) (by decide +kernel) rfl,
    by decide +kernel, by decide +kernel⟩

end Graph

end NodeFlow
