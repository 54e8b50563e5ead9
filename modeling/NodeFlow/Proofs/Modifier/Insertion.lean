import Mathlib.Order.Bounds.Basic
import NodeFlow.Proofs.Graph.Input
import NodeFlow.Proofs.Modifier.Hygiene
import NodeFlow.Proofs.Modifier.Placement
/-!
# A chain put in, node by node

`Chained` says of a workflow with a chain in it what each of its nodes is and
what each input of the others holds. Both ways to put a chain in lead there,
from their own place: `Injects` and `Extends` say for each workflow whether
there is one, and what comes of it. The numbers of a chain start at the least
one that no id reaches, so they are fresh whatever the ids are; all that can
go wrong is that one of them has too many digits to be written.
-/

namespace NodeFlow

variable {cfg : CompilerSettings} {chain : Chain} {source : String} {n : Nat}

/-! ## The nodes of a row -/

/-- The id of what feeds the node of a row at a position: the source of the row, or else the node
before it. -/
def feederAt (source : String) (n : Nat) : Nat → String
  | 0 => source
  | i + 1 => (Json.int (n + i : Nat)).display

theorem feederAt_succ (source : String) (n i : Nat) :
    feederAt (Json.int n).display (n + 1) i = feederAt source n (i + 1) := by
  cases i with
  | zero => rfl
  | succ i => rw [feederAt, feederAt, show n + 1 + i = n + (i + 1) by omega]

/-- The end of a row is what would feed one more node. -/
theorem rowEnd_eq_feederAt (chain : Chain) (source : String) (n : Nat) :
    rowEnd chain source n = feederAt source n chain.length := by
  induction chain generalizing source n with
  | nil => rfl
  | cons s rest ih => rw [rowEnd, ih, feederAt_succ source, List.length_cons]

/-- **Each selection has its node in the row**, under its own number and fed by the one before. -/
theorem mem_row_of_getElem? {i : Nat} {s : Selection} (hs : chain[i]? = some s)
    (classType source : String) (n : Nat) :
    ((Json.int (n + i : Nat)).display,
      modifierNode classType (Json.int (n + i : Nat)).display s (feederAt source n i) 0) ∈
        row classType chain source n := by
  induction chain generalizing source n i with
  | nil => cases hs
  | cons t rest ih =>
    cases i with
    | zero =>
      obtain rfl : t = s := by simpa using hs
      exact List.mem_cons_self
    | succ i =>
      have hrest := ih (i := i) (by simpa using hs) (Json.int n).display (n + 1)
      rw [feederAt_succ source, show n + 1 + i = n + (i + 1) by omega] at hrest
      exact List.mem_cons_of_mem _ hrest

namespace Graph

variable {g h : Graph} {path : NoisePath} {c : Classifier} {first : Int}
variable {id input : String} {p : Node} {targets : List (String × String)}

/-- A workflow is another with a chain behind a node, numbered from a number on, and the end of the
chain wired to the inputs that are its targets. -/
structure Chained (g h : Graph) (classType : String) (chain : Chain) (source : String) (n : Nat)
    (target : String → String → Prop) : Prop where
  /-- The nodes are those that were there, in their order, and then one for each selection. -/
  keys : h.nodes.keys = g.nodes.keys ++ rowIds n chain.length
  /-- No node was there under a new id. -/
  fresh : ∀ id ∈ rowIds n chain.length, ¬ g.has id
  /-- A selection has its node under its own number, fed by the source or the node before. -/
  added : ∀ i s, chain[i]? = some s → h.node? (Json.int (n + i : Nat)).display =
    some (modifierNode classType (Json.int (n + i : Nat)).display s (feederAt source n i) 0)
  /-- Of a node that was there only what its inputs hold may have changed. -/
  kept : ∀ id p, g.node? id = some p →
    ∃ q, h.node? id = some q ∧ q = { p with inputs := q.inputs } ∧ q.inputs.keys = p.inputs.keys
  /-- A target holds a connection to the last node of the chain. -/
  wired : ∀ id input, target id input →
    h.inputAt? id input = some (.connection (feederAt source n chain.length) 0)
  /-- Every other input of a node that was there holds what it held. -/
  unwired : ∀ id input, g.has id → ¬ target id input → h.inputAt? id input = g.inputAt? id input
  /-- The rest of the workflow stays. -/
  rest : h = { g with nodes := h.nodes }

/-- What comes of a chain that has a place: it is put in there, or else its last number has too many
digits to be written. -/
def ChainsTo (g : Graph) (cfg : CompilerSettings) (chain : Chain) (source : String) (n : Nat)
    (target : String → String → Prop) (result : Except Fault (Option Graph)) : Prop :=
  (n + chain.length ≤ Numeral.unwritable ∧ ∃ h, result = .ok (some h) ∧
    g.Chained h cfg.modifierClassType chain source n target) ∨
  (Numeral.unwritable < n + chain.length ∧ result = .error idTooLong)

/-- What comes of a fresh chain: it goes between the model source and all that its first output
feeds. The workflow stays as it is without a model source, and with one that feeds nothing so. -/
structure Injects (g : Graph) (cfg : CompilerSettings) (chain : Chain) (n : Nat) : Prop where
  decided : (∀ p ∈ g.nodeList, p.classType ∉ cfg.modelSourceClassTypes) ∨
    ∃ p, g.IsModelSource cfg p
  absent : (∀ p ∈ g.nodeList, p.classType ∉ cfg.modelSourceClassTypes) →
    g.inject cfg chain = .ok none
  unused : ∀ p, g.IsModelSource cfg p → (∀ id input, g.linkAt? id input ≠ some ⟨p.id, 0⟩) →
    g.inject cfg chain = .ok none
  used : ∀ p, g.IsModelSource cfg p → (∃ id input, g.linkAt? id input = some ⟨p.id, 0⟩) →
    g.ChainsTo cfg chain p.id n (fun id input => g.linkAt? id input = some ⟨p.id, 0⟩)
      (g.inject cfg chain)

/-- What comes of an extension on a path: it goes between the first model-sampling node on the path
that a modifier feeds and that modifier. The workflow stays as it is without such a node. -/
structure Extends (g : Graph) (cfg : CompilerSettings) (chain : Chain) (n : Nat) (path : NoisePath)
    (c : Classifier) : Prop where
  decided : (∀ s ∈ g.nodeList, ∀ m, ¬ g.Samples cfg path c s m) ∨
    ∃ s m, g.IsFirst (fun s => ∃ m, g.Samples cfg path c s m) s ∧ g.Samples cfg path c s m
  absent : (∀ s ∈ g.nodeList, ∀ m, ¬ g.Samples cfg path c s m) →
    g.extend cfg chain path c = .ok none
  found : ∀ s m, g.IsFirst (fun s => ∃ m, g.Samples cfg path c s m) s →
    g.Samples cfg path c s m →
      g.ChainsTo cfg chain m.id n (fun id input => id = s.id ∧ input = "model")
        (g.extend cfg chain path c)

/-! ## Splices, node by node -/

theorem node?_wire (targets : List (String × String)) (v : InputValue) (g : Graph) (id : String) :
    (targets.foldl (fun k t => k.setInput t.1 t.2 v) g).node? id =
      (g.node? id).map fun p =>
        (targets.filter fun t => t.1 = id).foldl (fun n t => n.setInput t.2 v) p := by
  rw [foldl_setInput_eq]
  exact Dict.get?_map _ _ _

/-- **A node that was there** keeps all but what its targets hold. -/
theorem node?_splice_of_node? {site : Site} (hsite : g.SiteIn site)
    (hfirst : g.nextId cfg.injectedIdFloor = .ok (n : Int))
    (hrun : g.splice cfg chain site.1 site.2 = .ok h) (hp : g.node? id = some p) :
    h.node? id = some { p with inputs := p.inputs.map fun input v =>
      if (id, input) ∈ site.2 then .connection (feederAt site.1 n chain.length) 0 else v } := by
  obtain ⟨longer, hentries, -, rfl⟩ := exists_longer_of_splice hfirst hrun
  have hlonger : longer.node? id = some p := (node?_longer hentries).2 (Or.inl hp)
  have hinputs : ∀ t ∈ site.2.filter (fun t => t.1 = id), t.2 ∈ p.inputs.keys := by
    intro t ht
    obtain ⟨hmem, hid⟩ := List.mem_filter.1 ht
    obtain rfl : t.1 = id := of_decide_eq_true hid
    obtain ⟨l, hl, -⟩ := hsite.targets t hmem
    rw [linkAt?_of_node? hp] at hl
    exact Dict.mem_keys_iff.2 ⟨_, Node.link?_eq_some_iff.1 hl⟩
  rw [node?_wire, hlonger, Option.map_some, foldl_setInput_of_mem _ _ hinputs, ← rowEnd_eq_feederAt]
  have hsame : ∀ input, (input ∈ (site.2.filter fun t => t.1 = id).map Prod.snd) =
      ((id, input) ∈ site.2) := by
    intro input
    simp
  simp only [hsame, Link.toInput]

/-- **A node of the row** is not touched by the wiring. -/
theorem node?_splice_of_mem_row {site : Site} (hsite : g.SiteIn site)
    (hfirst : g.nextId cfg.injectedIdFloor = .ok (n : Int))
    (hrun : g.splice cfg chain site.1 site.2 = .ok h)
    (hp : (id, p) ∈ row cfg.modifierClassType chain site.1 n) : h.node? id = some p := by
  have hfresh := not_has_of_mem_rowIds (idsBelow_nextId hfirst).2 (mem_rowIds_of_mem_row hp)
  have hnone : site.2.filter (fun t => t.1 = id) = [] := by
    refine List.filter_eq_nil_iff.2 fun t ht hid => hfresh ?_
    obtain ⟨l, hl, -⟩ := hsite.targets t ht
    rw [← of_decide_eq_true hid]
    exact has_of_linkAt? hl
  obtain ⟨longer, hentries, -, rfl⟩ := exists_longer_of_splice hfirst hrun
  rw [node?_wire, (node?_longer hentries).2 (Or.inr hp), hnone]
  rfl

theorem inputAt?_splice {site : Site} (hsite : g.SiteIn site)
    (hfirst : g.nextId cfg.injectedIdFloor = .ok (n : Int))
    (hrun : g.splice cfg chain site.1 site.2 = .ok h) (hid : g.has id) (input : String) :
    h.inputAt? id input = (g.inputAt? id input).map fun v =>
      if (id, input) ∈ site.2 then .connection (feederAt site.1 n chain.length) 0 else v := by
  obtain ⟨p, hp⟩ := has_iff.1 hid
  rw [inputAt?_of_node? (node?_splice_of_node? hsite hfirst hrun hp), inputAt?_of_node? hp]
  exact Dict.get?_map _ _ _

/-- **A splice at a place of the workflow**, node by node. -/
theorem chained_of_splice {site : Site} (hsite : g.SiteIn site)
    (hfirst : g.nextId cfg.injectedIdFloor = .ok (n : Int))
    (hrun : g.splice cfg chain site.1 site.2 = .ok h) :
    g.Chained h cfg.modifierClassType chain site.1 n (fun id input => (id, input) ∈ site.2) where
  keys := keys_splice hfirst hrun
  fresh id hid := not_has_of_mem_rowIds (idsBelow_nextId hfirst).2 hid
  added i s hs := node?_splice_of_mem_row hsite hfirst hrun (mem_row_of_getElem? hs _ _ _)
  kept id p hp :=
    ⟨_, node?_splice_of_node? hsite hfirst hrun hp, rfl, Dict.keys_map _ _⟩
  wired id input ht := by
    obtain ⟨l, hl, -⟩ := hsite.targets _ ht
    obtain ⟨p, hp, hlink⟩ := linkAt?_eq_some_iff.1 hl
    rw [inputAt?_splice hsite hfirst hrun (has_of_linkAt? hl), inputAt?_of_node? hp,
      Node.link?_eq_some_iff.1 hlink, Option.map_some, if_pos ht]
  unwired id input hid ht := by
    rw [inputAt?_splice hsite hfirst hrun hid]
    simp only [if_neg ht, Option.map_id']
  rest := rest_splice hfirst hrun

/-- **A chain that has a place** is put in there if its numbers can be written. -/
theorem chainsTo_spliceAt {site : Site} (hne : chain ≠ []) (hsite : g.SiteIn site)
    (hfirst : g.nextId cfg.injectedIdFloor = .ok (n : Int)) :
    g.ChainsTo cfg chain site.1 n (fun id input => (id, input) ∈ site.2)
      (g.spliceAt cfg chain (some site)) := by
  rw [spliceAt]
  by_cases hw : NumbersFit chain n
  · obtain ⟨longer, -, -, hrun⟩ := splice_of_numbersFit hfirst hw site.1 site.2
    exact Or.inl ⟨(numbersFit_iff hne).1 hw, _, by rw [hrun]; rfl,
      chained_of_splice hsite hfirst hrun⟩
  · refine Or.inr ⟨lt_of_not_numbersFit hw, ?_⟩
    rw [splice_of_not_numbersFit hfirst hw]
    rfl

/-! ## Both ways to put a chain in -/

theorem injects_of_nextId (hk : g.WellKeyed) (hne : chain ≠ [])
    (hfirst : g.nextId cfg.injectedIdFloor = .ok (n : Int)) : g.Injects cfg chain n where
  decided := by
    cases hp : g.modelSource? cfg with
    | none => exact Or.inl (modelSource?_eq_none_iff.1 hp)
    | some p => exact Or.inr ⟨p, modelSource?_eq_some_iff.1 hp⟩
  absent habsent := by
    rw [inject, modelSource?_eq_none_iff.2 habsent]
    split <;> rfl
  unused p hp hunused := by
    rw [inject, modelSource?_eq_some_iff.2 hp]
    simp [(consumers_eq_nil_iff hk).2 hunused]
  used p hp hused := by
    obtain ⟨id, input, hl⟩ := hused
    have hsome : g.consumers p.id ≠ [] := fun hnone => (consumers_eq_nil_iff hk).1 hnone id input hl
    have hsite : g.injectionSite? cfg chain = some (p.id, g.consumers p.id) := by
      rw [injectionSite?, if_neg (by simpa using hne), modelSource?_eq_some_iff.2 hp,
        Option.bind_some, if_neg (by simpa using hsome)]
    have htarget : (fun id input => g.linkAt? id input = some ⟨p.id, 0⟩) =
        fun id input => (id, input) ∈ g.consumers p.id :=
      funext fun id => funext fun input => propext (mem_consumers_iff (t := (id, input)) hk).symm
    rw [inject_eq_spliceAt, hsite, htarget]
    exact chainsTo_spliceAt hne (siteIn_of_injectionSite? hk hsite).2 hfirst

theorem extends_of_nextId (hk : g.WellKeyed) (hne : chain ≠ [])
    (hfirst : g.nextId cfg.injectedIdFloor = .ok (n : Int)) (path : NoisePath) (c : Classifier) :
    g.Extends cfg chain n path c where
  decided := by
    cases hs : g.extensionSite? cfg path c with
    | none => exact Or.inl (extensionSite?_eq_none_iff.1 hs)
    | some found => exact Or.inr ⟨found.1, found.2, extensionSite?_eq_some_iff.1 hs⟩
  absent habsent := by
    rw [extend, extensionSite?_eq_none_iff.2 habsent]
    split <;> rfl
  found s m hs hm := by
    have hsite : g.extendingSite? cfg chain path c = some (m.id, [(s.id, "model")]) := by
      rw [extendingSite?, extensionSite?_eq_some_iff.2 ⟨hs, hm⟩]
      simp [hne]
    have htarget : (fun id input => id = s.id ∧ input = "model") =
        fun id input => (id, input) ∈ [(s.id, "model")] := by
      funext id input
      simp
    rw [extend_eq_spliceAt, hsite, htarget]
    exact chainsTo_spliceAt hne (siteIn_of_extendingSite? hk hsite).2 hfirst

/-- **Chains are put in where they belong, under fresh ids.** Where a workflow has a next id, it is
the least number from the floor on above every id made of digits, and a chain is numbered from it
on, put in fresh as well as extended on any path by any classifier. -/
theorem nextId_injects_extends (hk : g.WellKeyed) (hne : chain ≠ [])
    (hfloor : 0 ≤ cfg.injectedIdFloor) (hfirst : g.nextId cfg.injectedIdFloor = .ok first) :
    ∃ n : Nat, first = n ∧
      IsLeast {bound : Int | cfg.injectedIdFloor ≤ bound ∧ g.IdsBelow bound} n ∧
      g.Injects cfg chain n ∧ ∀ path c, g.Extends cfg chain n path c := by
  obtain ⟨hge, hids⟩ := idsBelow_nextId hfirst
  obtain ⟨n, rfl⟩ := Int.eq_ofNat_of_zero_le (by omega : 0 ≤ first)
  refine ⟨n, rfl, ⟨⟨hge, hids⟩, ?_⟩, injects_of_nextId hk hne hfirst,
    extends_of_nextId hk hne hfirst⟩
  rintro bound ⟨hbound, hbelow⟩
  obtain ⟨first', hfirst', hle⟩ := nextId_le_of_idsBelow hbelow hbound
  obtain rfl : (n : Int) = first' := Except.ok.inj (hfirst.symm.trans hfirst')
  exact hle

/-- A loader, a modifier behind it with a number for its id, and a model-sampling node that the
modifier feeds. -/
def modified (n : Nat) : Graph where
  nodes := ⟨[("loader", { id := "loader", classType := "UNETLoader" }),
      ((Json.int n).display,
        modifierNode "LoraLoaderModelOnly" (Json.int n).display lightModifier "loader" 0),
      ("sampling", { id := "sampling", classType := "ModelSamplingSD3"
                     inputs := .ofList [("model", .connection (Json.int n).display 0)] })], by
    have hdigits : ∀ word ∈ ["loader", "sampling"], Text.isDigits word = false := by decide +kernel
    have hloader := display_natCast_ne (hdigits "loader" (by simp)) n
    have hsampling := display_natCast_ne (hdigits "sampling" (by simp)) n
    simp [Entries.keys, hloader, hsampling.symm]⟩

/-- The model-sampling node is on the path of high noise. -/
def samplingHigh : Classifier := .table [("sampling", [.high])]

/-- The hypotheses of `nextId_injects_extends` are met, and both places are there: the chain is
numbered from 251 on, and its end feeds what the loader fed, or else the model-sampling node. -/
theorem modified_injects_extends :
    (modified 250).WellKeyed ∧ [lightModifier, lightModifier] ≠ [] ∧
      0 ≤ ({} : CompilerSettings).injectedIdFloor ∧
      (modified 250).nextId ({} : CompilerSettings).injectedIdFloor = .ok 251 ∧
      (∃ n : Nat, (251 : Int) = n ∧
        IsLeast {bound : Int | ({} : CompilerSettings).injectedIdFloor ≤ bound ∧
          (modified 250).IdsBelow bound} n ∧
        (modified 250).Injects {} [lightModifier, lightModifier] n ∧
        ∀ path c, (modified 250).Extends {} [lightModifier, lightModifier] n path c) ∧
      (((modified 250).inject {} [lightModifier, lightModifier]).toOption.map
        fun r => r.map edges) = some (some [⟨"252", 0, "250", "model"⟩,
          ⟨"250", 0, "sampling", "model"⟩, ⟨"loader", 0, "251", "model"⟩,
          ⟨"251", 0, "252", "model"⟩]) ∧
      (((modified 250).extend {} [lightModifier, lightModifier] .high samplingHigh).toOption.map
        fun r => r.map edges) = some (some [⟨"loader", 0, "250", "model"⟩,
          ⟨"252", 0, "sampling", "model"⟩, ⟨"250", 0, "251", "model"⟩,
          ⟨"251", 0, "252", "model"⟩]) := by
  have hk : (modified 250).WellKeyed := by decide +kernel
  have hfirst : (modified 250).nextId ({} : CompilerSettings).injectedIdFloor = .ok 251 := by rfl
  exact ⟨hk, by simp, by decide, hfirst,
    nextId_injects_extends hk (by simp) (by decide) hfirst, by decide +kernel, by decide +kernel⟩

/-! ## Where ids run out -/

theorem wellKeyed_modified (n : Nat) : (modified n).WellKeyed := by
  intro e he
  simp only [modified, List.mem_cons, List.not_mem_nil, or_false] at he
  rcases he with rfl | rfl | rfl <;> rfl

theorem isModelSource_modified (n : Nat) :
    (modified n).IsModelSource {} { id := "loader", classType := "UNETLoader" } := by
  refine ⟨["CheckpointLoaderSimple"], "UNETLoader", [], rfl, ?_, [], _, rfl, rfl, by simp⟩
  simp [modified, nodeList, Dict.values, modifierNode]

theorem samples_modified (n : Nat) :
    ∃ s m, (modified n).IsFirst (fun s => ∃ m, (modified n).Samples {} .high samplingHigh s m) s ∧
      (modified n).Samples {} .high samplingHigh s m := by
  have hmodifier : (modified n).node? (Json.int n).display =
      some (modifierNode "LoraLoaderModelOnly" (Json.int n).display lightModifier "loader" 0) :=
    Dict.get?_eq_some_iff.2 (by simp [modified])
  have hsamples : (modified n).Samples {} .high samplingHigh
      { id := "sampling", classType := "ModelSamplingSD3"
        inputs := .ofList [("model", .connection (Json.int n).display 0)] }
      (modifierNode "LoraLoaderModelOnly" (Json.int n).display lightModifier "loader" 0) :=
    ⟨rfl, ⟨_, rfl, hmodifier⟩, rfl, List.mem_singleton.2 rfl⟩
  refine ⟨_, _, ⟨[_, _], [], rfl, ⟨_, hsamples⟩, ?_⟩, hsamples⟩
  -- the nodes before it are of other class types
  rintro q hq ⟨m, hm⟩
  have hclass := hm.classType
  simp only [List.mem_cons, List.not_mem_nil, or_false] at hq
  rcases hq with rfl | rfl <;> simp [modifierNode] at hclass

theorem nextId_modified {n : Nat} (hn : n + 1 = Numeral.unwritable) {floor : Int}
    (hfloor : floor ≤ (n + 1 : Nat)) : (modified n).nextId floor = .ok ((n + 1 : Nat) : Int) := by
  have hkeys : (modified n).nodes.keys = ["loader", (Json.int n).display, "sampling"] := rfl
  refine nextId_of_greatest (by omega) ?_ ?_ hfloor
  · rw [has_iff_mem_keys, hkeys]
    simp
  · intro id hid hdigits
    rw [has_iff_mem_keys, hkeys] at hid
    simp only [List.mem_cons, List.not_mem_nil, or_false] at hid
    rcases hid with rfl | rfl | rfl
    · exact absurd hdigits (by decide +kernel)
    · exact ⟨n, by rw [integerOfText_display_natCast, if_pos (by omega)], by omega⟩
    · exact absurd hdigits (by decide +kernel)

/-- **A chain with a place need not go in**: with the largest number that can be written on a node,
the next one is there, and no node can have it. -/
theorem not_injects_modified :
    let g := modified (Numeral.unwritable - 1)
    g.WellKeyed ∧
      (∃ first, g.nextId ({} : CompilerSettings).injectedIdFloor = .ok first) ∧
      (∃ p, g.IsModelSource {} p ∧ ∃ id input, g.linkAt? id input = some ⟨p.id, 0⟩) ∧
      (∃ s m, g.IsFirst (fun s => ∃ m, g.Samples {} .high samplingHigh s m) s ∧
        g.Samples {} .high samplingHigh s m) ∧
      g.inject {} [lightModifier] = .error idTooLong ∧
      g.extend {} [lightModifier] .high samplingHigh = .error idTooLong := by
  have hlong := Numeral.thousand_le_unwritable
  obtain ⟨n, hn⟩ : ∃ n, n + 1 = Numeral.unwritable := ⟨Numeral.unwritable - 1, by omega⟩
  rw [show Numeral.unwritable - 1 = n by omega]
  have hk := wellKeyed_modified n
  have hne : [lightModifier] ≠ [] := by simp
  have hfirst := nextId_modified hn (show (100 : Int) ≤ (n + 1 : Nat) by omega)
  have hmodifier : (modified n).node? (Json.int n).display =
      some (modifierNode "LoraLoaderModelOnly" (Json.int n).display lightModifier "loader" 0) :=
    Dict.get?_eq_some_iff.2 (by simp [modified])
  have hfed : ∃ id input, (modified n).linkAt? id input = some ⟨"loader", 0⟩ :=
    ⟨(Json.int n).display, "model", by rw [linkAt?_of_node? hmodifier, link?_modifierNode]; rfl⟩
  -- either way the only number is the one after the largest
  have hlength : ¬ (n + 1 + [lightModifier].length ≤ Numeral.unwritable) := by
    rw [List.length_singleton]
    omega
  obtain ⟨s, m, hs, hm⟩ := samples_modified n
  refine ⟨hk, ⟨_, hfirst⟩, ⟨_, isModelSource_modified n, hfed⟩, ⟨s, m, hs, hm⟩, ?_, ?_⟩
  · rcases (injects_of_nextId hk hne hfirst).used _ (isModelSource_modified n) hfed with
      ⟨hfits, -⟩ | ⟨-, herror⟩
    · exact absurd hfits hlength
    · exact herror
  · rcases (extends_of_nextId hk hne hfirst .high samplingHigh).found s m hs hm with
      ⟨hfits, -⟩ | ⟨-, herror⟩
    · exact absurd hfits hlength
    · exact herror

end Graph

end NodeFlow
