import NodeFlow.Proofs.Bypass.Simulation
import NodeFlow.Proofs.Modifier.Row
/-!
# Fresh chains and bypassed nodes

A fresh chain may be put in before or after bypassed nodes are removed. The
first rewires inputs of bypassed nodes as well and may have to number its
nodes higher, since ids of bypassed nodes are taken; the workflows are the
same but for these numbers. Both are the resolved workflow with the chain
behind its model source (`Spliced.resolveBypassed`), so all that is left is
to compare two rows behind the same node (`Spliced.renamedTo`).
-/

namespace NodeFlow

variable {cfg : CompilerSettings} {chain : Chain} {source : String} {n n' : Nat}

namespace Graph

variable {g a b : Graph} {limit first : Int} {id input : String} {l : Link} {p : Node}

/-! ## The model source of the resolved workflow -/

theorem classType_resolveNode (n : Node) : (g.resolveNode limit n).classType = n.classType := by
  rw [resolveNode]
  split <;> rfl

theorem nodeList_resolveBypassed :
    (g.resolveBypassed limit).graph.nodeList =
      (g.nodeList.filter fun n => !n.isBypassed).map (g.resolveNode limit) := by
  rw [nodeList, nodeList, nodes_resolveBypassed]
  simp only [Dict.values, Dict.map, Dict.filter, List.map_map, List.filter_map]
  rfl

/-- The nodes of a class type that are left, in their order. -/
theorem ofType_resolveBypassed (classType : String) :
    (g.resolveBypassed limit).graph.ofType classType =
      ((g.ofType classType).filter fun n => !n.isBypassed).map (g.resolveNode limit) := by
  have hclass : ((fun n : Node => decide (n.classType = classType)) ∘ g.resolveNode limit) =
      fun n => decide (n.classType = classType) := by
    funext n
    rw [Function.comp_apply, classType_resolveNode]
  rw [ofType, ofType, nodeList_resolveBypassed, List.filter_map, hclass, List.filter_filter,
    List.filter_filter]
  simp only [Bool.and_comm]

/-- **The model source stays** if it is not bypassed: no node comes before it. -/
theorem modelSource?_resolveBypassed (hp : g.modelSource? cfg = some p)
    (hlive : p.isBypassed = false) (limit : Int) :
    (g.resolveBypassed limit).graph.modelSource? cfg = some (g.resolveNode limit p) := by
  rw [modelSource?] at hp ⊢
  -- along the class types: where there is no node of one, none is left
  generalize cfg.modelSourceClassTypes = classTypes at hp ⊢
  induction classTypes with
  | nil => simp at hp
  | cons classType rest ih =>
    rw [List.findSome?_cons] at hp ⊢
    rw [ofType_resolveBypassed]
    cases hnodes : g.ofType classType with
    | nil =>
      rw [hnodes] at hp
      exact ih hp
    | cons q nodes =>
      rw [hnodes] at hp
      obtain rfl : q = p := Option.some.inj hp
      rw [List.filter_cons_of_pos (by simp [hlive])]
      rfl

/-- A link of the resolved workflow is one of the workflow, maybe at a bypassed node. -/
theorem exists_linkAt?_of_resolveBypassed (hk : g.WellKeyed)
    (h : (g.resolveBypassed limit).graph.linkAt? id input = some l) :
    ∃ id input, g.linkAt? id input = some l := by
  rcases linkAt?_resolveBypassed_cases hk h with ⟨hl, -⟩ | ⟨l₀, hl₀, -, type, steps, hwalk⟩
  · exact ⟨id, input, hl⟩
  · exact (walk_induction (P := fun l => ∃ id input, g.linkAt? id input = some l) hwalk
      ⟨id, input, hl₀⟩ fun l _ input _ _ hnext => ⟨l.source, input, hnext⟩).1

theorem IdsBelow.resolveBypassed {bound : Int} (hids : g.IdsBelow bound) (limit : Int) :
    (g.resolveBypassed limit).graph.IdsBelow bound :=
  fun id hid => hids id (has_resolveBypassed_iff.1 hid).1

/-! ## Both orders -/

theorem Spliced.keys_eq (hs : g.Spliced a cfg chain source n) :
    a.nodes.keys = g.nodes.keys ++ rowIds n chain.length := by
  rw [Relinked.keys_eq hs, keys_row]

theorem isBypassedAt_of_not_has (h : ¬ g.has id) : g.isBypassedAt id = false := by
  rw [← Bool.not_eq_true]
  exact fun hby => h (has_of_isBypassedAt hby)

/-- **A chain behind a live node moves no link of a bypassed one.** -/
theorem Spliced.lockstep (hs : g.Spliced a cfg chain source n) (hids : g.IdsBelow n)
    (hsource : g.has source) (hlive : g.isBypassedAt source = false) :
    g.Lockstep (Link.redirect source (rowEnd chain source n))
      (row cfg.modifierClassType chain source n) a := by
  have hrow : ∀ id, id = source ∨ id ∈ rowIds n chain.length →
      a.has id ∧ a.isBypassedAt id = false := by
    rintro id (rfl | hid)
    · exact ⟨Relinked.has hs hsource, by rw [Relinked.isBypassedAt_eq hs, hlive]⟩
    · refine ⟨has_iff_mem_keys.2 ?_, ?_⟩
      · rw [hs.keys_eq]
        exact List.mem_append_right _ hid
      · rw [Relinked.isBypassedAt_eq hs, isBypassedAt_of_not_has (not_has_of_mem_rowIds hids hid)]
  refine ⟨hs, ?_, ?_, ?_⟩
  · intro l hby
    refine Link.redirect_of_ne (fun he => ?_) _
    rw [he, hlive] at hby
    cases hby
  · intro l hhas hl
    rw [Link.redirect]
    split
    · exact hrow _ (rowEnd_cases chain source n)
    · exact ⟨Relinked.has hs hhas, by rw [Relinked.isBypassedAt_eq hs, hl]⟩
  · intro e he l hl
    exact (hrow _ (source_of_mem_row he hl)).2

/-- **Resolving moves past a splice**: first spliced and then resolved, a workflow is the resolved
one with the same row behind the same node, and nothing else is reported. -/
theorem Spliced.resolveBypassed (hs : g.Spliced a cfg chain source n) (hclosed : g.Closed)
    (hids : g.IdsBelow n) (hsource : g.has source) (hlive : g.isBypassedAt source = false)
    (limit : Int) :
    (g.resolveBypassed limit).graph.Spliced (a.resolveBypassed limit).graph cfg chain source n ∧
      (a.resolveBypassed limit).warnings = (g.resolveBypassed limit).warnings ∧
      (a.resolveBypassed limit).removed = (g.resolveBypassed limit).removed :=
  have hstep := hs.lockstep hids hsource hlive
  ⟨hstep.resolveBypassed hclosed limit, hstep.warnings_resolveBypassed hclosed limit,
    Relinked.removed_resolveBypassed hs limit⟩

/-- **Two rows behind one node are the same but for their numbers.** -/
theorem Spliced.renamedTo (ha : g.Spliced a cfg chain source n)
    (hb : g.Spliced b cfg chain source n') (hk : g.WellKeyed) (hclosed : g.Closed)
    (hids : g.IdsBelow n) (hsource : g.has source) :
    RenamedTo (renumbering (rowIds n chain.length) (rowIds n' chain.length)) a b := by
  have hfix : ∀ id, g.has id →
      renumbering (rowIds n chain.length) (rowIds n' chain.length) id = id := by
    intro id hid
    refine renumbering_of_not_mem (by rw [length_rowIds, length_rowIds]) fun hmem => ?_
    exact not_has_of_mem_rowIds hids hmem hid
  obtain ⟨hnodes, hend⟩ := row_rename (fun i hi => renumbering_rowIds hi n n')
    (hfix source hsource) cfg.modifierClassType
  refine ⟨?_, by rw [ha.rest, hb.rest]⟩
  rw [ha.entries, hb.entries, List.map_append, hnodes, List.map_map]
  congr 1
  refine List.map_congr_left fun e he => ?_
  have hn : g.node? e.1 = some e.2 := Dict.get?_eq_some_iff.2 he
  have hkey := hfix e.1 (has_iff.2 ⟨_, hn⟩)
  have hid : (e.2.mapLinks (Link.redirect source (rowEnd chain source n))).id = e.1 :=
    show e.2.id = e.1 from hk.id_eq hn
  rw [Function.comp_apply, Node.rename_of_id (by rw [hid, hkey]), hkey, Node.mapLinks_mapLinks]
  refine congrArg (Prod.mk e.1) (Node.mapLinks_congr fun input l hl => ?_)
  -- links from the source go to the ends of the rows, and all others start at nodes that stay
  by_cases hl₀ : l = ⟨source, 0⟩
  · rw [Link.redirect, Link.redirect, if_pos hl₀, if_pos hl₀, hend]
  · have hhas : g.has l.source := hclosed e.1 input l (by rw [linkAt?_of_node? hn, hl])
    rw [Link.redirect, Link.redirect, if_neg hl₀, if_neg hl₀, hfix _ hhas]

/-- What putting a chain in before and after bypassed nodes are removed have in common: `a` is the
workflow with the chain, `b` the resolved workflow with the chain. -/
structure BothOrders (g a b : Graph) (limit : Int) (ids ids' : List String) : Prop where
  /-- The injected ids of one order. -/
  keys : a.nodes.keys = g.nodes.keys ++ ids
  /-- The injected ids of the other. -/
  keys' : b.nodes.keys = (g.resolveBypassed limit).graph.nodes.keys ++ ids'
  /-- The results are the same, the injected ids renamed in order. -/
  renamed : RenamedTo (renumbering ids ids') (a.resolveBypassed limit).graph b
  warnings : (a.resolveBypassed limit).warnings = (g.resolveBypassed limit).warnings
  removed : (a.resolveBypassed limit).removed = (g.resolveBypassed limit).removed

/-- **Putting in a fresh chain commutes with removing bypassed nodes**, up to the ids of the chain
and whatever the limit of hops, if the model source is not bypassed and still feeds something by its
first output. Or else the ids of the first order are too long to be written. -/
theorem inject_resolveBypassed (hk : g.WellKeyed) (hclosed : g.Closed)
    (hfloor : 0 ≤ cfg.injectedIdFloor) (hfirst : g.nextId cfg.injectedIdFloor = .ok first)
    (hp : g.modelSource? cfg = some p) (hlive : p.isBypassed = false)
    (hfed : ∃ id input, (g.resolveBypassed limit).graph.linkAt? id input = some ⟨p.id, 0⟩)
    (chain : Chain) :
    (∃ a b ids ids', ((g.inject cfg chain).map fun r => r.getD g) = .ok a ∧
      (((g.resolveBypassed limit).graph.inject cfg chain).map fun r =>
        r.getD (g.resolveBypassed limit).graph) = .ok b ∧
      ids.length = chain.length ∧ ids'.length = chain.length ∧
      g.BothOrders a b limit ids ids') ∨
    (((g.inject cfg chain).map fun r => r.getD g) = .error idTooLong ∧
      Numeral.unwritable < first + chain.length) := by
  obtain ⟨hge, hids⟩ := idsBelow_nextId hfirst
  obtain ⟨n, rfl⟩ := Int.eq_ofNat_of_zero_le (by omega : 0 ≤ first)
  -- removing nodes may free ids, so the other order starts at a number that is not greater
  obtain ⟨first', hfirst', hle⟩ := nextId_le_of_idsBelow (hids.resolveBypassed limit) hge
  obtain ⟨hge', -⟩ := idsBelow_nextId hfirst'
  obtain ⟨n', rfl⟩ := Int.eq_ofNat_of_zero_le (by omega : 0 ≤ first')
  obtain ⟨id, hid⟩ := mem_nodeList_iff.1 (modelSource?_mem hp)
  obtain rfl : p.id = id := hk.id_eq hid
  have hsource : g.has p.id := has_iff.2 ⟨p, hid⟩
  have hby : g.isBypassedAt p.id = false := by rw [isBypassedAt_of_node? hid, hlive]
  obtain ⟨target, input, hl⟩ := hfed
  have hk' := hk.resolveBypassed limit
  have hp' := modelSource?_resolveBypassed hp hlive limit
  have hfed' : ∃ id input, (g.resolveBypassed limit).graph.linkAt? id input =
      some ⟨(g.resolveNode limit p).id, 0⟩ := ⟨target, input, by rw [id_resolveNode, hl]⟩
  rcases inject_of_source hk hp (exists_linkAt?_of_resolveBypassed hk hl) hfirst chain with
    ⟨hw, a, ha, hsa⟩ | ⟨hw, ha⟩
  · rcases inject_of_source hk' hp' hfed' hfirst' chain with ⟨-, b, hb, hsb⟩ | ⟨hw', -⟩
    · rw [id_resolveNode] at hsb
      obtain ⟨hsr, hwarnings, hremoved⟩ := hsa.resolveBypassed hclosed hids hsource hby limit
      refine Or.inl ⟨a, b, _, _, ha, hb, length_rowIds n _, length_rowIds n' _,
        hsa.keys_eq, hsb.keys_eq, ?_, hwarnings, hremoved⟩
      exact hsr.renamedTo hsb hk' ((resolveBypassed_closesBypass hk limit).closed hclosed)
        (hids.resolveBypassed limit) (has_resolveBypassed_iff.2 ⟨hsource, hby⟩)
    · exact absurd (hw.mono (by omega)) hw'
  · have := lt_of_not_numbersFit hw
    exact Or.inr ⟨ha, by omega⟩

/-- A loader, a bypassed modifier with a high id behind it, and a sampler that both feed. -/
def passedModifier : Graph where
  nodes := .ofList [
    ("1", { id := "1", classType := "CheckpointLoaderSimple" }),
    ("300", { id := "300", classType := "LoraLoaderModelOnly", mode := 4
              inputs := .ofList [("model", .connection "1" 0)] }),
    ("3", { id := "3", classType := "KSampler"
            inputs := .ofList [("model", .connection "300" 0), ("vae", .connection "1" 2)] })]

/-- Two modifiers. -/
def twoModifiers : Chain := [⟨"a.safetensors", .one⟩, ⟨"b.safetensors", .one⟩]

/-- The hypotheses of `inject_resolveBypassed` are met where only the bypassed modifier is fed by
the loader: the chain is numbered from 301 on in one order and from 100 on in the other. -/
theorem passedModifier_bothOrders :
    passedModifier.WellKeyed ∧ passedModifier.Closed ∧
      passedModifier.nextId ({} : CompilerSettings).injectedIdFloor = .ok 301 ∧
      (passedModifier.resolveBypassed 10).graph.nextId
        ({} : CompilerSettings).injectedIdFloor = .ok 100 ∧
      ∃ a b ids ids',
        ((passedModifier.inject {} twoModifiers).map fun r => r.getD passedModifier) = .ok a ∧
        (((passedModifier.resolveBypassed 10).graph.inject {} twoModifiers).map fun r =>
          r.getD (passedModifier.resolveBypassed 10).graph) = .ok b ∧
        ids.length = twoModifiers.length ∧ ids'.length = twoModifiers.length ∧
        passedModifier.BothOrders a b 10 ids ids' := by
  have hk : passedModifier.WellKeyed := by decide +kernel
  have hclosed : passedModifier.Closed := by
    have hvalid : passedModifier.structureErrors .empty = [] := by decide +kernel
    exact (structureErrors_eq_nil_iff.1 hvalid).closed
  have hfirst : passedModifier.nextId ({} : CompilerSettings).injectedIdFloor = .ok 301 := by rfl
  have hp : passedModifier.modelSource? {} =
      some { id := "1", classType := "CheckpointLoaderSimple" } := by decide +kernel
  have hfed : ∃ id input, (passedModifier.resolveBypassed 10).graph.linkAt? id input =
      some ⟨"1", 0⟩ := ⟨"3", "model", by decide +kernel⟩
  refine ⟨hk, hclosed, hfirst, by rfl, ?_⟩
  rcases inject_resolveBypassed hk hclosed (by decide) hfirst hp rfl hfed twoModifiers with
    hboth | ⟨-, hlong⟩
  · exact hboth
  · exact absurd hlong (by decide +kernel)

/-! ## Where ids run out -/

/-- A loader and the sampler that it feeds, beside a bypassed node with a number for its id. -/
def crowded (n : Nat) : Graph where
  nodes := ⟨[("loader", { id := "loader", classType := "CheckpointLoaderSimple" }),
      ("sampler", { id := "sampler", classType := "KSampler"
                    inputs := .ofList [("model", .connection "loader" 0)] }),
      ((Json.int n).display, { id := (Json.int n).display, classType := "Reroute", mode := 4 })], by
    have hloader : "loader" ≠ (Json.int n).display := display_natCast_ne (by decide +kernel) n
    have hsampler : "sampler" ≠ (Json.int n).display := display_natCast_ne (by decide +kernel) n
    simp [Entries.keys, hloader, hsampler]⟩

theorem keys_crowded (n : Nat) :
    (crowded n).nodes.keys = ["loader", "sampler", (Json.int n).display] := rfl

theorem wellKeyed_crowded (n : Nat) : (crowded n).WellKeyed := by
  intro e he
  simp only [crowded, List.mem_cons, List.not_mem_nil, or_false] at he
  rcases he with rfl | rfl | rfl <;> rfl

theorem closed_crowded (n : Nat) : (crowded n).Closed := by
  intro id input l hl
  obtain ⟨m, hm, hlink⟩ := linkAt?_eq_some_iff.1 hl
  have hmem : (id, m) ∈ (crowded n).nodes.entries := Dict.get?_eq_some_iff.1 hm
  rw [← Node.mem_links_iff_link?] at hlink
  simp only [crowded, List.mem_cons, List.not_mem_nil, or_false, Prod.mk.injEq] at hmem
  rcases hmem with ⟨-, rfl⟩ | ⟨-, rfl⟩ | ⟨-, rfl⟩
  · cases hlink
  · -- only the sampler has a link
    obtain ⟨-, rfl⟩ : input = "model" ∧ l = ⟨"loader", 0⟩ :=
      Prod.mk.inj (List.mem_singleton.1 hlink)
    rfl
  · cases hlink

/-- Behind the largest number that can be written comes the next one all the same. -/
theorem nextId_crowded {n : Nat} (hn : n + 1 = Numeral.unwritable) {floor : Int}
    (hfloor : floor ≤ (n + 1 : Nat)) : (crowded n).nextId floor = .ok ((n + 1 : Nat) : Int) := by
  have hread : integerOfText (Json.int n).display = .ok (n : Int) := by
    rw [integerOfText_display_natCast, if_pos (by omega)]
  have hids : (crowded n).IdsBelow (n + 1 : Nat) := by
    intro id hid hdigits
    rw [has_iff_mem_keys, keys_crowded] at hid
    simp only [List.mem_cons, List.not_mem_nil, or_false] at hid
    rcases hid with rfl | rfl | rfl
    · exact absurd hdigits (by decide +kernel)
    · exact absurd hdigits (by decide +kernel)
    · exact ⟨n, hread, by omega⟩
  refine nextId_of_greatest (by omega) ?_ hids hfloor
  rw [has_iff_mem_keys, keys_crowded]
  simp

/-- **The two orders need not agree**: with the largest number that can be written on a bypassed
node, a chain can only be put in once the node is removed. -/
theorem not_inject_crowded :
    let g := crowded (Numeral.unwritable - 1)
    g.WellKeyed ∧ g.Closed ∧
      (∃ first, g.nextId ({} : CompilerSettings).injectedIdFloor = .ok first) ∧
      (∃ p, g.modelSource? {} = some p ∧ p.isBypassed = false ∧
        ∃ id input, (g.resolveBypassed 10).graph.linkAt? id input = some ⟨p.id, 0⟩) ∧
      ((g.inject {} twoModifiers).map fun r => r.getD g) = .error idTooLong ∧
      ∃ b, (((g.resolveBypassed 10).graph.inject {} twoModifiers).map fun r =>
        r.getD (g.resolveBypassed 10).graph) = .ok b := by
  have hlong := Numeral.thousand_le_unwritable
  obtain ⟨n, hn⟩ : ∃ n, n + 1 = Numeral.unwritable := ⟨Numeral.unwritable - 1, by omega⟩
  rw [show Numeral.unwritable - 1 = n by omega]
  have hk := wellKeyed_crowded n
  have hfirst := nextId_crowded hn (show (100 : Int) ≤ (n + 1 : Nat) by omega)
  have hp : (crowded n).modelSource? {} =
      some { id := "loader", classType := "CheckpointLoaderSimple" } := by
    simp [modelSource?, ofType, nodeList, Dict.values, crowded]
  have hl : ((crowded n).resolveBypassed 10).graph.linkAt? "sampler" "model" =
      some ⟨"loader", 0⟩ := by
    rw [linkAt?_resolveBypassed hk (by rfl)]
    rfl
  refine ⟨hk, closed_crowded n, ⟨_, hfirst⟩, ⟨_, hp, rfl, "sampler", "model", hl⟩, ?_, ?_⟩
  · rcases inject_of_source hk hp ⟨"sampler", "model", by rfl⟩ hfirst twoModifiers with
      ⟨hw, -⟩ | ⟨-, herror⟩
    · have := hw 0 (by decide)
      omega
    · exact herror
  · -- no id that is left is made of digits, so the numbers start at the floor
    have hids : ((crowded n).resolveBypassed 10).graph.IdsBelow 100 := by
      intro id hid hdigits
      obtain ⟨hhas, hlive⟩ := has_resolveBypassed_iff.1 hid
      rw [has_iff_mem_keys, keys_crowded] at hhas
      simp only [List.mem_cons, List.not_mem_nil, or_false] at hhas
      rcases hhas with rfl | rfl | rfl
      · exact absurd hdigits (by decide +kernel)
      · exact absurd hdigits (by decide +kernel)
      · have hby : (crowded n).node? (Json.int n).display =
            some { id := (Json.int n).display, classType := "Reroute", mode := 4 } :=
          Dict.get?_eq_some_iff.2 (by simp [crowded])
        rw [isBypassedAt_of_node? hby] at hlive
        cases hlive
    obtain ⟨first, hfirst', hle⟩ : ∃ first, ((crowded n).resolveBypassed 10).graph.nextId
        ({} : CompilerSettings).injectedIdFloor = .ok first ∧ first ≤ 100 :=
      nextId_le_of_idsBelow hids (Int.le_refl 100)
    have hge : 100 ≤ first := (idsBelow_nextId hfirst').1
    obtain rfl : first = (100 : Nat) := by omega
    have hlive : ({ id := "loader", classType := "CheckpointLoaderSimple" } : Node).isBypassed =
      false := rfl
    rcases inject_of_source (hk.resolveBypassed 10) (modelSource?_resolveBypassed hp hlive 10)
        ⟨"sampler", "model", by rw [id_resolveNode, hl]⟩ hfirst' twoModifiers with
      ⟨-, b, hb, -⟩ | ⟨hw, -⟩
    · exact ⟨b, hb⟩
    · have hshort : Numeral.unwritable < 100 + 2 := lt_of_not_numbersFit hw
      omega

end Graph

end NodeFlow
