import NodeFlow.Proofs.Modifier.Insertion
/-!
# Fresh chains, one after another

Each fresh chain goes in right behind the model source, in front of the
chains that are there already. What the source fed at first is therefore fed
through all of them, the latest first: `Threads` walks back from a node to
the source, through new modifiers only, and lists what it passes. One chain
keeps what is known of the chains before it (`Stack.inject`), so whole runs
do: `stacked_injectAll`.
-/

namespace NodeFlow

theorem Link.redirect_redirect (source last last' : String) (l : Link) :
    (l.redirect source last).redirect source last' =
      l.redirect source (if last = source then last' else last) := by
  by_cases hl : l = ⟨source, 0⟩
  · by_cases hlast : last = source
    · simp [redirect, hl, hlast]
    · simp [redirect, hl, hlast]
  · simp only [redirect, if_neg hl]

theorem modifierNode_inj {classType id : String} {s s' : Selection} {source source' : String}
    (h : modifierNode classType id s source 0 = modifierNode classType id s' source' 0) :
    s = s' ∧ source = source' := by
  obtain ⟨name, strength⟩ := s
  obtain ⟨name', strength'⟩ := s'
  have hinputs := congrArg (fun n : Node => n.inputs.entries) h
  simpa [modifierNode, Dict.ofList, Dict.insertAll, Dict.insert, Dict.empty, Entries.put,
    and_assoc] using hinputs

/-- Of a modifier only what feeds it is redirected. -/
theorem mapLinks_modifierNode (classType id : String) (s : Selection)
    (source feeder last : String) :
    (modifierNode classType id s feeder 0).mapLinks (Link.redirect source last) =
      modifierNode classType id s (if feeder = source then last else feeder) 0 := by
  have hlink : Link.redirect source last ⟨feeder, 0⟩ =
      ⟨if feeder = source then last else feeder, 0⟩ := by
    by_cases h : feeder = source <;> simp [Link.redirect, h]
  simp only [Node.mapLinks, modifierNode, Dict.ofList, Dict.insertAll, List.foldl_cons,
    List.foldl_nil, Dict.map_insert, InputValue.mapLink, hlink]
  rfl

namespace Graph

variable {g h k : Graph} {cfg : CompilerSettings} {chain : Chain} {chains done : List Chain}
variable {classType source last id input : String} {entries : Chain} {n : Nat} {first : Int}
variable {p : Node}

/-! ## Walking back -/

/-- Walking back from a node to a source, through the model inputs of modifiers that an earlier
workflow does not have, passes these entries; they are listed from the source on. -/
inductive Threads (g k : Graph) (classType source : String) : Chain → String → Prop
  | source : Threads g k classType source [] source
  | back {entries : Chain} {s : Selection} {id feeder : String} (hnew : ¬ g.has id)
      (hnode : k.node? id = some (modifierNode classType id s feeder 0))
      (hrest : Threads g k classType source entries feeder) :
      Threads g k classType source (entries ++ [s]) id

namespace Threads

/-- There is one way back. -/
theorem unique (hs : g.has source) (h : g.Threads k classType source entries id) {entries' : Chain}
    (h' : g.Threads k classType source entries' id) : entries = entries' := by
  induction h generalizing entries' with
  | source =>
    cases h' with
    | source => rfl
    | back hnew => exact absurd hs hnew
  | back hnew hnode _ ih =>
    cases h' with
    | source => exact absurd hs hnew
    | back _ hnode' hrest' =>
      obtain ⟨rfl, rfl⟩ := modifierNode_inj (Option.some.inj (hnode.symm.trans hnode'))
      rw [ih hrest']

/-- The way back goes on through a row. -/
theorem row (h : g.Threads k classType source entries id)
    (hnodes : ∀ e ∈ NodeFlow.row classType chain id n, ¬ g.has e.1 ∧ k.node? e.1 = some e.2) :
    g.Threads k classType source (entries ++ chain) (rowEnd chain id n) := by
  induction chain generalizing entries id n with
  | nil => rwa [List.append_nil]
  | cons s rest ih =>
    obtain ⟨hnew, hnode⟩ := hnodes _ List.mem_cons_self
    have hstep := ih (.back hnew hnode h) fun e he => hnodes e (List.mem_cons_of_mem _ he)
    rwa [List.append_assoc, List.singleton_append] at hstep

/-- **A chain behind the source comes first** on every way from there. -/
theorem splice {k' : Graph} (h : g.Threads k classType source entries id) (hs : g.has source)
    (hold : ∀ id p, k.node? id = some p →
      k'.node? id = some (p.mapLinks (Link.redirect source (rowEnd chain source n))))
    (hnodes : ∀ e ∈ NodeFlow.row classType chain source n,
      ¬ g.has e.1 ∧ k'.node? e.1 = some e.2) :
    g.Threads k' classType source (chain ++ entries)
      (if id = source then rowEnd chain source n else id) := by
  induction h with
  | source =>
    rw [if_pos rfl, List.append_nil]
    exact Threads.source.row hnodes
  | @back entries s id feeder hnew hnode _ ih =>
    have hother : id ≠ source := by
      rintro rfl
      exact hnew hs
    rw [if_neg hother, ← List.append_assoc]
    refine .back hnew ?_ ih
    rw [hold id _ hnode, mapLinks_modifierNode]

/-- The first modifier on the way is fed by the source. -/
theorem fed (h : g.Threads k classType source entries id) :
    id = source ∨ ∃ id, k.linkAt? id "model" = some ⟨source, 0⟩ := by
  induction h with
  | source => exact Or.inl rfl
  | @back entries s id feeder _ hnode _ ih =>
    rcases ih with rfl | hfed
    · exact Or.inr ⟨id, by rw [linkAt?_of_node? hnode, link?_modifierNode, if_pos rfl]⟩
    · exact Or.inr hfed

end Threads

/-! ## Chains behind the source -/

/-- Puts fresh chains in, one after another. -/
def injectAll (cfg : CompilerSettings) (g : Graph) (chains : List Chain) : Except Fault Graph :=
  chains.foldlM (fun k chain => (k.inject cfg chain).map fun r => r.getD k) g

/-- What is known of a workflow with some chains put in, one after another: all that the source fed
is fed by one node, new nodes are modifiers, and the way back from that node passes the chains. -/
structure Stack (g k : Graph) (cfg : CompilerSettings) (done : List Chain) (source last : String)
    (n : Nat) : Prop where
  relinked : ∃ extra, g.Relinked (Link.redirect source last) extra k ∧
    Entries.keys extra = rowIds n done.flatten.length ∧
    ∀ e ∈ extra, e.2.id = e.1 ∧ e.2.classType = cfg.modifierClassType
  threads : g.Threads k cfg.modifierClassType source done.reverse.flatten last
  /-- The numbers of the new nodes can be written. -/
  short : ∀ i < done.flatten.length, n + i < Numeral.unwritable

theorem stack_nil (g : Graph) (cfg : CompilerSettings) (source : String) (n : Nat) :
    g.Stack g cfg [] source source n where
  relinked := ⟨[], spliced_nil g cfg source n, rfl, by simp⟩
  threads := .source
  short := by simp

namespace Stack

theorem keys_eq (hs : g.Stack k cfg done source last n) :
    k.nodes.keys = g.nodes.keys ++ rowIds n done.flatten.length := by
  obtain ⟨extra, hr, hkeys, -⟩ := hs.relinked
  rw [hr.keys_eq, hkeys]

theorem wellKeyed (hs : g.Stack k cfg done source last n) (hk : g.WellKeyed) : k.WellKeyed := by
  obtain ⟨extra, hr, -, hnew⟩ := hs.relinked
  exact hr.wellKeyed hk fun e he => (hnew e he).1

/-- The model source stays, since modifiers are none. -/
theorem modelSource? (hs : g.Stack k cfg done source last n)
    (hclass : cfg.modifierClassType ∉ cfg.modelSourceClassTypes)
    (hp : g.modelSource? cfg = some p) :
    k.modelSource? cfg = some (p.mapLinks (Link.redirect source last)) := by
  obtain ⟨extra, hr, -, hnew⟩ := hs.relinked
  have hsame : ∀ c ∈ cfg.modelSourceClassTypes, (k.ofType c).head? =
      ((g.ofType c).head?).map (Node.mapLinks (Link.redirect source last)) := by
    intro c hc
    rw [ofType_of_entries hr.entries (fun _ => rfl), List.head?_map]
    intro e he hec
    rw [(hnew e he).2] at hec
    exact hclass (hec ▸ hc)
  have hmapped := congrArg (Option.map (Node.mapLinks (Link.redirect source last))) hp
  rw [Graph.modelSource?, List.map_findSome?] at hmapped
  rw [Graph.modelSource?, ← List.head?_filterMap, List.filterMap_congr hsame, List.head?_filterMap]
  exact hmapped

/-- The source still feeds something. -/
theorem fed (hs : g.Stack k cfg done source last n)
    (hfed : ∃ id input, g.linkAt? id input = some ⟨source, 0⟩) :
    ∃ id input, k.linkAt? id input = some ⟨source, 0⟩ := by
  rcases hs.threads.fed with rfl | ⟨id, hl⟩
  · -- no link is redirected yet
    obtain ⟨extra, hr, -⟩ := hs.relinked
    obtain ⟨id, input, hl⟩ := hfed
    obtain ⟨q, hq, hlink⟩ := linkAt?_eq_some_iff.1 hl
    have hsame := Node.mapLinks_of_fixes (n := q) fun _ l _ => Link.redirect_self last l
    exact ⟨id, input, by rw [linkAt?_of_node? (hr.node?_eq hq), hsame, hlink]⟩
  · exact ⟨id, "model", hl⟩

/-- **Step: one more chain.** It goes in first on the way from the source, or its numbers are too
long. -/
theorem inject (hs : g.Stack k cfg done p.id last n) (hk : g.WellKeyed)
    (hfirst : g.nextId cfg.injectedIdFloor = .ok (n : Int)) (hp : g.modelSource? cfg = some p)
    (hfed : ∃ id input, g.linkAt? id input = some ⟨p.id, 0⟩)
    (hclass : cfg.modifierClassType ∉ cfg.modelSourceClassTypes) (chain : Chain) :
    (∃ k' last', ((k.inject cfg chain).map fun r => r.getD k) = .ok k' ∧
      g.Stack k' cfg (done ++ [chain]) p.id last' n) ∨
    (((k.inject cfg chain).map fun r => r.getD k) = .error idTooLong ∧
      Numeral.unwritable < n + (done ++ [chain]).flatten.length) := by
  have hids := (idsBelow_nextId hfirst).2
  have hnext := nextId_of_keys hfirst hs.keys_eq hs.short
  have hlength : (done ++ [chain]).flatten.length = done.flatten.length + chain.length := by simp
  rcases inject_of_source (hs.wellKeyed hk) (hs.modelSource? hclass hp) (hs.fed hfed) hnext
      chain with
    ⟨hw, k', hrun, hsplice⟩ | ⟨hw, hrun⟩
  · replace hsplice : k.Spliced k' cfg chain p.id (n + done.flatten.length) := hsplice
    refine Or.inl ⟨k', if last = p.id then rowEnd chain p.id (n + done.flatten.length) else last,
      hrun, ?_, ?_, ?_⟩
    · obtain ⟨extra, hr, hkeys, hnew⟩ := hs.relinked
      have htrans := hr.trans hsplice
      simp only [Link.redirect_redirect] at htrans
      refine ⟨_, htrans, ?_, ?_⟩
      · rw [Entries.keys_append, keys_row, hlength, ← rowIds_append, ← hkeys]
        simp [Entries.keys, Function.comp_def]
      · intro e he
        rcases List.mem_append.1 he with hold | hrow
        · obtain ⟨old, hmem, rfl⟩ := List.mem_map.1 hold
          exact hnew old hmem
        · exact ⟨id_of_mem_row hrow, classType_of_mem_row hrow⟩
    · rw [List.reverse_append, List.reverse_singleton, List.singleton_append, List.flatten_cons]
      refine hs.threads.splice (has_of_modelSource? hk hp)
        (fun id q hq => Relinked.node?_eq hsplice hq) fun e he => ?_
      refine ⟨not_has_of_mem_rowIds (hids.mono (by omega)) (mem_rowIds_of_mem_row he),
        Dict.get?_eq_some_iff.2 ?_⟩
      rw [hsplice.entries]
      exact List.mem_append_right _ he
    · intro i hi
      rw [hlength] at hi
      by_cases hold : i < done.flatten.length
      · exact hs.short i hold
      · have := hw (i - done.flatten.length) (by omega)
        omega
  · have := lt_of_not_numbersFit hw
    exact Or.inr ⟨hrun, by omega⟩

/-- **Run: all chains, one after another.** -/
theorem injectAll (hs : g.Stack k cfg done p.id last n) (hk : g.WellKeyed)
    (hfirst : g.nextId cfg.injectedIdFloor = .ok (n : Int)) (hp : g.modelSource? cfg = some p)
    (hfed : ∃ id input, g.linkAt? id input = some ⟨p.id, 0⟩)
    (hclass : cfg.modifierClassType ∉ cfg.modelSourceClassTypes) (chains : List Chain) :
    (∃ k' last', k.injectAll cfg chains = .ok k' ∧
      g.Stack k' cfg (done ++ chains) p.id last' n) ∨
    (k.injectAll cfg chains = .error idTooLong ∧
      Numeral.unwritable < n + (done ++ chains).flatten.length) := by
  induction chains generalizing k done last with
  | nil =>
    rw [List.append_nil]
    exact Or.inl ⟨k, last, rfl, hs⟩
  | cons chain rest ih =>
    have hdone : done ++ chain :: rest = done ++ [chain] ++ rest := by simp
    rw [Graph.injectAll, List.foldlM_cons]
    rcases hs.inject hk hfirst hp hfed hclass chain with ⟨k', last', hrun, hs'⟩ | ⟨hrun, hlong⟩
    · rw [hrun, hdone]
      exact ih hs'
    · rw [hrun]
      refine Or.inr ⟨rfl, ?_⟩
      have hmore : (done ++ chain :: rest).flatten.length =
          (done ++ [chain]).flatten.length + rest.flatten.length := by simp [Nat.add_assoc]
      omega

end Stack

/-! ## What is left of the earlier chains -/

/-- A workflow is another with chains stacked behind a node, the latest first. -/
structure Stacked (g k : Graph) (cfg : CompilerSettings) (chains : List Chain)
    (source last : String) (ids : List String) : Prop where
  /-- As many nodes are added as the chains have entries, behind those that were there. -/
  keys : k.nodes.keys = g.nodes.keys ++ ids
  length : ids.length = (chains.map List.length).sum
  /-- Every input that the first output of the source fed is fed by one and the same node. -/
  wired : ∀ id input, g.linkAt? id input = some ⟨source, 0⟩ →
    k.inputAt? id input = some (.connection last 0)
  /-- The way back from there passes the entries of all chains, read from the source the latest
  chain first, and nothing else. -/
  threads : ∀ entries, g.Threads k cfg.modifierClassType source entries last ↔
    entries = chains.reverse.flatten
  /-- Every other input of a node that was there holds what it held. -/
  unwired : ∀ id input, g.has id → g.linkAt? id input ≠ some ⟨source, 0⟩ →
    k.inputAt? id input = g.inputAt? id input
  /-- Of a node that was there only what its inputs hold may have changed. -/
  kept : ∀ id p, g.node? id = some p →
    ∃ q, k.node? id = some q ∧ q = { p with inputs := q.inputs } ∧ q.inputs.keys = p.inputs.keys
  rest : k = { g with nodes := k.nodes }

theorem Stack.stacked (hs : g.Stack k cfg chains source last n) (hsource : g.has source) :
    g.Stacked k cfg chains source last (rowIds n chains.flatten.length) := by
  obtain ⟨extra, hr, -⟩ := hs.relinked
  refine ⟨hs.keys_eq, by rw [length_rowIds, List.length_flatten], ?_, ?_, ?_, ?_, hr.rest⟩
  · intro id input hl
    rw [hr.inputAt?_eq (has_of_linkAt? hl), linkAt?_eq_some_iff_inputAt?.1 hl]
    simp [Link.toInput, InputValue.mapLink, Link.redirect]
  · intro entries
    constructor
    · intro h
      exact h.unique hsource hs.threads
    · rintro rfl
      exact hs.threads
  · intro id input hid hl
    rw [hr.inputAt?_eq hid]
    rw [ne_eq, linkAt?_eq_some_iff_inputAt?] at hl
    cases hv : g.inputAt? id input with
    | none => rfl
    | some v =>
      have hother : v ≠ .connection source 0 := fun he => hl (by rw [hv, he]; rfl)
      rw [Option.map_some, InputValue.mapLink_redirect_of_ne hother]
  · intro id p hp
    exact ⟨_, hr.node?_eq hp, rfl, Dict.keys_map _ _⟩

/-- **Fresh chains stack without loss.** Put in one after another where the model source feeds
something by its first output, they are all passed on the way back from what it fed, the latest
first. Otherwise an id would be too long to be written. -/
theorem stacked_injectAll (hk : g.WellKeyed) (hfloor : 0 ≤ cfg.injectedIdFloor)
    (hfirst : g.nextId cfg.injectedIdFloor = .ok first) (hp : g.modelSource? cfg = some p)
    (hfed : ∃ id input, g.linkAt? id input = some ⟨p.id, 0⟩)
    (hclass : cfg.modifierClassType ∉ cfg.modelSourceClassTypes) (chains : List Chain) :
    (∃ k last ids, g.injectAll cfg chains = .ok k ∧ g.Stacked k cfg chains p.id last ids) ∨
    (g.injectAll cfg chains = .error idTooLong ∧
      Numeral.unwritable < first + (chains.map List.length).sum) := by
  obtain ⟨hge, -⟩ := idsBelow_nextId hfirst
  obtain ⟨n, rfl⟩ := Int.eq_ofNat_of_zero_le (by omega : 0 ≤ first)
  rcases (stack_nil g cfg p.id n).injectAll hk hfirst hp hfed hclass chains with
    ⟨k, last, hrun, hs⟩ | ⟨hrun, hlong⟩
  · exact Or.inl ⟨k, last, _, hrun, hs.stacked (has_of_modelSource? hk hp)⟩
  · rw [List.nil_append, List.length_flatten] at hlong
    exact Or.inr ⟨hrun, by exact_mod_cast hlong⟩

/-- Two chains, with a name of its own for each entry. -/
def twoChains : List Chain :=
  [[⟨"a.safetensors", .one⟩], [⟨"b.safetensors", .one⟩, ⟨"c.safetensors", .one⟩]]

/-- The hypotheses of `stacked_injectAll` are met where a loader feeds a modifier: the second chain
goes in between the loader and the first. -/
theorem modified_stacked :
    (modified 250).WellKeyed ∧ 0 ≤ ({} : CompilerSettings).injectedIdFloor ∧
      (modified 250).nextId ({} : CompilerSettings).injectedIdFloor = .ok 251 ∧
      (modified 250).modelSource? {} = some { id := "loader", classType := "UNETLoader" } ∧
      (modified 250).linkAt? "250" "model" = some ⟨"loader", 0⟩ ∧
      ({} : CompilerSettings).modifierClassType ∉ ({} : CompilerSettings).modelSourceClassTypes ∧
      (∃ k last ids, (modified 250).injectAll {} twoChains = .ok k ∧
        (modified 250).Stacked k {} twoChains "loader" last ids) ∧
      ((modified 250).injectAll {} twoChains).toOption.map edges = some [
        ⟨"251", 0, "250", "model"⟩, ⟨"250", 0, "sampling", "model"⟩, ⟨"253", 0, "251", "model"⟩,
        ⟨"loader", 0, "252", "model"⟩, ⟨"252", 0, "253", "model"⟩] := by
  have hk := wellKeyed_modified 250
  have hfirst : (modified 250).nextId ({} : CompilerSettings).injectedIdFloor = .ok 251 := by rfl
  have hp : (modified 250).modelSource? {} = some { id := "loader", classType := "UNETLoader" } :=
    modelSource?_eq_some_iff.2 (isModelSource_modified 250)
  have hl : (modified 250).linkAt? "250" "model" = some ⟨"loader", 0⟩ := by decide +kernel
  have hclass : ({} : CompilerSettings).modifierClassType ∉
      ({} : CompilerSettings).modelSourceClassTypes := by decide
  refine ⟨hk, by decide, hfirst, hp, hl, hclass, ?_, by decide +kernel⟩
  rcases stacked_injectAll hk (by decide) hfirst hp ⟨_, _, hl⟩ hclass twoChains with
    hstacked | ⟨-, hlong⟩
  · exact hstacked
  · exact absurd hlong (by decide +kernel)

theorem closed_modified (n : Nat) : (modified n).Closed := by
  intro id input l hl
  obtain ⟨p, hp, hlink⟩ := linkAt?_eq_some_iff.1 hl
  have hmem : (id, p) ∈ (modified n).nodes.entries := Dict.get?_eq_some_iff.1 hp
  have hkeys : (modified n).nodes.keys = ["loader", (Json.int n).display, "sampling"] := rfl
  rw [← Node.mem_links_iff_link?] at hlink
  rw [has_iff_mem_keys, hkeys]
  simp only [modified, List.mem_cons, List.not_mem_nil, or_false, Prod.mk.injEq] at hmem
  rcases hmem with ⟨-, rfl⟩ | ⟨-, rfl⟩ | ⟨-, rfl⟩
  · cases hlink
  · obtain ⟨-, rfl⟩ := Prod.mk.inj (List.mem_singleton.1 hlink)
    simp
  · obtain ⟨-, rfl⟩ := Prod.mk.inj (List.mem_singleton.1 hlink)
    simp

/-- **Chains need not stack**: with the largest number that can be written on a node, not even one
of one entry can be put in. -/
theorem not_injectAll_modified :
    let g := modified (Numeral.unwritable - 1)
    g.WellKeyed ∧ g.Closed ∧ 0 ≤ ({} : CompilerSettings).injectedIdFloor ∧
      (∃ first, g.nextId ({} : CompilerSettings).injectedIdFloor = .ok first) ∧
      (∃ p, g.modelSource? {} = some p ∧ ∃ id input, g.linkAt? id input = some ⟨p.id, 0⟩) ∧
      ({} : CompilerSettings).modifierClassType ∉ ({} : CompilerSettings).modelSourceClassTypes ∧
      g.injectAll {} [[lightModifier]] = .error idTooLong := by
  have hlong := Numeral.thousand_le_unwritable
  obtain ⟨n, hn⟩ : ∃ n, n + 1 = Numeral.unwritable := ⟨Numeral.unwritable - 1, by omega⟩
  rw [show Numeral.unwritable - 1 = n by omega]
  have hk := wellKeyed_modified n
  have hfirst := nextId_modified hn (show (100 : Int) ≤ (n + 1 : Nat) by omega)
  have hp := modelSource?_eq_some_iff.2 (isModelSource_modified n)
  have hmodifier : (modified n).node? (Json.int n).display =
      some (modifierNode "LoraLoaderModelOnly" (Json.int n).display lightModifier "loader" 0) :=
    Dict.get?_eq_some_iff.2 (by simp [modified])
  have hfed : ∃ id input, (modified n).linkAt? id input = some ⟨"loader", 0⟩ :=
    ⟨(Json.int n).display, "model", by rw [linkAt?_of_node? hmodifier, link?_modifierNode]; rfl⟩
  have hclass : ({} : CompilerSettings).modifierClassType ∉
      ({} : CompilerSettings).modelSourceClassTypes := by decide
  refine ⟨hk, closed_modified n, by decide, ⟨_, hfirst⟩, ⟨_, hp, hfed⟩, hclass, ?_⟩
  rcases (stack_nil (modified n) {} "loader" (n + 1)).injectAll hk hfirst hp hfed hclass
      [[lightModifier]] with ⟨k, last, -, hs⟩ | ⟨herror, -⟩
  · have hshort := hs.short 0 (by simp)
    omega
  · exact herror

end Graph

end NodeFlow
