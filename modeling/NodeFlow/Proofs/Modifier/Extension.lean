import NodeFlow.Proofs.Modifier.Hygiene
import NodeFlow.Proofs.Modifier.Placement
/-!
# Extending a chain again

With the usual classifier the place of an extension depends on the samplers
and the model-sampling nodes alone, and an extension writes one model input
and appends modifiers. So what is found for any path afterwards is what was
found before, only that the node whose input was written is now fed by the
end of the row: `Extension.place?_eq`. Two extensions on one path are
therefore the extension by both chains: `extended_append`.
-/

namespace NodeFlow

/-- Modifiers, model-sampling nodes and samplers are told apart by their class types. -/
structure CompilerSettings.ClassesApart (cfg : CompilerSettings) : Prop where
  modifier_sampling : cfg.modifierClassType ≠ cfg.samplingClassType
  modifier_sampler : cfg.modifierClassType ≠ cfg.advancedSamplerClassType
  sampling_sampler : cfg.samplingClassType ≠ cfg.advancedSamplerClassType

/-! ## One input written -/

/-- A node with its model input connected to the first output of another, if it is the one that is
meant. -/
def Node.fedBy (sampling last : String) (p : Node) : Node :=
  if p.id = sampling then p.setInput "model" (.connection last 0) else p

namespace Node

variable {sampling last : String} {p : Node}

theorem fedBy_of_ne (h : p.id ≠ sampling) (last : String) : p.fedBy sampling last = p := if_neg h

@[simp] theorem id_fedBy (sampling last : String) (p : Node) :
    (p.fedBy sampling last).id = p.id := by
  rw [fedBy]
  split <;> rfl

@[simp] theorem classType_fedBy (sampling last : String) (p : Node) :
    (p.fedBy sampling last).classType = p.classType := by
  rw [fedBy]
  split <;> rfl

/-- Of two writes the later counts. -/
theorem fedBy_fedBy (sampling last last' : String) (p : Node) :
    (p.fedBy sampling last).fedBy sampling last' = p.fedBy sampling last' := by
  by_cases he : p.id = sampling
  · simp [fedBy, he, setInput, Dict.insert_insert]
  · rw [fedBy_of_ne he]

/-- Writes to different nodes do not meet. -/
theorem fedBy_comm {sampling' : String} (hne : sampling ≠ sampling') (last last' : String)
    (p : Node) :
    (p.fedBy sampling last).fedBy sampling' last' =
      (p.fedBy sampling' last').fedBy sampling last := by
  by_cases he : p.id = sampling
  · have he' : p.id ≠ sampling' := fun h => hne (he.symm.trans h)
    rw [fedBy_of_ne (by rwa [id_fedBy]), fedBy_of_ne he']
  · rw [fedBy_of_ne he, fedBy_of_ne (p := p.fedBy sampling' last') (by rwa [id_fedBy])]

theorem link?_fedBy_self (h : p.id = sampling) (last : String) :
    (p.fedBy sampling last).link? "model" = some ⟨last, 0⟩ := by
  rw [fedBy, if_pos h]
  exact (Graph.link?_setInput p "model" "model" ⟨last, 0⟩).trans (if_pos rfl)

/-- A node of a row is not the one that is meant, where that has none of its ids. -/
theorem map_fedBy_row {chain : Chain} {n : Nat} (hs : sampling ∉ rowIds n chain.length)
    (classType source last : String) :
    (row classType chain source n).map (fun e => (e.1, e.2.fedBy sampling last)) =
      row classType chain source n := by
  refine (List.map_congr_left fun e he => ?_).trans (List.map_id _)
  have hother : e.2.id ≠ sampling := by
    rw [id_of_mem_row he]
    rintro rfl
    exact hs (mem_rowIds_of_mem_row he)
  rw [fedBy_of_ne hother]
  rfl

end Node

namespace Graph

variable {g h k : Graph} {cfg : CompilerSettings} {chain chain' : Chain} {path path' : NoisePath}
variable {s m id : String} {n : Nat} {first : Int} {p q : Node}

/-! ## Places -/

/-- A model-sampling node and the modifier that feeds its model input, by their ids. -/
def Feeds (g : Graph) (cfg : CompilerSettings) (m s : String) : Prop :=
  ∃ p q, g.node? s = some p ∧ p.classType = cfg.samplingClassType ∧
    g.feedingModifier? cfg p = some q ∧ q.id = m

/-- The place of an extension with the usual classifier: the ids of the model-sampling node and of
the modifier that feeds it. -/
def place? (cfg : CompilerSettings) (g : Graph) (path : NoisePath) : Option (String × String) :=
  (g.extensionSite? cfg path (.usual cfg)).map fun site => (site.1.id, site.2.id)

theorem feeds_of_place? (hk : g.WellKeyed) (hp : g.place? cfg path = some (s, m)) :
    g.Feeds cfg m s := by
  obtain ⟨⟨p, q⟩, hsite, hids⟩ := Option.map_eq_some_iff.1 hp
  obtain ⟨rfl, rfl⟩ := Prod.mk.inj hids
  obtain ⟨⟨before, after, hnodes, -⟩, hsamples⟩ := extensionSite?_eq_some_iff.1 hsite
  have hp : p ∈ g.nodeList := by simp [hnodes]
  exact ⟨p, q, hk.node?_id hp, hsamples.classType,
    feedingModifier?_eq_some_iff.2 ⟨hsamples.fed, hsamples.modifier⟩, rfl⟩

theorem Feeds.has (hf : g.Feeds cfg m s) : g.has s := by
  obtain ⟨p, q, hp, -⟩ := hf
  exact has_iff.2 ⟨p, hp⟩

theorem Feeds.has_modifier (hk : g.WellKeyed) (hf : g.Feeds cfg m s) : g.has m := by
  obtain ⟨p, q, -, -, hq, rfl⟩ := hf
  obtain ⟨⟨l, -, hsource⟩, -⟩ := feedingModifier?_eq_some_iff.1 hq
  rw [hk.id_eq hsource]
  exact has_iff.2 ⟨q, hsource⟩

/-! ## Extensions -/

/-- What extending a chain on a path leads to, with the usual classifier; the workflow itself where
there is nothing to do. -/
def extended (cfg : CompilerSettings) (g : Graph) (chain : Chain) (path : NoisePath) :
    Except Fault Graph :=
  (g.extend cfg chain path (.usual cfg)).map fun r => r.getD g

/-- A workflow is another with a chain between a modifier and a model-sampling node, numbered from a
number on: the model input of the latter is written, and a row follows the nodes that were there. -/
structure Extension (g h : Graph) (cfg : CompilerSettings) (chain : Chain) (s m : String)
    (n : Nat) : Prop where
  entries : h.nodes.entries =
    g.nodes.entries.map (fun e => (e.1, e.2.fedBy s (rowEnd chain m n))) ++
      row cfg.modifierClassType chain m n
  rest : h = { g with nodes := h.nodes }

theorem extended_nil (g : Graph) (cfg : CompilerSettings) (path : NoisePath) :
    g.extended cfg [] path = .ok g := rfl

theorem extended_of_place?_none (hp : g.place? cfg path = none) (chain : Chain) :
    g.extended cfg chain path = .ok g := by
  rw [extended, extend, Option.map_eq_none_iff.1 hp]
  split <;> rfl

/-- **What comes of an extension that has a place**: the chain is put in there, or its numbers are
too long. -/
theorem extended_of_place? (hk : g.WellKeyed)
    (hfirst : g.nextId cfg.injectedIdFloor = .ok (n : Int))
    (hp : g.place? cfg path = some (s, m)) (hne : chain ≠ []) :
    (n + chain.length ≤ Numeral.unwritable ∧
      ∃ h, g.extended cfg chain path = .ok h ∧ g.Extension h cfg chain s m n) ∨
    (Numeral.unwritable < n + chain.length ∧ g.extended cfg chain path = .error idTooLong) := by
  have hs := (feeds_of_place? hk hp).has
  have hsplice : g.extended cfg chain path = g.splice cfg chain m [(s, "model")] := by
    obtain ⟨site, hsite, hids⟩ := Option.map_eq_some_iff.1 hp
    obtain ⟨rfl, rfl⟩ := Prod.mk.inj hids
    rw [extended, extend, hsite, if_neg (by simpa using hne)]
    exact map_getD_map_some _ g
  rw [hsplice]
  by_cases hw : NumbersFit chain n
  · obtain ⟨longer, hentries, hrest, hrun⟩ := splice_of_numbersFit hfirst hw m [(s, "model")]
    have hfresh : s ∉ rowIds n chain.length := fun hmem =>
      not_has_of_mem_rowIds (idsBelow_nextId hfirst).2 hmem hs
    refine Or.inl ⟨(numbersFit_iff hne).1 hw, _, hrun, ?_, ?_⟩
    · rw [← Node.map_fedBy_row hfresh cfg.modifierClassType m (rowEnd chain m n), ← List.map_append,
        ← hentries]
      refine List.map_congr_left fun e he => ?_
      have hid : e.2.id = e.1 := by
        rw [hentries, List.mem_append] at he
        exact he.elim (hk e) id_of_mem_row
      rw [Node.fedBy, hid]
    · show setInput longer _ _ _ = _
      rw [setInput, modify, hrest]
      rfl
  · exact Or.inr ⟨lt_of_not_numbersFit hw, splice_of_not_numbersFit hfirst hw _ _⟩

namespace Extension

/-- There is one extension by a chain at a place. -/
theorem unique {h' : Graph} (he : g.Extension h cfg chain s m n)
    (he' : g.Extension h' cfg chain s m n) : h = h' := by
  have hnodes : h.nodes = h'.nodes := Dict.ext (he.entries.trans he'.entries.symm)
  rw [he.rest, he'.rest, hnodes]

theorem keys_eq (he : g.Extension h cfg chain s m n) :
    h.nodes.keys = g.nodes.keys ++ rowIds n chain.length := by
  rw [Dict.keys, he.entries, Entries.keys_append, keys_row]
  simp [Dict.keys, Entries.keys, Function.comp_def]

theorem wellKeyed (he : g.Extension h cfg chain s m n) (hk : g.WellKeyed) : h.WellKeyed := by
  intro e hmem
  rw [he.entries, List.mem_append] at hmem
  rcases hmem with hold | hnew
  · obtain ⟨old, hmem, rfl⟩ := List.mem_map.1 hold
    exact (Node.id_fedBy _ _ _).trans (hk old hmem)
  · exact id_of_mem_row hnew

theorem node?_of_node? (he : g.Extension h cfg chain s m n) (hp : g.node? id = some p) :
    h.node? id = some (p.fedBy s (rowEnd chain m n)) := by
  refine Dict.get?_eq_some_iff.2 ?_
  rw [he.entries]
  exact List.mem_append_left _ (List.mem_map.2 ⟨_, Dict.get?_eq_some_iff.1 hp, rfl⟩)

/-- The end of a row is a modifier under its own id. -/
theorem exists_rowEnd (he : g.Extension h cfg chain s m n) (hne : chain ≠ []) :
    ∃ q, h.node? (rowEnd chain m n) = some q ∧ q.id = rowEnd chain m n ∧
      q.classType = cfg.modifierClassType := by
  have hmem : rowEnd chain m n ∈ Entries.keys (row cfg.modifierClassType chain m n) := by
    rw [keys_row]
    exact rowEnd_mem_rowIds hne m n
  obtain ⟨e, hrow, hkey⟩ := List.mem_map.1 hmem
  refine ⟨e.2, Dict.get?_eq_some_iff.2 ?_, (id_of_mem_row hrow).trans hkey,
    classType_of_mem_row hrow⟩
  rw [he.entries, ← hkey]
  exact List.mem_append_right _ hrow

/-- Of a class type that modifiers do not have, the nodes are those that were there. -/
theorem ofType_eq (he : g.Extension h cfg chain s m n) {classType : String}
    (hclass : cfg.modifierClassType ≠ classType) :
    h.ofType classType = (g.ofType classType).map (Node.fedBy s (rowEnd chain m n)) := by
  refine ofType_of_entries he.entries (Node.classType_fedBy _ _) fun e hmem => ?_
  rw [classType_of_mem_row hmem]
  exact hclass

/-- **An extension changes the path of no node**: it touches no sampler. -/
theorem classify_eq (he : g.Extension h cfg chain s m n) (hk : g.WellKeyed)
    (happ : cfg.ClassesApart) (hf : g.Feeds cfg m s) :
    (Classifier.usual cfg).classify h = (Classifier.usual cfg).classify g := by
  have hsamplers :
      h.ofType cfg.advancedSamplerClassType = g.ofType cfg.advancedSamplerClassType := by
    rw [he.ofType_eq happ.modifier_sampler]
    refine (List.map_congr_left fun q hq => ?_).trans (List.map_id _)
    obtain ⟨hmem, hclass⟩ := List.mem_filter.1 hq
    obtain ⟨p, -, hp, hsampling, -⟩ := hf
    refine Node.fedBy_of_ne (fun hid => happ.sampling_sampler ?_) _
    -- the node that is written is no sampler
    obtain rfl : p = q := by
      have hfound := hk.node?_id hmem
      rwa [hid, hp, Option.some.injEq] at hfound
    rw [← hsampling]
    exact of_decide_eq_true hclass
  funext id
  simp only [Classifier.usual, Classifier.startStep, hsamplers]

/-- What feeds a model-sampling node is what did before, but for the one that is written. -/
theorem feedingModifier?_eq (he : g.Extension h cfg chain s m n) (hk : g.WellKeyed)
    (hclosed : g.Closed) (hne : chain ≠ []) (hf : g.Feeds cfg m s) (hp : g.node? id = some p) :
    (h.feedingModifier? cfg (p.fedBy s (rowEnd chain m n))).map Node.id =
      (g.feedingModifier? cfg p).map fun q => if p.id = s then rowEnd chain m n else q.id := by
  by_cases hid : p.id = s
  · -- the node that is written was fed by a modifier, and now is by the end of the row
    obtain ⟨p', q, hp', -, hq, -⟩ := hf
    obtain rfl : p = p' := by
      rw [← hid, hk.id_eq hp, hp] at hp'
      exact Option.some.inj hp'
    obtain ⟨r, hr, hrid, hrclass⟩ := he.exists_rowEnd hne
    rw [hq, feedingModifier?_eq_some_iff.2 ⟨⟨_, Node.link?_fedBy_self hid _, hr⟩, hrclass⟩]
    simp [hid, hrid]
  · rw [Node.fedBy_of_ne hid]
    have hfed : ((p.link? "model").bind fun l => h.node? l.source) =
        ((p.link? "model").bind fun l => g.node? l.source).map
          (Node.fedBy s (rowEnd chain m n)) := by
      cases hl : p.link? "model" with
      | none => rfl
      | some l =>
        obtain ⟨q, hq⟩ := has_iff.1 (hclosed id "model" l (by rw [linkAt?_of_node? hp, hl]))
        rw [Option.bind_some, Option.bind_some, hq, he.node?_of_node? hq]
        rfl
    rw [feedingModifier?, feedingModifier?, hfed, Option.filter_map]
    simp [hid, Function.comp_def]

/-- **An extension finds again what was found before it**, on any path; only the node that it wrote
is now fed by the end of its row. -/
theorem place?_eq (he : g.Extension h cfg chain s m n) (hk : g.WellKeyed) (hclosed : g.Closed)
    (happ : cfg.ClassesApart) (hne : chain ≠ []) (hf : g.Feeds cfg m s) (path : NoisePath) :
    h.place? cfg path =
      (g.place? cfg path).map fun t => (t.1, if t.1 = s then rowEnd chain m n else t.2) := by
  rw [place?, place?, extensionSite?, extensionSite?, he.ofType_eq happ.modifier_sampling,
    he.classify_eq hk happ hf, List.findSome?_map, List.map_findSome?, List.map_findSome?,
    List.map_findSome?, ← List.head?_filterMap, ← List.head?_filterMap]
  -- node by node, since the model-sampling nodes are the same in the same order
  refine congrArg List.head? (List.filterMap_congr fun p hp => ?_)
  obtain ⟨key, hkey⟩ := mem_nodeList_iff.1 (List.mem_filter.1 hp).1
  have hfed := he.feedingModifier?_eq hk hclosed hne hf hkey
  simp only [Function.comp_apply, Node.id_fedBy]
  by_cases hpath : ((Classifier.usual cfg).classify g p.id).contains path
  · have hpair := congrArg (Option.map (Prod.mk p.id)) hfed
    simpa only [if_pos hpath, Option.map_eq_bind, Option.bind_assoc, Option.bind_some,
      Function.comp_def, Node.id_fedBy] using hpair
  · simp only [if_neg hpath, Option.bind_fun_none, Option.map_none]

/-- **Behind the end of its row an extension goes on.** -/
theorem append (he : g.Extension h cfg chain s m n)
    (he' : h.Extension k cfg chain' s (rowEnd chain m n) (n + chain.length))
    (hs : s ∉ rowIds n chain.length) : g.Extension k cfg (chain ++ chain') s m n where
  entries := by
    rw [he'.entries, he.entries, List.map_append, Node.map_fedBy_row hs, List.map_map, row_append,
      rowEnd_append, List.append_assoc]
    simp only [Function.comp_def, Node.fedBy_fedBy]
  rest := by rw [he'.rest, he.rest]

end Extension

/-! ## Two extensions -/

/-- **One extension after another**, on one path or two: where the second finds its place depends on
the first only if both write the same node. -/
theorem extended_extended {s' m' : String} (hk : g.WellKeyed) (hclosed : g.Closed)
    (happ : cfg.ClassesApart) (hfirst : g.nextId cfg.injectedIdFloor = .ok (n : Int))
    (hp : g.place? cfg path = some (s, m)) (hp' : g.place? cfg path' = some (s', m'))
    (hne : chain ≠ []) (hne' : chain' ≠ []) :
    (n + (chain.length + chain'.length) ≤ Numeral.unwritable ∧
      ∃ h k, (g.extended cfg chain path >>= fun h => h.extended cfg chain' path') = .ok k ∧
        g.Extension h cfg chain s m n ∧
        h.Extension k cfg chain' s' (if s' = s then rowEnd chain m n else m') (n + chain.length)) ∨
    (Numeral.unwritable < n + (chain.length + chain'.length) ∧
      (g.extended cfg chain path >>= fun h => h.extended cfg chain' path') = .error idTooLong) := by
  rcases extended_of_place? hk hfirst hp hne with ⟨hw, h, hrun, he⟩ | ⟨hlong, hrun⟩
  · have hplace : h.place? cfg path' = some (s', if s' = s then rowEnd chain m n else m') := by
      rw [he.place?_eq hk hclosed happ hne (feeds_of_place? hk hp), hp', Option.map_some]
    have hnext := nextId_of_keys hfirst he.keys_eq fun i hi => by omega
    rw [hrun]
    rcases extended_of_place? (he.wellKeyed hk) hnext hplace hne' with
      ⟨hw', k, hrun', he'⟩ | ⟨hlong', hrun'⟩
    · exact Or.inl ⟨by omega, h, k, hrun', he, he'⟩
    · exact Or.inr ⟨by omega, hrun'⟩
  · rw [hrun]
    exact Or.inr ⟨by omega, rfl⟩

/-- An extension puts new nodes behind the old ones, and fails only where an id would be too
long. -/
theorem extended_cases (hk : g.WellKeyed) (hfirst : g.nextId cfg.injectedIdFloor = .ok (n : Int))
    (chain : Chain) (path : NoisePath) :
    (∃ h ids, g.extended cfg chain path = .ok h ∧ h.nodes.keys = g.nodes.keys ++ ids) ∨
      (g.extended cfg chain path = .error idTooLong ∧ Numeral.unwritable < n + chain.length) := by
  have hnone : g.nodes.keys = g.nodes.keys ++ [] := (List.append_nil _).symm
  cases hp : g.place? cfg path with
  | none => exact Or.inl ⟨g, [], extended_of_place?_none hp chain, hnone⟩
  | some place =>
    by_cases hne : chain = []
    · subst hne
      exact Or.inl ⟨g, [], rfl, hnone⟩
    · rcases extended_of_place? hk hfirst hp hne with ⟨-, h, hrun, he⟩ | ⟨hlong, hrun⟩
      · exact Or.inl ⟨h, _, hrun, he.keys_eq⟩
      · exact Or.inr ⟨hrun, hlong⟩

/-- **Two extensions on one path are one**, failures included: in both ways of doing it the numbers
fit or not by the length of both chains. -/
theorem extended_bind_extended (hk : g.WellKeyed) (hclosed : g.Closed) (happ : cfg.ClassesApart)
    (hfirst : g.nextId cfg.injectedIdFloor = .ok (n : Int)) (chain chain' : Chain)
    (path : NoisePath) :
    (g.extended cfg chain path >>= fun h => h.extended cfg chain' path) =
      g.extended cfg (chain ++ chain') path := by
  cases hp : g.place? cfg path with
  | none =>
    simp only [extended_of_place?_none hp]
    exact extended_of_place?_none hp chain'
  | some place =>
    obtain ⟨s, m⟩ := place
    by_cases hne : chain = []
    · subst hne
      rfl
    by_cases hne' : chain' = []
    · subst hne'
      rw [List.append_nil]
      exact bind_pure (g.extended cfg chain path)
    have hboth : chain ++ chain' ≠ [] := by simp [hne]
    have hlength : (chain ++ chain').length = chain.length + chain'.length := List.length_append
    rcases extended_extended hk hclosed happ hfirst hp hp hne hne' with
      ⟨hw, h, k, hrun, he, he'⟩ | ⟨hlong, hrun⟩
    · rcases extended_of_place? hk hfirst hp hboth with ⟨-, k', hrun', he''⟩ | ⟨hlong, -⟩
      · have hs : s ∉ rowIds n chain.length := fun hmem =>
          not_has_of_mem_rowIds (idsBelow_nextId hfirst).2 hmem (feeds_of_place? hk hp).has
        rw [if_pos rfl] at he'
        have hsame := he.append he' hs
        rw [hrun, hrun', hsame.unique he'']
      · omega
    · rcases extended_of_place? hk hfirst hp hboth with ⟨hw, -⟩ | ⟨-, hrun'⟩
      · omega
      · rw [hrun, hrun']

/-- **Chains act by extension**: extending by one chain and then by another on the same path is
extending by both, to the same ids, and extending by no chain changes nothing. The only failure is
that of an id that would be too long. -/
theorem extended_append (hk : g.WellKeyed) (hclosed : g.Closed) (happ : cfg.ClassesApart)
    (hfloor : 0 ≤ cfg.injectedIdFloor) (hfirst : g.nextId cfg.injectedIdFloor = .ok first)
    (chain chain' : Chain) (path : NoisePath) :
    (g.extended cfg chain path >>= fun h => h.extended cfg chain' path) =
        g.extended cfg (chain ++ chain') path ∧
      g.extended cfg [] path = .ok g ∧
      ((∃ k, g.extended cfg (chain ++ chain') path = .ok k) ∨
        (g.extended cfg (chain ++ chain') path = .error idTooLong ∧
          Numeral.unwritable < first + (chain ++ chain').length)) := by
  obtain ⟨hge, -⟩ := idsBelow_nextId hfirst
  obtain ⟨n, rfl⟩ := Int.eq_ofNat_of_zero_le (by omega : 0 ≤ first)
  refine ⟨extended_bind_extended hk hclosed happ hfirst chain chain' path,
    extended_nil g cfg path, ?_⟩
  rcases extended_cases hk hfirst (chain ++ chain') path with ⟨k, -, hrun, -⟩ | ⟨hrun, hlong⟩
  · exact Or.inl ⟨k, hrun⟩
  · exact Or.inr ⟨hrun, by omega⟩

/-- A model-sampling node fed by the node that has a number for its id. -/
def samplingNode (id : String) (n : Nat) : Node where
  id := id
  classType := "ModelSamplingSD3"
  inputs := .ofList [("model", .connection (Json.int n).display 0)]

/-- A sampler of a model from a step on. -/
def steppedSampler (id sampling : String) (start : Int) : Node where
  id := id
  classType := "KSamplerAdvanced"
  inputs := .ofList [("model", .connection sampling 0), ("start_at_step", .literal (.int start))]

/-- A modifier behind a loader, with a number for its id, feeds two model-sampling nodes, each with
a sampler of its own: one starts at step zero, the other later. -/
def sharedModifier (n : Nat) : Graph where
  nodes := ⟨[("loader", { id := "loader", classType := "UNETLoader" }),
      ((Json.int n).display,
        modifierNode "LoraLoaderModelOnly" (Json.int n).display lightModifier "loader" 0),
      ("first", samplingNode "first" n), ("second", samplingNode "second" n),
      ("early", steppedSampler "early" "first" 0), ("late", steppedSampler "late" "second" 10)], by
    have hdigits : ∀ word ∈ ["loader", "first", "second", "early", "late"],
        Text.isDigits word = false := by decide +kernel
    have hloader := display_natCast_ne (hdigits "loader" (by simp)) n
    have hfirst := display_natCast_ne (hdigits "first" (by simp)) n
    have hsecond := display_natCast_ne (hdigits "second" (by simp)) n
    have hearly := display_natCast_ne (hdigits "early" (by simp)) n
    have hlate := display_natCast_ne (hdigits "late" (by simp)) n
    simp [Entries.keys, hloader, hfirst.symm, hsecond.symm, hearly.symm, hlate.symm]⟩

theorem keys_sharedModifier (n : Nat) : (sharedModifier n).nodes.keys =
    ["loader", (Json.int n).display, "first", "second", "early", "late"] := rfl

theorem wellKeyed_sharedModifier (n : Nat) : (sharedModifier n).WellKeyed := by
  intro e he
  simp only [sharedModifier, List.mem_cons, List.not_mem_nil, or_false] at he
  rcases he with rfl | rfl | rfl | rfl | rfl | rfl <;> rfl

theorem closed_sharedModifier (n : Nat) : (sharedModifier n).Closed := by
  intro id input l hl
  obtain ⟨p, hp, hlink⟩ := linkAt?_eq_some_iff.1 hl
  have hmem : (id, p) ∈ (sharedModifier n).nodes.entries := Dict.get?_eq_some_iff.1 hp
  rw [← Node.mem_links_iff_link?] at hlink
  rw [has_iff_mem_keys, keys_sharedModifier]
  simp only [sharedModifier, List.mem_cons, List.not_mem_nil, or_false, Prod.mk.injEq] at hmem
  rcases hmem with ⟨-, rfl⟩ | ⟨-, rfl⟩ | ⟨-, rfl⟩ | ⟨-, rfl⟩ | ⟨-, rfl⟩ | ⟨-, rfl⟩
  · cases hlink
  -- every other node has one link
  all_goals
    obtain ⟨-, rfl⟩ := Prod.mk.inj (List.mem_singleton.1 hlink)
    simp

theorem nextId_sharedModifier {floor : Int} (hn : n < Numeral.unwritable)
    (hfloor : floor ≤ (n + 1 : Nat)) :
    (sharedModifier n).nextId floor = .ok ((n + 1 : Nat) : Int) := by
  refine nextId_of_greatest hn ?_ ?_ hfloor
  · rw [has_iff_mem_keys, keys_sharedModifier]
    simp
  · intro id hid hdigits
    rw [has_iff_mem_keys, keys_sharedModifier] at hid
    simp only [List.mem_cons, List.not_mem_nil, or_false] at hid
    rcases hid with rfl | rfl | rfl | rfl | rfl | rfl
    · exact absurd hdigits (by decide +kernel)
    · exact ⟨n, by rw [integerOfText_display_natCast, if_pos hn], by omega⟩
    · exact absurd hdigits (by decide +kernel)
    · exact absurd hdigits (by decide +kernel)
    · exact absurd hdigits (by decide +kernel)
    · exact absurd hdigits (by decide +kernel)

theorem classesApart_usual : ({} : CompilerSettings).ClassesApart :=
  ⟨by decide, by decide, by decide⟩

/-- The hypotheses of `extended_append` are met where a modifier feeds two model-sampling nodes, and
three selections in two steps go behind it in one row. -/
theorem sharedModifier_extended :
    (sharedModifier 250).WellKeyed ∧ (sharedModifier 250).Closed ∧
      ({} : CompilerSettings).ClassesApart ∧ 0 ≤ ({} : CompilerSettings).injectedIdFloor ∧
      (sharedModifier 250).nextId ({} : CompilerSettings).injectedIdFloor = .ok 251 ∧
      (((sharedModifier 250).extended {} [lightModifier] .low >>= fun h =>
          h.extended {} [lightModifier, lightModifier] .low) =
        (sharedModifier 250).extended {} [lightModifier, lightModifier, lightModifier] .low) ∧
      ((sharedModifier 250).extended {} [lightModifier, lightModifier, lightModifier]
        .low).toOption.map edges = some [⟨"loader", 0, "250", "model"⟩,
          ⟨"250", 0, "first", "model"⟩, ⟨"253", 0, "second", "model"⟩,
          ⟨"first", 0, "early", "model"⟩, ⟨"second", 0, "late", "model"⟩,
          ⟨"250", 0, "251", "model"⟩, ⟨"251", 0, "252", "model"⟩,
          ⟨"252", 0, "253", "model"⟩] := by
  have hk := wellKeyed_sharedModifier 250
  have hclosed := closed_sharedModifier 250
  have hfirst : (sharedModifier 250).nextId ({} : CompilerSettings).injectedIdFloor = .ok 251 := by
    rfl
  obtain ⟨hsame, -⟩ := extended_append hk hclosed classesApart_usual (by decide) hfirst
    [lightModifier] [lightModifier, lightModifier] .low
  exact ⟨hk, hclosed, classesApart_usual, by decide, hfirst, hsame, by decide +kernel⟩

end Graph

end NodeFlow
