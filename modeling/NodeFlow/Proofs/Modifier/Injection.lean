import NodeFlow.Proofs.Modifier.Splicing
/-!
# Putting chains in keeps a workflow ready

A chain goes between a node and inputs that this node already feeds, so the
targets of the splice rank above its source. `Ready` is what the passes hand
on to each other: soundness, a node that will not be bypassed, and a bound of
the ids, which a chain raises by its length.
-/

namespace NodeFlow.Graph

variable {g : Graph} {schema : Schema} {cfg : CompilerSettings} {c : Classifier} {chain : Chain}
variable {path : NoisePath} {bound : Int} {source : String} {n m : Node}

/-! ## Where chains go -/

theorem modelSource?_mem (h : g.modelSource? cfg = some n) : n ∈ g.nodeList := by
  obtain ⟨classType, -, hhead⟩ := List.exists_of_findSome?_eq_some h
  exact (List.mem_filter.1 (List.mem_of_head? hhead)).1

theorem has_of_modelSource? (hk : g.WellKeyed) (h : g.modelSource? cfg = some n) : g.has n.id :=
  has_iff.2 ⟨n, hk.node?_id (modelSource?_mem h)⟩

/-- The consumers of a node are inputs that its first output feeds. -/
theorem linkAt?_of_mem_consumers (hk : g.WellKeyed) {t : String × String}
    (h : t ∈ g.consumers source) : g.linkAt? t.1 t.2 = some ⟨source, 0⟩ := by
  obtain ⟨n, hn, ht⟩ := List.mem_flatMap.1 h
  obtain ⟨⟨input, l⟩, hl, rfl⟩ := List.mem_map.1 ht
  obtain ⟨hlink, hfed⟩ := List.mem_filter.1 hl
  obtain ⟨rfl, houtput⟩ : l.source = source ∧ l.output = 0 := by simpa using hfed
  show g.linkAt? n.id input = _
  rw [linkAt?_of_node? (hk.node?_id hn), Node.mem_links_iff_link?.1 hlink, ← houtput]

/-- A modifier is extended where it feeds the model input of a model-sampling node. -/
theorem extensionSite?_eq_some (hk : g.WellKeyed) (h : g.extensionSite? cfg path c = some (n, m)) :
    g.has m.id ∧ ∃ l, g.linkAt? n.id "model" = some l ∧ l.source = m.id := by
  obtain ⟨p, hp, hsite⟩ := List.exists_of_findSome?_eq_some h
  obtain ⟨q, hfeeds, hchoice⟩ := Option.bind_eq_some_iff.1 hsite
  split at hchoice
  · -- the modifier was looked up under the source of the link, which is therefore its id
    obtain ⟨rfl, rfl⟩ : p = n ∧ q = m := by simpa using hchoice
    obtain ⟨hq, -⟩ := Option.filter_eq_some_iff.1 hfeeds
    obtain ⟨l, hl, hsource⟩ := Option.bind_eq_some_iff.1 hq
    refine ⟨?_, l, ?_, (hk.id_eq hsource).symm⟩
    · rw [hk.id_eq hsource]
      exact has_iff.2 ⟨q, hsource⟩
    · rw [linkAt?_of_node? (hk.node?_id (List.mem_filter.1 hp).1), hl]
  · cases hchoice

theorem map_getD_map_some (r : Except Fault Graph) (g : Graph) :
    ((r.map some).map fun o => o.getD g) = r := by
  cases r <;> rfl

/-- **A chain is spliced in behind the model source, or nothing happens.** -/
theorem inject_cases (g : Graph) (cfg : CompilerSettings) (chain : Chain) :
    ((g.inject cfg chain).map fun r => r.getD g) = .ok g ∨
      ∃ n, g.modelSource? cfg = some n ∧
        ((g.inject cfg chain).map fun r => r.getD g) =
          g.splice cfg chain n.id (g.consumers n.id) := by
  rw [Graph.inject]
  by_cases hempty : chain.isEmpty
  · rw [if_pos hempty]
    exact Or.inl rfl
  rw [if_neg hempty]
  cases hn : g.modelSource? cfg with
  | none => exact Or.inl rfl
  | some n =>
    dsimp only
    by_cases hunused : (g.consumers n.id).isEmpty
    · rw [if_pos hunused]
      exact Or.inl rfl
    · rw [if_neg hunused, map_getD_map_some]
      exact Or.inr ⟨n, rfl, rfl⟩

/-- **A chain is spliced in on a noise path, or nothing happens.** -/
theorem extend_cases (g : Graph) (cfg : CompilerSettings) (chain : Chain) (path : NoisePath)
    (c : Classifier) :
    ((g.extend cfg chain path c).map fun r => r.getD g) = .ok g ∨
      ∃ n m, g.extensionSite? cfg path c = some (n, m) ∧
        ((g.extend cfg chain path c).map fun r => r.getD g) =
          g.splice cfg chain m.id [(n.id, "model")] := by
  rw [Graph.extend]
  by_cases hempty : chain.isEmpty
  · rw [if_pos hempty]
    exact Or.inl rfl
  rw [if_neg hempty]
  cases hsite : g.extensionSite? cfg path c with
  | none => exact Or.inl rfl
  | some site =>
    obtain ⟨n, m⟩ := site
    dsimp only
    rw [map_getD_map_some]
    exact Or.inr ⟨n, m, rfl, rfl⟩

/-! ## Ready workflows -/

/-- A workflow that chains can go into: it is sound, has a node that is not bypassed, and its ids
are below a bound. -/
structure Ready (g : Graph) (schema : Schema) (bound : Int) : Prop where
  sound : ∃ rank, g.SoundBy schema rank
  live : ∃ id n, g.node? id = some n ∧ n.mode ≠ bypassedMode
  ids : g.IdsBelow bound

/-- A pass has a ready workflow as its result, or fails because an id would be too long to be
written; the bound is then too long as well. -/
def YieldsReady (schema : Schema) (bound : Int) (r : Except Fault Graph) : Prop :=
  (∃ h : Graph, r = .ok h ∧ h.Ready schema bound) ∨
    (r = .error idTooLong ∧ Numeral.unwritable < bound)

theorem Ready.mono {bound' : Int} (hg : g.Ready schema bound) (hle : bound ≤ bound') :
    g.Ready schema bound' :=
  ⟨hg.sound, hg.live, hg.ids.mono hle⟩

/-- What comes before a pass may raise the bound. -/
theorem YieldsReady.mono {bound' : Int} {r : Except Fault Graph} (h : YieldsReady schema bound r)
    (hle : bound ≤ bound') : YieldsReady schema bound' r := by
  rcases h with ⟨k, hr, hk⟩ | ⟨hr, hlong⟩
  · exact Or.inl ⟨k, hr, hk.mono hle⟩
  · exact Or.inr ⟨hr, by omega⟩

/-- Passes in a row yield what the last one does. -/
theorem YieldsReady.bind {bound' : Int} {r : Except Fault Graph} {f : Graph → Except Fault Graph}
    (h : YieldsReady schema bound r) (hle : bound ≤ bound')
    (hf : ∀ k : Graph, k.Ready schema bound → YieldsReady schema bound' (f k)) :
    YieldsReady schema bound' (r >>= f) := by
  rcases h with ⟨k, rfl, hk⟩ | ⟨rfl, hlong⟩
  · exact hf k hk
  · exact Or.inr ⟨rfl, by omega⟩

theorem YieldsReady.of_ready (hg : g.Ready schema bound) : YieldsReady schema bound (.ok g) :=
  Or.inl ⟨g, rfl, hg⟩

/-- A splice in front of inputs that the source feeds. -/
theorem Ready.splice {targets : List (String × String)} (hg : g.Ready schema bound)
    (hfloor : 0 ≤ cfg.injectedIdFloor) (hbound : cfg.injectedIdFloor ≤ bound)
    (hsource : g.has source)
    (htargets : ∀ t ∈ targets, ∃ l, g.linkAt? t.1 t.2 = some l ∧ l.source = source) :
    YieldsReady schema (bound + chain.length) (g.splice cfg chain source targets) := by
  obtain ⟨rank, hsound⟩ := hg.sound
  have habove : ∀ t ∈ targets, g.has t.1 ∧ rank source < rank t.1 := by
    intro t ht
    obtain ⟨l, hl, rfl⟩ := htargets t ht
    exact ⟨has_of_linkAt? hl, hsound.lt hl⟩
  rcases hsound.splice chain hfloor hbound hg.ids hsource habove with
    ⟨spliced, rank', hrun, hspliced, hkeeps, hids⟩ | ⟨hrun, hlong⟩
  · obtain ⟨id, n, hn, hmode⟩ := hg.live
    -- the node that is not bypassed is kept in its mode
    obtain ⟨p, hp, -, -, hsame⟩ := hkeeps id n hn
    exact Or.inl ⟨spliced, hrun, ⟨rank', hspliced⟩, ⟨id, p, hp, hsame ▸ hmode⟩, hids⟩
  · exact Or.inr ⟨hrun, hlong⟩

/-- **Putting a chain behind the model source.** -/
theorem Ready.inject (hg : g.Ready schema bound) (hfloor : 0 ≤ cfg.injectedIdFloor)
    (hbound : cfg.injectedIdFloor ≤ bound) (chain : Chain) :
    YieldsReady schema (bound + chain.length)
      ((g.inject cfg chain).map fun r => r.getD g) := by
  obtain ⟨rank, hsound⟩ := hg.sound
  rcases inject_cases g cfg chain with hsame | ⟨n, hn, hsplice⟩
  · rw [hsame]
    exact YieldsReady.of_ready (hg.mono (by omega))
  · rw [hsplice]
    exact hg.splice hfloor hbound (has_of_modelSource? hsound.wellKeyed hn) fun t ht =>
      ⟨_, linkAt?_of_mem_consumers hsound.wellKeyed ht, rfl⟩

/-- **Putting a chain behind the modifier of a noise path.** -/
theorem Ready.extend (hg : g.Ready schema bound) (hfloor : 0 ≤ cfg.injectedIdFloor)
    (hbound : cfg.injectedIdFloor ≤ bound) (chain : Chain) (path : NoisePath) (c : Classifier) :
    YieldsReady schema (bound + chain.length)
      ((g.extend cfg chain path c).map fun r => r.getD g) := by
  obtain ⟨rank, hsound⟩ := hg.sound
  rcases extend_cases g cfg chain path c with hsame | ⟨n, m, hsite, hsplice⟩
  · rw [hsame]
    exact YieldsReady.of_ready (hg.mono (by omega))
  · rw [hsplice]
    obtain ⟨hhas, l, hl, hsource⟩ := extensionSite?_eq_some hsound.wellKeyed hsite
    refine hg.splice hfloor hbound hhas fun t ht => ?_
    obtain rfl := List.mem_singleton.1 ht
    exact ⟨l, hl, hsource⟩

end NodeFlow.Graph
