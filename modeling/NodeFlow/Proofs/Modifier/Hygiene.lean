import NodeFlow.Proofs.Document.RoundTrip
import NodeFlow.Proofs.Modifier.Row
import NodeFlow.Proofs.Modifier.Site
/-!
# What the ids of a chain run into

The ids of a chain are above those of all nodes, so they are fresh as ids of
nodes. They may be in use otherwise: a connection to a node that is not there
names an id, and in a raw document an entry that describes no node has a key.
A connection that names an id of the chain is captured, and no longer
reported; an entry with such a key is no longer written. `PutIn` says that
nothing else changes about either: `putIn_of_read`.
-/

namespace NodeFlow.Graph

variable {g h longer : Graph} {cfg : CompilerSettings} {chain : Chain} {n : Nat}
variable {id input source : String} {l : Link} {targets : List (String × String)}

/-! ## Places -/

/-- A place in a workflow: its node is there, and its inputs are fed by nodes that are. -/
structure SiteIn (g : Graph) (site : Site) : Prop where
  source : g.has site.1
  targets : ∀ t ∈ site.2, ∃ l, g.linkAt? t.1 t.2 = some l ∧ g.has l.source

theorem siteIn_of_injectionSite? {site : Site} (hk : g.WellKeyed)
    (h : g.injectionSite? cfg chain = some site) : chain ≠ [] ∧ g.SiteIn site := by
  rw [injectionSite?] at h
  split at h
  · cases h
  · rename_i hempty
    obtain ⟨p, hp, h⟩ := Option.bind_eq_some_iff.1 h
    split at h
    · cases h
    · obtain rfl := Option.some.inj h
      have hhas := has_of_modelSource? hk hp
      refine ⟨fun hnil => hempty (by simp [hnil]), hhas, ?_⟩
      intro t ht
      exact ⟨_, linkAt?_of_mem_consumers hk ht, hhas⟩

theorem siteIn_of_extendingSite? {site : Site} {path : NoisePath} {c : Classifier}
    (hk : g.WellKeyed) (h : g.extendingSite? cfg chain path c = some site) :
    chain ≠ [] ∧ g.SiteIn site := by
  rw [extendingSite?] at h
  split at h
  · cases h
  · rename_i hempty
    obtain ⟨⟨p, m⟩, hp, rfl⟩ := Option.map_eq_some_iff.1 h
    obtain ⟨hhas, l, hl, hfed⟩ := extensionSite?_eq_some hk hp
    refine ⟨fun hnil => hempty (by simp [hnil]), hhas, ?_⟩
    intro t ht
    obtain rfl := List.mem_singleton.1 ht
    exact ⟨l, hl, by rwa [hfed]⟩

/-! ## The row -/

/-- A splice that has a result found the number that its row starts at. -/
theorem exists_nextId_of_splice (hfloor : 0 ≤ cfg.injectedIdFloor)
    (hrun : g.splice cfg chain source targets = .ok h) :
    ∃ n : Nat, g.nextId cfg.injectedIdFloor = .ok (n : Int) := by
  rw [splice] at hrun
  obtain ⟨first, hfirst, -⟩ := exists_of_bind_eq_ok hrun
  obtain ⟨n, rfl⟩ := Int.eq_ofNat_of_zero_le (Int.le_trans hfloor (idsBelow_nextId hfirst).1)
  exact ⟨n, hfirst⟩

/-- What was spliced is a row of new nodes and the wiring of its end. -/
theorem exists_longer_of_splice (hfirst : g.nextId cfg.injectedIdFloor = .ok (n : Int))
    (hrun : g.splice cfg chain source targets = .ok h) :
    ∃ longer, longer.nodes.entries =
        g.nodes.entries ++ row cfg.modifierClassType chain source n ∧
      longer = { g with nodes := longer.nodes } ∧
      h = targets.foldl (fun k t => k.setInput t.1 t.2
        (⟨rowEnd chain source n, 0⟩ : Link).toInput) longer := by
  by_cases hw : NumbersFit chain n
  · obtain ⟨longer, hentries, hrest, hlonger⟩ := splice_of_numbersFit hfirst hw source targets
    exact ⟨longer, hentries, hrest, Except.ok.inj (hrun.symm.trans hlonger)⟩
  · rw [splice_of_not_numbersFit hfirst hw] at hrun
    cases hrun

/-- **Wiring inputs to one link** changes these inputs and no others. -/
theorem linkAt?_wire (targets : List (String × String)) (g : Graph) (id input : String) :
    (targets.foldl (fun k t => k.setInput t.1 t.2 l.toInput) g).linkAt? id input =
      if (id, input) ∈ targets ∧ g.has id then some l else g.linkAt? id input := by
  induction targets generalizing g with
  | nil => simp
  | cons t targets ih =>
    obtain ⟨key, name⟩ := t
    rw [List.foldl_cons, ih, linkAt?_setInput]
    simp only [List.mem_cons, Prod.mk.injEq, has_setInput_iff]
    by_cases hlater : (id, input) ∈ targets ∧ g.has id
    · rw [if_pos hlater, if_pos ⟨Or.inr hlater.1, hlater.2⟩]
    · rw [if_neg hlater]
      by_cases hnow : id = key ∧ name = input ∧ g.has key
      · obtain ⟨rfl, rfl, hhas⟩ := hnow
        rw [if_pos ⟨rfl, rfl, hhas⟩, if_pos ⟨Or.inl ⟨rfl, rfl⟩, hhas⟩]
      · rw [if_neg hnow, if_neg]
        rintro ⟨⟨rfl, rfl⟩ | hmem, hhas⟩
        · exact hnow ⟨rfl, rfl, hhas⟩
        · exact hlater ⟨hmem, hhas⟩

theorem keys_wire (targets : List (String × String)) (v : InputValue) (g : Graph) :
    (targets.foldl (fun k t => k.setInput t.1 t.2 v) g).nodes.keys = g.nodes.keys := by
  rw [foldl_setInput_eq]
  exact Dict.keys_map _ _

theorem node?_longer {extra : List (String × Node)} {p : Node}
    (hentries : longer.nodes.entries = g.nodes.entries ++ extra) :
    longer.node? id = some p ↔ g.node? id = some p ∨ (id, p) ∈ extra := by
  rw [node?, node?, Dict.get?_eq_some_iff, Dict.get?_eq_some_iff, hentries, List.mem_append]

/-- A link of the longer workflow is one of the workflow, or one of the row. -/
theorem linkAt?_longer {extra : List (String × Node)}
    (hentries : longer.nodes.entries = g.nodes.entries ++ extra) :
    longer.linkAt? id input = some l ↔
      g.linkAt? id input = some l ∨ ∃ p, (id, p) ∈ extra ∧ p.link? input = some l := by
  simp only [linkAt?_eq_some_iff, node?_longer hentries]
  constructor
  · rintro ⟨p, hp | hp, hl⟩
    · exact Or.inl ⟨p, hp, hl⟩
    · exact Or.inr ⟨p, hp, hl⟩
  · rintro (⟨p, hp, hl⟩ | ⟨p, hp, hl⟩)
    · exact ⟨p, Or.inl hp, hl⟩
    · exact ⟨p, Or.inr hp, hl⟩

theorem keys_splice (hfirst : g.nextId cfg.injectedIdFloor = .ok (n : Int))
    (hrun : g.splice cfg chain source targets = .ok h) :
    h.nodes.keys = g.nodes.keys ++ rowIds n chain.length := by
  obtain ⟨longer, hentries, -, rfl⟩ := exists_longer_of_splice hfirst hrun
  rw [keys_wire, Dict.keys, hentries, Entries.keys_append, keys_row]
  rfl

theorem has_splice_iff (hfirst : g.nextId cfg.injectedIdFloor = .ok (n : Int))
    (hrun : g.splice cfg chain source targets = .ok h) :
    h.has id ↔ g.has id ∨ id ∈ rowIds n chain.length := by
  rw [has_iff_mem_keys, keys_splice hfirst hrun, List.mem_append, has_iff_mem_keys]

/-- Nothing but the nodes is another. -/
theorem rest_splice (hfirst : g.nextId cfg.injectedIdFloor = .ok (n : Int))
    (hrun : g.splice cfg chain source targets = .ok h) : h = { g with nodes := h.nodes } := by
  obtain ⟨longer, -, hrest, rfl⟩ := exists_longer_of_splice hfirst hrun
  rw [foldl_setInput_eq, hrest]

theorem WellKeyed.splice (hk : g.WellKeyed)
    (hfirst : g.nextId cfg.injectedIdFloor = .ok (n : Int))
    (hrun : g.splice cfg chain source targets = .ok h) : h.WellKeyed := by
  obtain ⟨longer, hentries, -, rfl⟩ := exists_longer_of_splice hfirst hrun
  have hlonger : longer.WellKeyed := by
    intro e he
    rw [hentries, List.mem_append] at he
    rcases he with he | he
    · exact hk e he
    · exact id_of_mem_row he
  refine List.foldlRecOn (motive := fun k : Graph => k.WellKeyed) _ _ hlonger ?_
  intro k hk t _
  exact hk.setInput _ _ _

/-! ## Dangling connections -/

/-- An input is connected to a node that is not there. -/
def DanglesAt (g : Graph) (id input : String) (l : Link) : Prop :=
  g.linkAt? id input = some l ∧ ¬ g.has l.source

/-- **A connection dangles after a splice exactly where it did before and names no id of the row.**
Whatever is rewired was fed by a node, so none of the connections in question is. -/
theorem danglesAt_splice_iff {site : Site} (hsite : g.SiteIn site)
    (hfirst : g.nextId cfg.injectedIdFloor = .ok (n : Int))
    (hrun : g.splice cfg chain site.1 site.2 = .ok h) :
    h.DanglesAt id input l ↔ g.DanglesAt id input l ∧ l.source ∉ rowIds n chain.length := by
  have hhas : h.has l.source ↔ g.has l.source ∨ l.source ∈ rowIds n chain.length :=
    has_splice_iff hfirst hrun
  obtain ⟨longer, hentries, -, rfl⟩ := exists_longer_of_splice hfirst hrun
  rw [DanglesAt, DanglesAt, linkAt?_wire, hhas]
  constructor
  · rintro ⟨hl, hno⟩
    split at hl
    · -- the end of the row is there
      obtain rfl := Option.some.inj hl
      refine absurd ?_ hno
      rcases rowEnd_cases chain site.1 n with hend | hend
      · exact Or.inl (by rw [hend]; exact hsite.source)
      · exact Or.inr hend
    · rcases (linkAt?_longer hentries).1 hl with hl | ⟨p, hp, hl⟩
      · exact ⟨⟨hl, fun hg => hno (Or.inl hg)⟩, fun hmem => hno (Or.inr hmem)⟩
      · rcases source_of_mem_row hp (Node.mem_links_iff_link?.2 hl) with hfirst | hmem
        · exact absurd (Or.inl (hfirst ▸ hsite.source)) hno
        · exact absurd (Or.inr hmem) hno
  · rintro ⟨⟨hl, hno⟩, hnot⟩
    have hunwired : ¬ ((id, input) ∈ site.2 ∧ longer.has id) := by
      rintro ⟨ht, -⟩
      obtain ⟨l', hl', hfed⟩ := hsite.targets _ ht
      obtain rfl : l = l' := Option.some.inj (hl.symm.trans hl')
      exact hno hfed
    rw [if_neg hunwired]
    exact ⟨(linkAt?_longer hentries).2 (Or.inl hl), fun hor => hor.elim hno hnot⟩

theorem linkError?_eq_noSource_iff {schema : Schema} {p : Node} {name : String} :
    g.linkError? schema p name l = some (.noSource id input source) ↔
      p.id = id ∧ name = input ∧ l.source = source ∧ ¬ g.has l.source := by
  rw [linkError?, has_iff]
  cases hm : g.node? l.source with
  | none => simp
  | some m => by_cases houtput : 0 < (knownOutputs m schema).length <;> simp [houtput]

/-- **Dangling connections are what is reported as such.** -/
theorem noSource_mem_structureErrors_iff (hk : g.WellKeyed) (schema : Schema) :
    .noSource id input source ∈ g.structureErrors schema ↔
      ∃ output, g.DanglesAt id input ⟨source, output⟩ := by
  have hlinks : .noSource id input source ∈ g.linkErrors schema ↔
      ∃ output, g.DanglesAt id input ⟨source, output⟩ := by
    simp only [linkErrors, List.mem_flatMap, List.mem_filterMap, Prod.exists]
    constructor
    · rintro ⟨p, hp, name, l, hl, herror⟩
      obtain ⟨rfl, rfl, rfl, hno⟩ := linkError?_eq_noSource_iff.1 herror
      refine ⟨l.output, ?_, hno⟩
      rw [linkAt?_of_node? (hk.node?_id hp)]
      exact Node.mem_links_iff_link?.1 hl
    · rintro ⟨output, hl, hno⟩
      obtain ⟨p, hp, hlink⟩ := linkAt?_eq_some_iff.1 hl
      refine ⟨p, mem_nodeList_iff.2 ⟨id, hp⟩, input, _, Node.mem_links_iff_link?.2 hlink, ?_⟩
      exact linkError?_eq_noSource_iff.2 ⟨hk.id_eq hp, rfl, rfl, hno⟩
  rw [structureErrors]
  split
  · rename_i hempty
    -- nothing is connected where there are no nodes
    constructor
    · intro h
      simp at h
    · rintro ⟨output, hl, -⟩
      exact absurd ⟨id, has_of_linkAt? hl⟩ (nodes_isEmpty_iff.1 hempty)
  · rw [List.mem_append, hlinks]
    constructor
    · rintro (h | h)
      · exact h
      · simp [Option.mem_toList] at h
    · exact Or.inl

/-! ## Other entries -/

theorem Writable.splice (hg : g.Writable) (hfirst : g.nextId cfg.injectedIdFloor = .ok (n : Int))
    (hrun : g.splice cfg chain source targets = .ok h) : h.Writable := by
  have hkeys := keys_splice hfirst hrun
  rw [rest_splice hfirst hrun]
  refine ⟨hg.metadata, ?_, hg.plain⟩
  intro hraw key hkey
  have hcases : key ∈ g.nodes.keys ∨ key ∈ rowIds n chain.length := by
    rwa [← List.mem_append, ← hkeys]
  rcases hcases with hold | hnew
  · exact hg.nodes hraw key hold
  · obtain ⟨i, -, rfl⟩ := List.mem_map.1 hnew
    exact display_int_not_reserved i

/-- **An entry of the rest is written** unless a node has its key. -/
theorem get?_toFields_metadata (hg : g.Writable) {key : String} {v : Json}
    (hv : g.metadata.get? key = some v) :
    Entries.get? g.toFields key = some v ↔ g.wrapped = true ∨ ¬ g.has key := by
  have hkey : key ∉ reservedKeys := hg.metadata key (Dict.mem_keys_iff.2 ⟨v, hv⟩)
  obtain ⟨hnodes, hgroups, hnotes⟩ : key ≠ "nodes" ∧ key ≠ "groups" ∧ key ≠ "notes" := by
    simpa [reservedKeys] using hkey
  rw [toFields_eq hg, Entries.get?_append, Entries.get?_append, Entries.get?_append,
    get?_groupEntries_of_ne hgroups, get?_noteEntries_of_ne hnotes, Option.or_none, Option.or_none]
  cases hwrapped : g.wrapped with
  | true =>
    have hhead : Entries.get? g.headEntries key = none := by
      rw [Entries.get?_eq_none_iff, mem_keys_headEntries, hwrapped]
      exact hnodes
    have hrest : Entries.get? g.writtenMetadata.entries key = some v := by
      rw [writtenMetadata, hwrapped]
      exact hv
    simp [hhead, hrest]
  | false =>
    by_cases hhas : g.has key
    · -- the node stands where the entry would, and reads back as a node
      obtain ⟨p, hp⟩ := has_iff.1 hhas
      have hhead : Entries.get? g.headEntries key = some p.toJson := by
        have hentry : g.nodeEntries.get? key = (g.node? key).map Node.toJson := Dict.get?_map _ _ _
        rw [hp] at hentry
        rw [headEntries, hwrapped]
        exact hentry
      have hne : p.toJson ≠ v := by
        rintro rfl
        cases (hg.plain hwrapped key _ hv).symm.trans (Node.nodeFields?_toJson p)
      simp [hhead, hne, hhas]
    · have hhead : Entries.get? g.headEntries key = none := by
        rw [Entries.get?_eq_none_iff, mem_keys_headEntries, hwrapped]
        exact hhas
      have hrest : Entries.get? g.writtenMetadata.entries key = some v := by
        have hfilter := Dict.get?_filter g.metadata (fun k _ => !g.has k) key
        rw [hv] at hfilter
        rw [writtenMetadata, hwrapped]
        refine hfilter.trans ?_
        simp [hhas]
      simp [hhead, hrest, hhas]

/-! ## Whole chains -/

/-- What a chain with the given ids does to a workflow. -/
structure PutIn (g h : Graph) (ids : List String) : Prop where
  /-- The new nodes follow the old ones, under ids that none of these has. -/
  keys : h.nodes.keys = g.nodes.keys ++ ids
  fresh : ∀ id ∈ ids, ¬ g.has id
  /-- A connection to a node that is not there is still reported exactly where it names none of the
  ids, and no other is reported. -/
  reported : ∀ schema id input source, .noSource id input source ∈ h.structureErrors schema ↔
    .noSource id input source ∈ g.structureErrors schema ∧ source ∉ ids
  /-- An entry that describes no node is still written exactly where nodes stand apart or none of
  the ids is its key. -/
  written : ∀ key v, g.metadata.get? key = some v →
    (Entries.get? h.toFields key = some v ↔ g.wrapped = true ∨ key ∉ ids)

theorem wellKeyed_of_ofEntries {document : Fields} {schema : Option Schema}
    (hg : ofEntries document schema = .ok g) : g.WellKeyed := by
  obtain ⟨-, -, hnodes⟩ := ofEntries_eq_ok hg
  refine wellKeyed_iff.2 fun id p hp => ?_
  obtain ⟨fields, rfl⟩ := hnodes id p hp
  exact Node.id_asRead id fields schema

theorem exists_of_spliceAt {site? : Option Site}
    (hrun : g.spliceAt cfg chain site? = .ok (some h)) :
    ∃ site, site? = some site ∧ g.splice cfg chain site.1 site.2 = .ok h := by
  cases site? with
  | none => cases hrun
  | some site =>
    obtain ⟨k, hk, hsome⟩ := exists_of_map_eq_ok hrun
    obtain rfl := Option.some.inj hsome
    exact ⟨site, rfl, hk⟩

/-- **A splice at a place of a workflow that was read.** -/
theorem putIn_of_spliceAt {document : Fields} {schema : Option Schema} {site : Site}
    (hg : ofEntries document schema = .ok g) (hfloor : 0 ≤ cfg.injectedIdFloor)
    (hsite : g.SiteIn site) (hrun : g.splice cfg chain site.1 site.2 = .ok h) :
    ∃ n : Nat, g.nextId cfg.injectedIdFloor = .ok (n : Int) ∧
      g.PutIn h (rowIds n chain.length) := by
  obtain ⟨hw, hmetadata, -⟩ := ofEntries_eq_ok hg
  have hk := wellKeyed_of_ofEntries hg
  obtain ⟨n, hfirst⟩ := exists_nextId_of_splice hfloor hrun
  have hids := (idsBelow_nextId hfirst).2
  have hk' := hk.splice hfirst hrun
  have hw' := hw.splice hfirst hrun
  have hrest := rest_splice hfirst hrun
  refine ⟨n, hfirst, keys_splice hfirst hrun, fun id hid => not_has_of_mem_rowIds hids hid, ?_, ?_⟩
  · intro checked id input source
    rw [noSource_mem_structureErrors_iff hk', noSource_mem_structureErrors_iff hk]
    simp only [danglesAt_splice_iff hsite hfirst hrun]
    exact exists_and_right
  · intro key v hv
    have hv' : h.metadata.get? key = some v := by rwa [hrest]
    have hwrapped : h.wrapped = g.wrapped := by rw [hrest]
    rw [get?_toFields_metadata hw' hv', hwrapped, has_splice_iff hfirst hrun]
    -- where nodes stand among the other entries, none of these was read under the key of one
    have hfree : g.wrapped = false → ¬ g.has key := by
      intro hraw
      have hkept : g.writtenMetadata.get? key = some v := by rwa [hmetadata]
      rw [writtenMetadata, hraw, if_neg (by simp), Dict.get?_filter, Option.filter_eq_some_iff]
        at hkept
      simpa using hkept.2
    cases hraw : g.wrapped with
    | true => simp
    | false => simp [hfree hraw]

/-- **What the ids of a chain run into.** Put into a workflow that was read, whatever the document,
a chain takes ids that no node has. A connection to a node that is not there goes unreported
exactly where it names one of them, and an entry of a raw document goes missing exactly where one
of them is its key. -/
theorem putIn_of_read {document : Json} {schema : Option Schema}
    (hg : Graph.read document schema = .ok g) (hfloor : 0 ≤ cfg.injectedIdFloor)
    (hrun : g.inject cfg chain = .ok (some h) ∨
      ∃ path c, g.extend cfg chain path c = .ok (some h)) :
    chain ≠ [] ∧ ∃ n : Nat, g.nextId cfg.injectedIdFloor = .ok (n : Int) ∧
      g.PutIn h (rowIds n chain.length) := by
  obtain ⟨fields, hfields⟩ := exists_ofEntries_of_read hg
  have hk : g.WellKeyed := wellKeyed_of_ofEntries hfields
  -- either way there is a place, and the chain is spliced in there
  obtain ⟨site, hne, hsite, hsplice⟩ : ∃ site : Site, chain ≠ [] ∧ g.SiteIn site ∧
      g.splice cfg chain site.1 site.2 = .ok h := by
    rcases hrun with hrun | ⟨path, c, hrun⟩
    · rw [inject_eq_spliceAt] at hrun
      obtain ⟨site, hplace, hsplice⟩ := exists_of_spliceAt hrun
      obtain ⟨hne, hsite⟩ := siteIn_of_injectionSite? hk hplace
      exact ⟨site, hne, hsite, hsplice⟩
    · rw [extend_eq_spliceAt] at hrun
      obtain ⟨site, hplace, hsplice⟩ := exists_of_spliceAt hrun
      obtain ⟨hne, hsite⟩ := siteIn_of_extendingSite? hk hplace
      exact ⟨site, hne, hsite, hsplice⟩
  exact ⟨hne, putIn_of_spliceAt hfields hfloor hsite hsplice⟩

/-- A loader, a sampler whose latents come from a node that is not there, and an entry that
describes no node. -/
def lackingLatents (missing note : String) : Json :=
  .obj [("1", .obj [("class_type", .str "UNETLoader")]),
    ("2", .obj [("class_type", .str "KSampler"),
      ("inputs", .obj [("model", .arr [.str "1", .int 0]),
        ("latent_image", .arr [.str missing, .int 0])])]),
    (note, .str "keep me")]

/-- The workflow of the document, whose sampler is fed with a model by a node, and further nodes. -/
def lackingGraph (missing note model : String) (further : List Node) : Graph where
  nodes := .ofList ([
    ("1", { id := "1", classType := "UNETLoader" }),
    ("2", { id := "2", classType := "KSampler"
            inputs := .ofList [("model", .connection model 0),
              ("latent_image", .connection missing 0)] })] ++ further.map fun n => (n.id, n))
  wrapped := false
  metadata := .ofList [(note, .str "keep me")]

/-- A modifier behind the loader. -/
def lightModifier : Selection := ⟨"a.safetensors", .one⟩

/-- The hypotheses of `putIn_of_read` are met, and where the ids run into nothing, the connection is
still reported and the entry still written. -/
theorem putIn_lackingLatents :
    ∃ g h, Graph.read (lackingLatents "50" "7") none = .ok g ∧
      0 ≤ ({} : CompilerSettings).injectedIdFloor ∧ g.inject {} [lightModifier] = .ok (some h) ∧
      g.PutIn h ["100"] ∧ .noSource "2" "latent_image" "50" ∈ h.structureErrors .empty ∧
      Entries.get? h.toFields "7" = some (.str "keep me") := by
  have hg : Graph.read (lackingLatents "50" "7") none = .ok (lackingGraph "50" "7" "1" []) :=
    eq_ok_of_toOption (by decide +kernel)
  have hh : (lackingGraph "50" "7" "1" []).inject {} [lightModifier] = .ok (some
      (lackingGraph "50" "7" "100"
        [modifierNode "LoraLoaderModelOnly" "100" lightModifier "1" 0])) :=
    eq_ok_of_toOption (by decide +kernel)
  have hnext : (lackingGraph "50" "7" "1" []).nextId ({} : CompilerSettings).injectedIdFloor =
      .ok 100 := by rfl
  have hreported : .noSource "2" "latent_image" "50" ∈
      (lackingGraph "50" "7" "1" []).structureErrors .empty := by decide +kernel
  have hentry : (lackingGraph "50" "7" "1" []).metadata.get? "7" = some (.str "keep me") := by
    decide +kernel
  obtain ⟨-, n, hfirst, hput⟩ := putIn_of_read hg (by decide) (Or.inl hh)
  obtain rfl : n = 100 := by
    have hn := Except.ok.inj (hfirst.symm.trans hnext)
    omega
  have hids : rowIds 100 [lightModifier].length = ["100"] := by decide +kernel
  rw [hids] at hput
  refine ⟨_, _, hg, by decide, hh, hput, ?_, ?_⟩
  · exact (hput.reported .empty "2" "latent_image" "50").2 ⟨hreported, by decide⟩
  · exact (hput.written "7" (.str "keep me") hentry).2 (Or.inr (by decide))

/-- **The ids of a chain can be in use already**: a node takes the id that a connection and an
entry had, so the connection is no longer reported and the entry no longer written. -/
theorem not_reported_lackingLatents :
    ∃ g h, Graph.read (lackingLatents "100" "100") none = .ok g ∧
      g.inject {} [lightModifier] = .ok (some h) ∧ h.has "100" ∧
      g.linkAt? "2" "latent_image" = some ⟨"100", 0⟩ ∧
      h.linkAt? "2" "latent_image" = some ⟨"100", 0⟩ ∧
      g.structureErrors .empty = [.noSource "2" "latent_image" "100"] ∧
      h.structureErrors .empty = [] ∧
      Entries.get? g.toFields "100" = some (.str "keep me") ∧
      Entries.get? h.toFields "100" ≠ some (.str "keep me") := by
  have hg : Graph.read (lackingLatents "100" "100") none =
      .ok (lackingGraph "100" "100" "1" []) := eq_ok_of_toOption (by decide +kernel)
  have hh : (lackingGraph "100" "100" "1" []).inject {} [lightModifier] = .ok (some
      (lackingGraph "100" "100" "100"
        [modifierNode "LoraLoaderModelOnly" "100" lightModifier "1" 0])) :=
    eq_ok_of_toOption (by decide +kernel)
  refine ⟨_, _, hg, hh, ?_⟩
  decide +kernel

end NodeFlow.Graph
