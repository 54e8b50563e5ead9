import NodeFlow.Proofs.Compiler.Literals
import NodeFlow.Proofs.Document.Limit
import NodeFlow.Proofs.Validation.Soundness
/-!
# The verdict and the document

The verdict of a compilation is on the graph it leads to, and what is
submitted is the document written from it. Read back, the document has the
links of the graph, and besides the strays: literals with the shape of a
connection. A stray only ever adds errors, so the verdict is that on the
document exactly where every stray is admitted and closes no circle that is
not reported anyway; and a request that supplies no such value has no strays.
-/

namespace NodeFlow

/-- Two ways to pick results, one of which only picks more, pick the same if no more are picked. -/
theorem filterMap_eq_of_length_le {α β : Type} {f f' : α → Option β} {xs : List α}
    (h : ∀ x ∈ xs, ∀ y, f x = some y → f' x = some y) :
    (xs.filterMap f).length ≤ (xs.filterMap f').length ∧
      ((xs.filterMap f').length ≤ (xs.filterMap f).length → ∀ x ∈ xs, f' x = f x) := by
  induction xs with
  | nil => simp
  | cons x xs ih =>
    obtain ⟨hle, heq⟩ := ih fun x hx => h x (List.mem_cons_of_mem _ hx)
    cases hf : f x with
    | some y =>
      have hf' := h x (by simp) y hf
      rw [List.filterMap_cons_some hf, List.filterMap_cons_some hf']
      refine ⟨by simpa using hle, fun hlen => ?_⟩
      intro x' hx'
      rcases List.mem_cons.1 hx' with rfl | hx'
      · rw [hf, hf']
      · exact heq (by simpa using hlen) x' hx'
    | none =>
      rw [List.filterMap_cons_none hf]
      cases hf' : f' x with
      | none =>
        rw [List.filterMap_cons_none hf']
        refine ⟨hle, fun hlen => ?_⟩
        intro x' hx'
        rcases List.mem_cons.1 hx' with rfl | hx'
        · rw [hf, hf']
        · exact heq hlen x' hx'
      | some y =>
        rw [List.filterMap_cons_some hf', List.length_cons]
        exact ⟨by omega, fun hlen => by omega⟩

namespace InputValue

/-- The link of an input. -/
def link? : InputValue → Option Link
  | .connection source output => some ⟨source, output⟩
  | _ => none

theorem link?_eq_some_iff {v : InputValue} {l : Link} : v.link? = some l ↔ v = l.toInput := by
  obtain ⟨source, output⟩ := l
  cases v <;> simp [link?, Link.toInput]

/-- An input that holds a link is read back as this link. -/
theorem reread_bind_link? {v : InputValue} {l : Link} (h : v.link? = some l) :
    v.reread.bind link? = some l := by
  obtain rfl := link?_eq_some_iff.1 h
  rfl

/-- An input that is read back as a link holds it, or is a literal of its shape. -/
theorem reread_bind_link?_cases {v : InputValue} {l : Link} (hshort : v.isRereadable)
    (h : v.reread.bind link? = some l) :
    v.link? = some l ∨ ∃ w, v = .literal w ∧ ofJson w = .ok l.toInput := by
  cases v with
  | connection source output => exact Or.inl h
  | slot type => cases h
  | literal w =>
    refine Or.inr ⟨w, rfl, ?_⟩
    rw [ofJson_eq]
    exact withinLimit_eq_ok_iff.2 ⟨hshort, link?_eq_some_iff.1 h⟩

/-- The output of a link that is read back stands in what is written. -/
theorem isWritable_output {v : InputValue} {l : Link} (hv : v.toJson.isWritable)
    (h : v.reread.bind link? = some l) : (Json.int l.output).isWritable := by
  cases v with
  | slot type => cases h
  | connection source output =>
    obtain rfl := Option.some.inj h
    exact Json.isWritable_arr_iff.1 hv _ (by simp)
  | literal w =>
    have hread : (asRead w).link? = some l := h
    unfold asRead at hread
    split at hread
    · obtain rfl := Option.some.inj hread
      exact Json.isWritable_arr_iff.1 hv _ (by simp)
    · obtain rfl := Option.some.inj hread
      exact Json.isWritable_arr_iff.1 hv _ (by simp)
    · cases hread

end InputValue

namespace Node

theorem links_eq (n : Node) :
    n.links = n.inputs.entries.filterMap fun e => e.2.link?.map fun l => (e.1, l) := by
  rw [links]
  congr 1
  funext e
  cases e.2 <;> rfl

theorem links_reread (n : Node) (key : String) :
    (n.reread key none).links =
      n.inputs.entries.filterMap fun e =>
        (e.2.reread.bind InputValue.link?).map fun l => (e.1, l) := by
  rw [links_eq]
  show ((n.inputs.filterMap fun _ v => v.reread).entries.filterMap _) = _
  rw [Dict.filterMap, List.filterMap_filterMap]
  congr 1
  funext e
  cases e.2.reread <;> rfl

end Node

namespace Graph

variable {k : Graph} {schema : Schema} {allowed : Json → Prop} {id input : String} {l : Link}
variable {n : Node}

/-! ## What is read back -/

theorem node?_reread (k : Graph) (id : String) :
    (k.reread none).node? id = (k.node? id).map fun n => n.reread id none :=
  Dict.get?_map _ _ _

theorem has_reread_iff : (k.reread none).has id ↔ k.has id := by
  simp [has_iff, node?_reread]

theorem knownOutputs_reread (houtputs : n.outputs = []) (key : String) :
    knownOutputs (n.reread key none) schema = knownOutputs n schema := by
  rw [knownOutputs, knownOutputs, houtputs]
  rfl

/-- An error that a link has in what is read back is one that it has in the workflow. -/
theorem linkError?_reread (hk : k.Plain allowed) (hn : k.node? id = some n) :
    (k.reread none).linkError? schema (n.reread id none) input l =
      k.linkError? schema n input l := by
  have hid : (n.reread id none).id = n.id := (hk.wellKeyed.id_eq hn).symm
  rw [linkError?, linkError?, node?_reread]
  cases hm : k.node? l.source with
  | none => rw [Option.map_none, hid]
  | some m =>
    have hmid : (m.reread l.source none).id = m.id := (hk.wellKeyed.id_eq hm).symm
    rw [Option.map_some]
    dsimp only
    rw [knownOutputs_reread (hk.nodes _ m hm).1, hid, hmid]

/-- The inputs of a workflow with their nodes, in order. -/
def sites (k : Graph) : List (Node × String × InputValue) :=
  k.nodeList.flatMap fun n => n.inputs.entries.map fun e => (n, e)

theorem mem_sites_iff {v : InputValue} :
    (n, input, v) ∈ k.sites ↔ n ∈ k.nodeList ∧ n.inputs.get? input = some v := by
  simp [sites, Dict.get?_eq_some_iff]

/-- A literal that is read back as a connection. -/
def StrayAt (k : Graph) (id input : String) (l : Link) : Prop :=
  ∃ n v, k.node? id = some n ∧ n.inputs.get? input = some (.literal v) ∧
    InputValue.ofJson v = .ok l.toInput

/-- What the check says of an input. -/
def errorAt (k : Graph) (schema : Schema) (t : Node × String × InputValue) :
    Option StructureError :=
  t.2.2.link?.bind fun l => k.linkError? schema t.1 t.2.1 l

/-- What it says of the input once it is read back. -/
def errorReadAt (k : Graph) (schema : Schema) (t : Node × String × InputValue) :
    Option StructureError :=
  (t.2.2.reread.bind InputValue.link?).bind fun l => k.linkError? schema t.1 t.2.1 l

theorem linkErrors_eq (k : Graph) (schema : Schema) :
    k.linkErrors schema = k.sites.filterMap (k.errorAt schema) := by
  rw [linkErrors, sites, List.filterMap_flatMap]
  congr 1
  funext n
  rw [Node.links_eq, List.filterMap_filterMap, List.filterMap_map]
  congr 1
  funext e
  cases he : e.2.link? <;> simp [errorAt, he]

theorem linkErrors_reread (hk : k.Plain allowed) :
    (k.reread none).linkErrors schema = k.sites.filterMap (k.errorReadAt schema) := by
  have hnodes : (k.reread none).nodeList =
      k.nodes.entries.map fun e => e.2.reread e.1 none := by
    rw [nodeList, reread, Dict.values, Dict.map, List.map_map]
    rfl
  rw [linkErrors, hnodes, sites, nodeList, Dict.values, List.flatMap_map, List.filterMap_flatMap,
    List.flatMap_map]
  refine List.flatMap_congr fun e he => ?_
  have hn : k.node? e.1 = some e.2 := Dict.get?_eq_some_iff.2 he
  rw [Node.links_reread, List.filterMap_filterMap, List.filterMap_map]
  congr 1
  funext t
  cases ht : t.2.reread.bind InputValue.link? with
  | none => simp [errorReadAt, ht]
  | some l => simp [errorReadAt, ht, linkError?_reread hk hn]

/-- An error of an input stays one. -/
theorem errorReadAt_of_errorAt {t : Node × String × InputValue} {e : StructureError}
    (h : k.errorAt schema t = some e) : k.errorReadAt schema t = some e := by
  obtain ⟨l, hl, hle⟩ := Option.bind_eq_some_iff.1 h
  rw [errorReadAt, InputValue.reread_bind_link? hl, Option.bind_some, hle]

theorem isRereadable_of_get? {v : InputValue} (hr : k.isRereadable) (hn : k.node? id = some n)
    (hv : n.inputs.get? input = some v) : v.isRereadable := by
  rw [isRereadable, List.all_eq_true] at hr
  have hnode := hr (id, n) (Dict.get?_eq_some_iff.1 hn)
  rw [Node.isRereadable, List.all_eq_true] at hnode
  exact hnode (input, v) (Dict.get?_eq_some_iff.1 hv)

/-- Where strays are admitted, no input has an error that it had not before. -/
theorem errorReadAt_eq (hr : k.isRereadable)
    (hstrays : ∀ id input l, k.StrayAt id input l → k.Admits schema l)
    {t : Node × String × InputValue} (ht : t ∈ k.sites) :
    k.errorReadAt schema t = k.errorAt schema t := by
  obtain ⟨n, input, v⟩ := t
  obtain ⟨hn, hv⟩ := mem_sites_iff.1 ht
  obtain ⟨id, hid⟩ := mem_nodeList_iff.1 hn
  rw [errorReadAt, errorAt]
  dsimp only
  cases hread : v.reread.bind InputValue.link? with
  | none =>
    cases hl : v.link? with
    | none => rfl
    | some l => cases hread.symm.trans (InputValue.reread_bind_link? hl)
  | some l =>
    rcases InputValue.reread_bind_link?_cases (isRereadable_of_get? hr hid hv) hread with
      hl | ⟨w, rfl, hw⟩
    · rw [hl]
    · -- a stray has no error of its own, and none once it is a link that is admitted
      exact linkError?_eq_none_iff.2 (hstrays id input l ⟨n, w, hid, hv, hw⟩)

/-- A stray of which nothing new is said is admitted. -/
theorem StrayAt.admits (hstray : k.StrayAt id input l)
    (h : ∀ t ∈ k.sites, k.errorReadAt schema t = k.errorAt schema t) : k.Admits schema l := by
  obtain ⟨n, v, hn, hv, hread⟩ := hstray
  have hsite : (n, input, .literal v) ∈ k.sites :=
    mem_sites_iff.2 ⟨mem_nodeList_iff.2 ⟨id, hn⟩, hv⟩
  have hlink : (InputValue.literal v).reread.bind InputValue.link? = some l := by
    rw [InputValue.ofJson_eq] at hread
    exact InputValue.link?_eq_some_iff.2 (withinLimit_eq_ok_iff.1 hread).2
  have hnone := h _ hsite
  rw [errorReadAt, hlink] at hnone
  exact linkError?_eq_none_iff.1 hnone

/-- **The errors of links are the same exactly where every stray is admitted**, and otherwise there
are more of them in what is read back. -/
theorem linkErrors_reread_iff (hk : k.Plain allowed) (hr : k.isRereadable) (schema : Schema) :
    (k.linkErrors schema).length ≤ ((k.reread none).linkErrors schema).length ∧
      (((k.reread none).linkErrors schema).length ≤ (k.linkErrors schema).length ↔
        ∀ id input l, k.StrayAt id input l → k.Admits schema l) ∧
      ((∀ id input l, k.StrayAt id input l → k.Admits schema l) →
        (k.reread none).linkErrors schema = k.linkErrors schema) := by
  have hmore : ∀ t ∈ k.sites, ∀ e, k.errorAt schema t = some e →
      k.errorReadAt schema t = some e := fun t _ e he => errorReadAt_of_errorAt he
  rw [linkErrors_reread hk, linkErrors_eq]
  obtain ⟨hle, heq⟩ := filterMap_eq_of_length_le hmore
  refine ⟨hle, ⟨?_, ?_⟩, ?_⟩
  · intro hlen id input l hstray
    exact hstray.admits (heq hlen)
  · intro hstrays
    rw [List.filterMap_congr fun t ht => errorReadAt_eq hr hstrays ht]
  · intro hstrays
    exact List.filterMap_congr fun t ht => errorReadAt_eq hr hstrays ht

/-! ## Cycles -/

theorem linkAt?_reread_of_linkAt? (h : k.linkAt? id input = some l) :
    (k.reread none).linkAt? id input = some l := by
  obtain ⟨n, hn, hl⟩ := linkAt?_eq_some_iff.1 h
  refine linkAt?_eq_some_iff.2 ⟨n.reread id none, by rw [node?_reread, hn, Option.map_some], ?_⟩
  rw [Node.link?_eq_some_iff] at hl ⊢
  show (n.inputs.filterMap fun _ v => v.reread).get? input = _
  rw [Dict.get?_filterMap, hl]
  rfl

/-- A workflow has a rank where the document has one. -/
theorem cycle?_of_reread (h : (k.reread none).cycle? = none) : k.cycle? = none := by
  obtain ⟨rank, hr⟩ := cycle?_eq_none_iff_ranked.1 h
  refine cycle?_eq_none_iff_ranked.2 ⟨rank, ?_⟩
  rintro a b ⟨hb, input, l, hl, rfl⟩
  exact hr a _ ⟨has_reread_iff.2 hb, input, l, linkAt?_reread_of_linkAt? hl, rfl⟩

/-- The cycle that is reported, if there is one. -/
def cycleReport (k : Graph) : Option String :=
  k.cycle?.map fun ids => (StructureError.cycle ids).message

theorem cycleReport_of_isEmpty (h : k.nodes.isEmpty = true) : k.cycleReport = none := by
  have hkeys : k.nodes.keys = [] := by
    rw [Dict.keys, List.isEmpty_iff.1 h]
    rfl
  rw [cycleReport, cycle?, hkeys]
  rfl

/-- Reading back adds links and takes none away, so no report of a cycle is lost. -/
theorem length_cycleReport_le (k : Graph) :
    k.cycleReport.toList.length ≤ (k.reread none).cycleReport.toList.length := by
  cases hreport : (k.reread none).cycleReport with
  | none =>
    rw [cycleReport, cycle?_of_reread (Option.map_eq_none_iff.1 hreport)]
    exact Nat.le_refl _
  | some report => exact Option.length_toList_le

/-- Without strays the document has the dependencies of the workflow. -/
theorem dependencies_reread (hr : k.isRereadable)
    (hno : ∀ id input l, ¬ k.StrayAt id input l) (id : String) :
    (k.reread none).dependencies id = k.dependencies id := by
  have hhas : (k.reread none).has = k.has := by
    funext id
    rw [Bool.eq_iff_iff]
    exact has_reread_iff
  rw [dependencies, dependencies, node?_reread, hhas]
  cases hn : k.node? id with
  | none => rfl
  | some n =>
    have hlinks : (n.reread id none).links = n.links := by
      rw [Node.links_reread, Node.links_eq]
      refine List.filterMap_congr fun e he => ?_
      have hv : n.inputs.get? e.1 = some e.2 := Dict.get?_eq_some_iff.2 he
      congr 1
      cases hread : e.2.reread.bind InputValue.link? with
      | none =>
        cases hl : e.2.link? with
        | none => rfl
        | some l => cases hread.symm.trans (InputValue.reread_bind_link? hl)
      | some l =>
        rcases InputValue.reread_bind_link?_cases (isRereadable_of_get? hr hn hv) hread with
          hl | ⟨w, hlit, hw⟩
        · exact hl.symm
        · exact absurd ⟨n, w, hn, hlit ▸ hv, hw⟩ (hno id e.1 l)
    rw [Option.map_some]
    dsimp only
    rw [hlinks]

/-! ## The verdict on the document -/

/-- The errors of a workflow, as they are worded. -/
theorem map_message_structureErrors (hne : k.nodes.isEmpty = false) :
    (k.structureErrors schema).map StructureError.message =
      (k.linkErrors schema).map StructureError.message ++ k.cycleReport.toList := by
  rw [structureErrors, hne, if_neg (by simp), List.map_append, cycleReport]
  cases k.cycle? <;> rfl

/-- **The verdict is that on the document exactly where every stray is admitted and the same cycle
is reported.** -/
theorem errors_reread_iff (hk : k.Plain allowed) (hr : k.isRereadable) (schema : Schema) :
    (k.structureErrors schema).map StructureError.message =
        ((k.reread none).structureErrors schema).map StructureError.message ↔
      (∀ id input l, k.StrayAt id input l → k.Admits schema l) ∧
        (k.reread none).cycleReport = k.cycleReport := by
  have hsize : (k.reread none).nodes.isEmpty = k.nodes.isEmpty := by
    rw [reread, Dict.isEmpty, Dict.isEmpty, Dict.map, List.isEmpty_map]
  cases hempty : k.nodes.isEmpty with
  | true =>
    -- a workflow without nodes has neither strays nor cycles
    have hstrays : ∀ id input l, k.StrayAt id input l → k.Admits schema l := by
      rintro id input l ⟨n, -, hn, -⟩
      exact absurd ⟨id, has_iff.2 ⟨n, hn⟩⟩ (nodes_isEmpty_iff.1 hempty)
    rw [structureErrors, structureErrors, hsize, hempty, if_pos rfl, if_pos rfl,
      cycleReport_of_isEmpty hempty, cycleReport_of_isEmpty (hsize.trans hempty)]
    exact ⟨fun _ => ⟨hstrays, rfl⟩, fun _ => rfl⟩
  | false =>
    obtain ⟨hle, hiff, heq⟩ := linkErrors_reread_iff hk hr schema
    rw [map_message_structureErrors hempty, map_message_structureErrors (hsize.trans hempty)]
    constructor
    · intro h
      -- neither links nor the search report less in what is read back, so neither reports more
      have hcycle := length_cycleReport_le k
      have hlen := congrArg List.length h
      simp only [List.length_append, List.length_map] at hlen
      have hstrays := hiff.1 (by omega)
      rw [heq hstrays] at h
      have hreports := congrArg List.head? (List.append_cancel_left h)
      rw [Option.head?_toList, Option.head?_toList] at hreports
      exact ⟨hstrays, hreports.symm⟩
    · rintro ⟨hstrays, hcycle⟩
      rw [heq hstrays, hcycle]

/-- **An accepted workflow is accepted as a document exactly where every stray is admitted and the
strays close no cycle.** -/
theorem accepts_reread_iff (hk : k.Plain allowed) (hr : k.isRereadable)
    (hnone : (k.structureErrors schema).map StructureError.message = []) :
    ((k.reread none).structureErrors schema).map StructureError.message = [] ↔
      (∀ id input l, k.StrayAt id input l → k.Admits schema l) ∧ (k.reread none).Acyclic := by
  have hsound := structureErrors_eq_nil_iff.1 (List.map_eq_nil_iff.1 hnone)
  have hreport : k.cycleReport = none := by
    rw [cycleReport, cycle?_eq_none_iff_ranked.2 hsound.ranked]
    rfl
  have hsame := errors_reread_iff hk hr schema
  rw [hnone, hreport, cycleReport, Option.map_eq_none_iff, cycle?_eq_none_iff_acyclic] at hsame
  rw [← hsame, eq_comm]

/-- Without strays the verdict is that on the document. -/
theorem errors_reread_of_no_stray (hk : k.Plain allowed) (hr : k.isRereadable)
    (hno : ∀ id input l, ¬ k.StrayAt id input l) :
    (k.structureErrors schema).map StructureError.message =
      ((k.reread none).structureErrors schema).map StructureError.message := by
  refine (errors_reread_iff hk hr schema).2 ⟨fun id input l h => absurd h (hno id input l), ?_⟩
  rw [cycleReport, cycleReport, cycle?_congr (Dict.keys_map _ _) (dependencies_reread hr hno)]

/-- The index of a link that is read back can be written if the document can. -/
theorem isWritable_of_mem_linkErrors_reread (hk : k.Plain allowed) (hw : k.toJson.isWritable)
    {e : StructureError} (he : e ∈ (k.reread none).linkErrors schema) : e.isWritable := by
  rw [linkErrors_reread hk] at he
  obtain ⟨⟨n, input, v⟩, ht, he⟩ := List.mem_filterMap.1 he
  obtain ⟨l, hl, he⟩ := Option.bind_eq_some_iff.1 he
  obtain ⟨hn, hv⟩ := mem_sites_iff.1 ht
  obtain ⟨id, hid⟩ := mem_nodeList_iff.1 hn
  have hnode := ((isWritable_toJson_iff hk.writable).1 hw).1 id n hid
  have houtput := InputValue.isWritable_output
    ((Node.isWritable_toJson_iff.1 hnode).2 input v hv) hl
  rw [linkError?] at he
  split at he
  · obtain rfl := Option.some.inj he
    rfl
  · dsimp only at he
    split at he
    · obtain rfl := Option.some.inj he
      exact houtput
    · cases he

/-- The errors of a document that can be written can be worded. -/
theorem structureTexts_reread (hk : k.Plain allowed) (hw : k.toJson.isWritable) (schema : Schema) :
    (k.reread none).structureTexts schema =
      .ok (((k.reread none).structureErrors schema).map StructureError.message) := by
  rw [structureTexts_eq]
  refine withinLimit_eq_ok_iff.2 ⟨List.all_eq_true.2 fun e he => ?_, rfl⟩
  rw [structureErrors] at he
  split at he
  · obtain rfl := List.mem_singleton.1 he
    rfl
  · rcases List.mem_append.1 he with he | he
    · exact isWritable_of_mem_linkErrors_reread hk hw he
    · obtain ⟨ids, -, rfl⟩ := Option.map_eq_some_iff.1 (Option.mem_toList.1 he)
      rfl

end Graph

namespace Submission

open NodeFlow.Graph

variable {s : Submission} {source : Json} {strict : Bool} {c : Compiled}

/-- How a verdict relates to the document that is submitted. -/
structure VerdictOn (s : Submission) (c : Compiled) (k r : Graph) : Prop where
  /-- The document was written from the graph. -/
  graph : c.graph = some k
  document : c.document = k.toFields
  /-- The document is read back, and checked. -/
  read : Graph.read (.obj c.document) none = .ok r
  checked : r.structureTexts s.schema =
    .ok ((r.structureErrors s.schema).map StructureError.message)
  /-- The verdict is that on the document exactly where every stray is admitted and the search for
  cycles reports the same. -/
  same : c.errors = (r.structureErrors s.schema).map StructureError.message ↔
    (∀ id input l, k.StrayAt id input l → k.Admits s.schema l) ∧ r.cycleReport = k.cycleReport
  /-- A workflow that is accepted was written as one that is accepted exactly where every stray is
  admitted and the strays close no cycle. -/
  accepts : c.errors = [] → ((r.structureErrors s.schema).map StructureError.message = [] ↔
    (∀ id input l, k.StrayAt id input l → k.Admits s.schema l) ∧ r.Acyclic)
  /-- Strays are values that the request supplies. -/
  supplied : ∀ id input l, k.StrayAt id input l →
    ∃ v, s.request.Supplies v ∧ InputValue.ofJson v = .ok l.toInput
  /-- So the verdict is that on the document where no value that is supplied has the shape of a
  connection. -/
  sufficient : (∀ v, s.request.Supplies v → InputValue.ofJson v = .ok (.literal v)) →
    c.errors = (r.structureErrors s.schema).map StructureError.message

/-- **The verdict and the document that is submitted**, for every document, request and schema. -/
theorem compileDocument_verdictOn (h : (s.compileDocument source strict).result = .ok c) :
    ∃ k r, s.VerdictOn c k r := by
  rw [compileDocument, Log.Traced.result_bind, Log.Traced.result_ofExcept] at h
  obtain ⟨g, hg, hrun⟩ := exists_of_bind_eq_ok h
  obtain ⟨assembled, hassembled, hc⟩ := exists_run_of_compile s g strict hrun
  -- no pass writes a literal of the shape of a connection unless it was supplied
  have hplain := plain_run hg (result_run_of_assemble s g hassembled)
  generalize assembled.resolveBypassed s.cfg.bypassMaxDepth = b at hc hplain
  have hsupplied : ∀ id input l, b.graph.StrayAt id input l →
      ∃ v, s.request.Supplies v ∧ InputValue.ofJson v = .ok l.toInput := by
    rintro id input l ⟨n, v, hn, hv, hread⟩
    refine ⟨v, ?_, hread⟩
    rcases (hplain.nodes id n hn).2 input _ hv with hliteral | hsupplied
    · cases hliteral.symm.trans hread
    · exact hsupplied
  -- the document has a fingerprint, so it can be written
  have hw : b.graph.toJson.isWritable := by
    have hdocument := c.isWritable_document
    rw [hc.document] at hdocument
    exact hdocument
  have hr := Graph.isRereadable_of_isWritable hplain.writable hw
  have hread : Graph.read (.obj c.document) none = .ok (b.graph.reread none) := by
    have hwritten := read_toJson_of_writable hplain.writable none
    rw [hr, withinLimit_true] at hwritten
    rw [hc.document]
    exact hwritten
  refine ⟨b.graph, b.graph.reread none, hc.graph, hc.document, hread,
    structureTexts_reread hplain hw s.schema, ?_, ?_, hsupplied, fun hnone => ?_⟩
  · rw [hc.errors]
    exact errors_reread_iff hplain hr s.schema
  · rw [hc.errors]
    exact accepts_reread_iff hplain hr
  · rw [hc.errors]
    refine errors_reread_of_no_stray hplain hr fun id input l hstray => ?_
    obtain ⟨v, hv, hread⟩ := hsupplied id input l hstray
    cases (hnone v hv).symm.trans hread

/-- A document of one node with a number as its input. -/
def numberDocument : Json :=
  .obj [("1", .obj [("class_type", .str "A"), ("inputs", .obj [("x", .int 1)])])]

/-- The number is overridden by a value. -/
def overriding (v : Json) : Submission where
  cfg := {}
  schema := .empty
  request := { overrides := [("1", [("x", v)])] }
  classifier := .usual {}

/-- What is left when the number is overridden. -/
def overridden (v : Json) : Graph where
  nodes := .ofList [("1", { id := "1", classType := "A", inputs := .ofList [("x", .literal v)] })]
  wrapped := false

/-- The hypothesis of `compileDocument_verdictOn` is met, by a value that is no stray. -/
theorem numberDocument_verdictOn :
    ∃ c, ((overriding (.str "a")).compileDocument numberDocument true).result = .ok c ∧
      Compiled.ofGraph (overridden (.str "a")) [] [] = .ok c ∧
      ∃ k r, (overriding (.str "a")).VerdictOn c k r := by
  obtain ⟨c, hrun, hc⟩ := Compiled.exists_ofGraph_of_parts
    ((overriding (.str "a")).compileDocument numberDocument true).result (overridden (.str "a")) []
    [] (by decide +kernel)
  exact ⟨c, hrun, hc, compileDocument_verdictOn hrun⟩

/-- **A verdict need not be that on the document**, not even where the workflow must be valid: a
pair that overrides a number is submitted as a connection to a node that is not there. -/
theorem not_verdict_on_document :
    ∃ c r, ((overriding (.arr [.str "99", .int 0])).compileDocument numberDocument false).result =
        .ok c ∧
      ((overriding (.arr [.str "99", .int 0])).compileDocument numberDocument true).result = .ok c ∧
      c.errors = [] ∧ Graph.read (.obj c.document) none = .ok r ∧
      r.structureTexts .empty = .ok ["Node '1' input 'x' references non-existent node '99'"] ∧
      r.structureErrors .empty = [.noSource "1" "x" "99"] ∧
      c.errors ≠ (r.structureErrors .empty).map StructureError.message := by
  obtain ⟨c, hrun, hc⟩ := Compiled.exists_ofGraph_of_parts
    ((overriding (.arr [.str "99", .int 0])).compileDocument numberDocument false).result
    (overridden (.arr [.str "99", .int 0])) [] [] (by decide +kernel)
  obtain ⟨c', hrun', hc'⟩ := Compiled.exists_ofGraph_of_parts
    ((overriding (.arr [.str "99", .int 0])).compileDocument numberDocument true).result
    (overridden (.arr [.str "99", .int 0])) [] [] (by decide +kernel)
  obtain rfl := Except.ok.inj (hc.symm.trans hc')
  obtain ⟨hdocument, -, -, herrors⟩ := Compiled.ofGraph_eq_ok_iff.1 hc
  refine ⟨c, (overridden (.arr [.str "99", .int 0])).reread none, hrun, hrun', herrors, ?_,
    eq_ok_of_toOption ?_, ?_, ?_⟩
  · rw [hdocument]
    exact eq_ok_of_toOption (by decide +kernel)
  · decide +kernel
  · decide +kernel
  · rw [herrors]
    decide +kernel

end Submission

end NodeFlow
