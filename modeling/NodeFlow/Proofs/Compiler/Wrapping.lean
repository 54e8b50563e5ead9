import NodeFlow.Proofs.Compiler.Literals
import NodeFlow.Proofs.Compiler.Lookalike
import NodeFlow.Proofs.Document.Limit
/-!
# Documents that wrap their nodes and documents that do not

The same nodes, groups and notes can be written in two forms. Read from
either, the workflows have the same nodes, groups and notes; they differ in
the form they remember and in the entries that describe no node. No pass
looks at these, so both forms compile alike: what is submitted to a server is
the same, and so are the warnings and the verdict. That an entry may have
the key of a node that is put in makes no difference to the nodes that are
submitted.
-/

namespace NodeFlow

/-! ## Workflows up to the form of their documents -/

/-- Workflows with the same nodes, groups and notes. -/
structure Graph.SameUpToForm (g h : Graph) : Prop where
  nodes : g.nodes = h.nodes
  groups : g.groups = h.groups
  notes : g.notes = h.notes

namespace Graph

variable {g h : Graph}

/-- The form is all that is left to tell such workflows apart. -/
theorem SameUpToForm.eq (hgh : g.SameUpToForm h) :
    h = { g with wrapped := h.wrapped, metadata := h.metadata } := by
  obtain ⟨hnodes, hgroups, hnotes⟩ := hgh
  rw [hnodes, hgroups, hnotes]

theorem sameUpToForm_with (g : Graph) (wrapped : Bool) (metadata : Dict Json) :
    g.SameUpToForm { g with wrapped := wrapped, metadata := metadata } := ⟨rfl, rfl, rfl⟩

theorem SameUpToForm.mapNodes (hgh : g.SameUpToForm h) (f : Node → Node) :
    (g.mapNodes f).SameUpToForm (h.mapNodes f) := by
  rw [hgh.eq]
  exact sameUpToForm_with _ _ _

theorem SameUpToForm.modify (hgh : g.SameUpToForm h) (id : String) (f : Node → Node) :
    (g.modify id f).SameUpToForm (h.modify id f) := by
  rw [hgh.eq]
  exact sameUpToForm_with _ _ _

theorem SameUpToForm.frame_eq (hgh : g.SameUpToForm h) : g.frame = h.frame := by
  rw [hgh.eq]
  rfl

theorem SameUpToForm.resolveBypassed (hgh : g.SameUpToForm h) (limit : Int) :
    (g.resolveBypassed limit).graph.SameUpToForm (h.resolveBypassed limit).graph := by
  have hframe := hgh.frame_eq
  have hnode : g.resolveNode limit = h.resolveNode limit :=
    funext (resolveNode_congr hframe limit)
  have hgroups : g.liveGroups = h.liveGroups := by
    simp only [liveGroups, isBypassedAt_congr hframe, hgh.groups]
  rw [Graph.resolveBypassed, Graph.resolveBypassed, bypassedIds_congr hframe]
  split
  · exact hgh
  · refine ⟨?_, hgroups, hgh.notes⟩
    rw [withoutBypassed, withoutBypassed, hgh.nodes, hnode]

/-- **The passes do not look at the form.** -/
theorem lookalike_sameUpToForm : Lookalike SameUpToForm where
  frame := SameUpToForm.frame_eq
  put := by
    intro g h hgh n
    rw [hgh.eq]
    exact sameUpToForm_with _ _ _
  setInput := fun hgh id input v => hgh.modify id fun n => n.setInput input v
  resolveBypassed := SameUpToForm.resolveBypassed

end Graph

/-! ## Classifiers -/

/-- The first step of a sampler is told from the nodes alone. -/
theorem Classifier.classify_startStep_congr {g h : Graph} (hgh : g.SameUpToForm h)
    (samplerClass startInput : String) :
    (startStep samplerClass startInput).classify g =
      (startStep samplerClass startInput).classify h := by
  rw [hgh.eq]
  rfl

namespace Submission

open NodeFlow.Graph

variable {s : Submission} {g h : Graph} {strict : Bool}

theorem classifies_startStep {samplerClass startInput : String}
    (hs : s.classifier = .startStep samplerClass startInput) : s.Classifies SameUpToForm := by
  intro _ g h hgh
  rw [hs, Classifier.classify_startStep_congr hgh]

/-! ## Filling in -/

theorem sameUpToForm_adjusted (s : Submission) (hgh : g.SameUpToForm h) :
    (s.adjusted g).SameUpToForm (s.adjusted h) := by
  have hseeded : (s.seeded g).SameUpToForm (s.seeded h) := by
    rw [seeded, seeded]
    split
    · exact hgh.mapNodes _
    · exact hgh
  rw [adjusted, adjusted, override, override]
  generalize s.seeded g = k at hseeded
  generalize s.seeded h = l at hseeded
  -- on the overrides, each of which changes one node of both
  induction s.request.overrides generalizing k l with
  | nil => exact hseeded
  | cons o overrides ih => exact ih _ _ (hseeded.modify o.1 _)

theorem agree_filled (s : Submission) (hgh : g.SameUpToForm h) :
    Agree SameUpToForm (s.filled g).result (s.filled h).result := by
  have hfillable : g.isFillable s.request.values = h.isFillable s.request.values := by
    rw [isFillable, isFillable, hgh.nodes]
  rw [result_filled_eq, result_filled_eq, hfillable]
  cases h.isFillable s.request.values with
  | true => exact .ok (sameUpToForm_adjusted s (hgh.mapNodes _))
  | false => exact .error _

end Submission

/-! ## The two forms of a document -/

/-- The document that has its nodes in an object of their own. -/
def wrappedDocument (nodes : Dict Json) (groups notes : Json) : Fields :=
  [("nodes", .obj nodes.entries), ("groups", groups), ("notes", notes)]

/-- The document that is the object of its nodes, with the groups and notes behind them. -/
def rawDocument (nodes : Dict Json) (groups notes : Json) : Fields :=
  nodes.entries ++ [("groups", groups), ("notes", notes)]

namespace Graph

variable {nodes : Dict Json} {schema : Option Schema}

theorem read_obj {document : Fields} (h : isLayout document = false) :
    Graph.read (.obj document) schema = ofEntries document schema := by
  have hfields : documentFields (.obj document) = .ok document := rfl
  rw [Graph.read, hfields]
  simp only [bind, Except.bind]
  rw [h, if_neg (by simp)]

/-- Of a raw document the nodes are left when groups and notes are taken away. -/
theorem outside_rawDocument (hfree : ∀ key ∈ nodes.keys, key ∉ reservedKeys) (groups notes : Json) :
    outside (rawDocument nodes groups notes) = nodes := by
  have hnodup : (Entries.keys (rawDocument nodes groups notes)).Nodup := by
    rw [rawDocument, Entries.keys_append, List.nodup_append]
    refine ⟨nodes.nodup, by simp [Entries.keys], ?_⟩
    rintro key hkey other hother rfl
    refine hfree key hkey ?_
    have hcases : key = "groups" ∨ key = "notes" := by simpa [Entries.keys] using hother
    rcases hcases with rfl | rfl <;> simp [reservedKeys]
  have hkept : nodes.entries.filter (fun e => !reservedKeys.contains e.1) = nodes.entries := by
    refine List.filter_eq_self.2 fun e he => ?_
    simpa using hfree e.1 (Entries.mem_keys_of_mem he)
  refine Dict.ext ?_
  rw [outside, Dict.filter]
  dsimp only
  rw [Dict.entries_ofList hnodup, rawDocument, List.filter_append, hkept]
  simp [reservedKeys]

/-- A wrapped document has no other entries. -/
theorem outside_wrappedDocument (nodes : Dict Json) (groups notes : Json) :
    outside (wrappedDocument nodes groups notes) = .empty := rfl

/-- Workflows that were read from the two forms of a document. -/
structure ReadAlike (nodes : Dict Json) (g h : Graph) : Prop where
  same : g.SameUpToForm h
  wrapped : g.metadata = .empty
  /-- The entries that are no nodes are kept. -/
  raw : h.metadata = notNodes nodes

/-- **Both forms are read alike**: not at all, or as the same nodes, groups and notes. -/
theorem agree_read (hfree : ∀ key ∈ nodes.keys, key ∉ reservedKeys) (groups notes : Json) :
    Agree (ReadAlike nodes) (Graph.read (.obj (wrappedDocument nodes groups notes)) schema)
      (Graph.read (.obj (rawDocument nodes groups notes)) schema) := by
  -- a raw document is looked up behind its nodes where a key has a meaning
  have hget : ∀ key ∈ reservedKeys, Entries.get? (rawDocument nodes groups notes) key =
      Entries.get? [("groups", groups), ("notes", notes)] key := by
    intro key hkey
    have hnone : Entries.get? nodes.entries key = none :=
      Entries.get?_eq_none_iff.2 fun hm => hfree key hm hkey
    rw [rawDocument, Entries.get?_append, hnone, Option.none_or]
  have hnodes : Entries.get? (rawDocument nodes groups notes) "nodes" = none :=
    hget _ (by simp [reservedKeys])
  have hgroups : Entries.get? (rawDocument nodes groups notes) "groups" = some groups :=
    hget _ (by simp [reservedKeys])
  have hnotes : Entries.get? (rawDocument nodes groups notes) "notes" = some notes :=
    hget _ (by simp [reservedKeys])
  have hlayout : isLayout (rawDocument nodes groups notes) = false := by rw [isLayout, hnodes]
  have hinner : (Entries.get? (wrappedDocument nodes groups notes) "nodes").bind Json.fields? =
      some nodes.entries := rfl
  have hinner' : (Entries.get? (rawDocument nodes groups notes) "nodes").bind Json.fields? =
      none := by
    rw [hnodes]
    rfl
  rw [read_obj rfl, read_obj hlayout, ofEntries_wrapped schema hinner, ofEntries_raw schema hinner',
    outside_rawDocument hfree, outside_wrappedDocument, readParts, readParts, hgroups, hnotes,
    Dict.ofList_entries]
  refine .bind_same _ fun read => .bind_same _ fun groups' => ?_
  show Agree _ ((readNotes 1 (itemsOf (some notes))).map _)
    ((readNotes 1 (itemsOf (some notes))).map _)
  refine (Agree.refl _).map fun _ _ hsame => ?_
  obtain rfl := hsame
  exact ⟨⟨rfl, rfl, rfl⟩, rfl, rfl⟩

/-! ## What is submitted -/

/-- The nodes of a raw document are told from its other entries by their keys. -/
theorem filter_has_toFields {k : Graph} (hw : k.Writable) (hraw : k.wrapped = false) :
    k.toFields.filter (fun e => k.has e.1) = k.nodeEntries.entries := by
  have hreserved : ∀ e : String × Json, e.1 ∈ reservedKeys → ¬ k.has e.1 := by
    intro e he hhas
    exact hw.nodes hraw e.1 (has_iff_mem_keys.1 hhas) he
  have hhead : k.headEntries.filter (fun e => k.has e.1) = k.nodeEntries.entries := by
    rw [headEntries, hraw, if_neg (by simp)]
    refine List.filter_eq_self.2 fun e he => ?_
    exact has_iff_mem_keys.2 (k.keys_nodeEntries ▸ Entries.mem_keys_of_mem he)
  have hgroups : k.groupEntries.filter (fun e => k.has e.1) = [] := by
    refine List.filter_eq_nil_iff.2 fun e he => hreserved e ?_
    simp [eq_of_mem_keys_groupEntries (Entries.mem_keys_of_mem he), reservedKeys]
  have hnotes : k.noteEntries.filter (fun e => k.has e.1) = [] := by
    refine List.filter_eq_nil_iff.2 fun e he => hreserved e ?_
    simp [eq_of_mem_keys_noteEntries (Entries.mem_keys_of_mem he), reservedKeys]
  -- an entry with the key of a node was not written
  have hrest : k.writtenMetadata.entries.filter (fun e => k.has e.1) = [] := by
    rw [writtenMetadata, hraw, if_neg (by simp)]
    refine List.filter_eq_nil_iff.2 fun e he => ?_
    simpa using (List.mem_filter.1 he).2
  rw [toFields_eq hw, List.filter_append, List.filter_append, List.filter_append, hhead, hgroups,
    hnotes, hrest]
  simp

/-- **What is submitted of a workflow are its nodes**, in whatever form it is written. -/
theorem prompt_ofGraph {k : Graph} {c : Compiled} {warnings errors : List String} (hw : k.Writable)
    (hc : Compiled.ofGraph k warnings errors = .ok c) : c.prompt = k.nodeEntries.entries := by
  obtain ⟨hdocument, hgraph, -, -⟩ := Compiled.ofGraph_eq_ok_iff.1 hc
  have hnodes : Entries.get? c.document "nodes" =
      if k.wrapped then some (.obj k.nodeEntries.entries) else none := by
    rw [hdocument]
    exact get?_toFields_nodes hw
  rw [Compiled.prompt, hnodes]
  cases hwrapped : k.wrapped with
  | true => rfl
  | false =>
    rw [hdocument, hgraph]
    exact filter_has_toFields hw hwrapped

end Graph

/-- The same is submitted, and the same is said about it. -/
structure Compiled.SameUpToForm (c d : Compiled) : Prop where
  prompt : c.prompt = d.prompt
  warnings : c.warnings = d.warnings
  errors : c.errors = d.errors
  groups : Entries.get? c.document "groups" = Entries.get? d.document "groups"
  notes : Entries.get? c.document "notes" = Entries.get? d.document "notes"
  /-- What is submitted are the nodes, under their ids. -/
  graph : ∃ k l, c.graph = some k ∧ d.graph = some l ∧ k.SameUpToForm l ∧
    Entries.keys c.prompt = k.nodeList.map Node.id ∧ Entries.keys d.prompt = l.nodeList.map Node.id

/-- Both forms compile alike, or the raw one has an entry that cannot be written. It describes no
node, so the wrapped form leaves it out. -/
def Compiled.AlikeUpToEntries (nodes : Dict Json) (x y : Except Fault Compiled) : Prop :=
  Agree Compiled.SameUpToForm x y ∨
    ((∃ c, x = .ok c) ∧ y = .error (.badValue .unwritableInteger) ∧
      ∃ key v, nodes.get? key = some v ∧ nodeFields? v = none ∧ v.isWritable = false)

theorem Compiled.sameUpToForm_ofGraph {k l : Graph} {allowed : Json → Prop} {c d : Compiled}
    {warnings errors : List String} (hkl : k.SameUpToForm l) (hk : k.Plain allowed)
    (hl : l.Plain allowed) (hc : ofGraph k warnings errors = .ok c)
    (hd : ofGraph l warnings errors = .ok d) : c.SameUpToForm d := by
  have hkeys : ∀ {j : Graph} {b : Compiled}, j.Plain allowed → ofGraph j warnings errors = .ok b →
      Entries.keys b.prompt = j.nodeList.map Node.id := by
    intro j b hj hb
    have hids : j.nodes.entries.map Prod.fst = j.nodes.entries.map fun e => e.2.id :=
      List.map_congr_left fun e he => (hj.wellKeyed e he).symm
    rw [Graph.prompt_ofGraph hj.writable hb]
    refine j.keys_nodeEntries.trans (hids.trans ?_)
    rw [Graph.nodeList, Dict.values, List.map_map]
    rfl
  have hprompt : k.nodeEntries = l.nodeEntries := by
    rw [Graph.nodeEntries, Graph.nodeEntries, hkl.nodes]
  obtain ⟨hdocument, hgraph, hwarnings, herrors⟩ := ofGraph_eq_ok_iff.1 hc
  obtain ⟨hdocument', hgraph', hwarnings', herrors'⟩ := ofGraph_eq_ok_iff.1 hd
  refine ⟨?_, hwarnings.trans hwarnings'.symm, herrors.trans herrors'.symm, ?_, ?_, k, l, hgraph,
    hgraph', hkl, hkeys hk hc, hkeys hl hd⟩
  · rw [Graph.prompt_ofGraph hk.writable hc, Graph.prompt_ofGraph hl.writable hd, hprompt]
  · rw [hdocument, hdocument', Graph.get?_toFields_groups hk.writable,
      Graph.get?_toFields_groups hl.writable, Graph.groupEntries, Graph.groupEntries, hkl.groups]
  · rw [hdocument, hdocument', Graph.get?_toFields_notes hk.writable,
      Graph.get?_toFields_notes hl.writable, Graph.noteEntries, Graph.noteEntries, hkl.notes]

theorem Graph.mem_metadata_of_mem_written {g : Graph} {e : String × Json}
    (he : e ∈ g.writtenMetadata.entries) : e ∈ g.metadata.entries := by
  rw [writtenMetadata] at he
  split at he
  · exact he
  · exact List.mem_of_mem_filter he

/-- The raw form can be written if the wrapped one can, and so can its other entries. -/
theorem Graph.isWritable_raw_iff {k l : Graph} {nodes : Dict Json} (hkl : k.ReadAlike nodes l)
    (hk : k.Writable) (hl : l.Writable) :
    l.toJson.isWritable ↔
      k.toJson.isWritable ∧ ∀ e ∈ l.writtenMetadata.entries, e.2.isWritable := by
  have hwritten : ∀ e ∈ k.writtenMetadata.entries, e.2.isWritable := by
    intro e he
    have hnone := mem_metadata_of_mem_written he
    rw [hkl.wrapped] at hnone
    cases hnone
  obtain ⟨hnodes, hgroups, hnotes⟩ := hkl.same
  rw [isWritable_toJson_iff hl, isWritable_toJson_iff hk]
  simp only [node?, hnodes, hgroups, hnotes]
  tauto

/-- **Workflows with the same nodes, groups and notes become compiled workflows alike**, up to the
entries that one of them keeps. -/
theorem Compiled.alikeUpToEntries_ofGraph {k l : Graph} {nodes : Dict Json} {allowed : Json → Prop}
    (hkl : k.ReadAlike nodes l) (hk : k.Plain allowed) (hl : l.Plain allowed)
    (warnings errors : List String) :
    AlikeUpToEntries nodes (ofGraph k warnings errors) (ofGraph l warnings errors) := by
  have hwritable := Graph.isWritable_raw_iff hkl hk.writable hl.writable
  rcases ofGraph_cases k warnings errors with ⟨c, hc, hshort⟩ | ⟨hc, hlong⟩ <;>
    rcases ofGraph_cases l warnings errors with ⟨d, hd, hshort'⟩ | ⟨hd, hlong'⟩
  · rw [hc, hd]
    exact Or.inl (.ok (sameUpToForm_ofGraph hkl.same hk hl hc hd))
  · -- the entry that is too long is one that the wrapped form leaves out
    obtain ⟨e, he, hentry⟩ : ∃ e ∈ l.writtenMetadata.entries, e.2.isWritable = false := by
      by_contra hnone
      rw [hwritable.2 ⟨hshort, by simpa using hnone⟩] at hlong'
      cases hlong'
    have hkept : (Graph.notNodes nodes).get? e.1 = some e.2 := by
      rw [← hkl.raw]
      exact Dict.get?_eq_some_iff.2 (Graph.mem_metadata_of_mem_written he)
    obtain ⟨hnode, hnone⟩ := Graph.get?_notNodes_eq_some_iff.1 hkept
    exact Or.inr ⟨⟨c, hc⟩, hd, e.1, e.2, hnode, hnone, hentry⟩
  · rw [(hwritable.1 hshort').1] at hlong
    cases hlong
  · rw [hc, hd]
    exact Or.inl (.error _)

namespace Submission

open NodeFlow.Graph

variable {s : Submission} {g h : Graph} {strict : Bool}

theorem metadata_run {r : Bypass.Result} (hrun : (s.run g).result = .ok r) :
    r.graph.metadata = g.metadata := by
  rw [result_run] at hrun
  obtain ⟨k, hk, rfl⟩ := exists_of_map_eq_ok hrun
  have hkept : (k.resolveBypassed s.cfg.bypassMaxDepth).graph.metadata = k.metadata :=
    (congrArg Graph.metadata (rest_resolveBypassed k _) :)
  rw [hkept, rest_assemble hk]

/-- **Both forms of a document compile alike**, for every request and schema: they fail for the
same reason, or the same is submitted, with the same groups, notes, warnings and errors. The
nodes, the groups and the notes may be any values, but a classifier that is asked must not go by
the form; and where an entry that is no node cannot be written, the form that keeps it has no
fingerprint. -/
theorem compileDocument_wrapped_raw {nodes : Dict Json} (s : Submission)
    (hfree : ∀ key ∈ nodes.keys, key ∉ reservedKeys) (groups notes : Json) (strict : Bool)
    (hc : s.Classifies SameUpToForm) :
    Compiled.AlikeUpToEntries nodes
      (s.compileDocument (.obj (wrappedDocument nodes groups notes)) strict).result
      (s.compileDocument (.obj (rawDocument nodes groups notes)) strict).result := by
  have hs : s.SameChains s := ⟨rfl, rfl, rfl, rfl, rfl, rfl⟩
  have herror : ∀ e, Compiled.AlikeUpToEntries nodes (.error e) (.error e) :=
    fun e => Or.inl (.error e)
  rw [compileDocument, compileDocument, Log.Traced.result_bind, Log.Traced.result_bind,
    Log.Traced.result_ofExcept, Log.Traced.result_ofExcept]
  refine (agree_read hfree groups notes).with_eq.elim_bind herror ?_
  rintro g h ⟨hgh, hg, hh⟩
  refine lookalike_sameUpToForm.compile hs hc (agree_filled s hgh.same) strict herror ?_
  intro r r' errors hr hr' halike
  have hfill : g.fillWarnings s.request.values = h.fillWarnings s.request.values := by
    rw [hgh.same.eq]
    rfl
  rw [hfill, halike.warnings]
  exact Compiled.alikeUpToEntries_ofGraph
    ⟨halike.graph, (metadata_run hr).trans hgh.wrapped, (metadata_run hr').trans hgh.raw⟩
    (plain_run hg hr) (plain_run hh hr') _ errors

/-- A loader and a sampler it feeds, and an entry that describes no node under the first number that
a chain may take. -/
def numberedEntries : Dict Json := .ofList [
  ("1", .obj [("class_type", .str "UNETLoader")]),
  ("2", .obj [("class_type", .str "KSampler"),
    ("inputs", .obj [("model", .arr [.str "1", .int 0])])]),
  ("100", .str "a note")]

/-- One modifier behind the model source, and one for the high-noise path. -/
def modifiersOnBothPaths : Submission where
  cfg := {}
  schema := .empty
  request := { chain := [⟨"a", .one⟩], highChain := [⟨"b", .one⟩] }
  classifier := .usual {}

/-- The hypotheses of `compileDocument_wrapped_raw` are met by the usual classifier, and both forms
compile, although the modifier takes the place of the other entry in one of them only. -/
theorem numberedEntries_wrapped_raw :
    (∀ key ∈ numberedEntries.keys, key ∉ reservedKeys) ∧
      modifiersOnBothPaths.Classifies SameUpToForm ∧
      ∃ c d, (modifiersOnBothPaths.compileDocument (.obj (wrappedDocument numberedEntries
            (.arr [.obj [("member_nodes", .arr [.str "1"])]]) .null)) true).result = .ok c ∧
        (modifiersOnBothPaths.compileDocument (.obj (rawDocument numberedEntries
            (.arr [.obj [("member_nodes", .arr [.str "1"])]]) .null)) true).result = .ok d ∧
        c.SameUpToForm d ∧ Entries.keys d.prompt = ["1", "2", "100"] := by
  have hfree : ∀ key ∈ numberedEntries.keys, key ∉ reservedKeys := by decide +kernel
  have hc : modifiersOnBothPaths.Classifies SameUpToForm := classifies_startStep rfl
  have hagree := compileDocument_wrapped_raw modifiersOnBothPaths hfree
    (.arr [.obj [("member_nodes", .arr [.str "1"])]]) .null true hc
  have hreturns : ((modifiersOnBothPaths.compileDocument (.obj (rawDocument numberedEntries
      (.arr [.obj [("member_nodes", .arr [.str "1"])]]) .null)) true).result.toOption.map
        fun d => Entries.keys d.prompt) = some ["1", "2", "100"] := by
    decide +kernel
  obtain ⟨d, hd, hkeys⟩ := Option.map_eq_some_iff.1 hreturns
  have hraw := eq_ok_of_toOption hd
  rw [hraw] at hagree
  rcases hagree with hagree | ⟨-, herror, -⟩
  · obtain ⟨c, hwrapped, hsame⟩ := hagree.exists_left
    exact ⟨hfree, hc, c, d, hwrapped, hraw, hsame, hkeys⟩
  · cases herror

/-- A classifier that goes by the form: every node of a raw document is on the high-noise path, and
no other is on any. -/
def byForm : Classifier where
  classify g _ := if g.wrapped then [] else [.high]

/-- A modifier between a loader and a model-sampling node. -/
def sampledEntries : Dict Json := .ofList [
  ("1", .obj [("class_type", .str "UNETLoader")]),
  ("2", .obj [("class_type", .str "LoraLoaderModelOnly"),
    ("inputs", .obj [("model", .arr [.str "1", .int 0])])]),
  ("3", .obj [("class_type", .str "ModelSamplingSD3"),
    ("inputs", .obj [("model", .arr [.str "2", .int 0])])])]

/-- One more modifier for the high-noise path, wherever the form has it. -/
def modifierByForm : Submission where
  cfg := {}
  schema := .empty
  request := { highChain := [⟨"b.safetensors", .one⟩] }
  classifier := byForm

/-- **The two forms need not compile alike**: a classifier that goes by the form has the modifier
put into one of them only. -/
theorem not_agree_byForm :
    (∀ key ∈ sampledEntries.keys, key ∉ reservedKeys) ∧
      ¬ Agree Compiled.SameUpToForm
        (modifierByForm.compileDocument
          (.obj (wrappedDocument sampledEntries (.arr []) (.arr []))) false).result
        (modifierByForm.compileDocument
          (.obj (rawDocument sampledEntries (.arr []) (.arr []))) false).result := by
  refine ⟨by decide +kernel, fun hagree => ?_⟩
  have hwrapped : ((modifierByForm.compileDocument
      (.obj (wrappedDocument sampledEntries (.arr []) (.arr []))) false).result.toOption.map
        fun c => Entries.keys c.prompt) = some ["1", "2", "3"] := by
    decide +kernel
  have hraw : ((modifierByForm.compileDocument
      (.obj (rawDocument sampledEntries (.arr []) (.arr []))) false).result.toOption.map
        fun c => Entries.keys c.prompt) = some ["1", "2", "3", "100"] := by
    decide +kernel
  obtain ⟨c, hc, hkeys⟩ := Option.map_eq_some_iff.1 hwrapped
  obtain ⟨d, hd, hkeys'⟩ := Option.map_eq_some_iff.1 hraw
  rw [eq_ok_of_toOption hc, eq_ok_of_toOption hd] at hagree
  rw [hagree.of_ok.prompt, hkeys'] at hkeys
  cases hkeys

end Submission

end NodeFlow
