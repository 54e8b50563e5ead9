import NodeFlow.Proofs.Document.Entry
import NodeFlow.Proofs.Graph.Dependency
/-!
# Reading back a document

A document is made of its nodes, its groups and notes where there are any,
and the other entries; `toFields_eq` says so of what is written, and each of
the parts is then read back on its own. `Writable` is what keeps them apart,
and it holds of every workflow that was read: `read_toJson`.
-/

namespace NodeFlow

/-- Adding the entries whose key is not there yet appends them. -/
theorem Entries.foldl_put_missing {α : Type} {es : List (String × α)} (fs : List (String × α))
    (h : (keys es).Nodup) :
    es.foldl (fun fs e => if (get? fs e.1).isSome then fs else put fs e.1 e.2) fs =
      fs ++ es.filter fun e => (get? fs e.1).isNone := by
  induction es generalizing fs with
  | nil => simp
  | cons e es ih =>
    obtain ⟨hnot, hnodup⟩ : e.1 ∉ keys es ∧ (keys es).Nodup := by simpa [keys] using h
    rw [List.foldl_cons]
    by_cases hsome : (get? fs e.1).isSome
    · have hnot : (get? fs e.1).isNone = false := by
        rw [← Option.not_isSome, hsome, Bool.not_true]
      rw [if_pos hsome, ih fs hnodup, List.filter_cons, hnot, if_neg (by simp)]
    · have hnone : get? fs e.1 = none := by simpa using hsome
      rw [if_neg hsome, put_of_not_mem (get?_eq_none_iff.1 hnone), ih _ hnodup,
        List.filter_cons, hnone, Option.isNone_none, if_pos rfl, List.append_assoc,
        List.singleton_append]
      congr 2
      refine List.filter_congr fun e' he' => ?_
      have hne : e.1 ≠ e'.1 := fun he => hnot (he ▸ mem_keys_of_mem he')
      simp [get?_append, get?_cons, hne]

namespace Graph

variable {g : Graph} {schema : Schema}

/-! ## The parts of a document -/

/-- What tells the entries of a document apart once it is written. -/
structure Writable (g : Graph) : Prop where
  /-- No entry without a meaning has a key with one. -/
  metadata : ∀ key ∈ g.metadata.keys, key ∉ reservedKeys
  /-- Nor has a node, where nodes stand among the other entries. -/
  nodes : g.wrapped = false → ∀ key ∈ g.nodes.keys, key ∉ reservedKeys
  /-- No other entry describes a node there. -/
  plain : g.wrapped = false → ∀ key v, g.metadata.get? key = some v → nodeFields? v = none

/-- The nodes of a workflow, as they are written. -/
def nodeEntries (g : Graph) : Dict Json := g.nodes.map fun _ n => n.toJson

/-- What stands at the beginning of a document. -/
def headEntries (g : Graph) : Fields :=
  if g.wrapped then [("nodes", .obj g.nodeEntries.entries)] else g.nodeEntries.entries

/-- The groups, where there are any. -/
def groupEntries (g : Graph) : Fields :=
  if g.groups.isEmpty then [] else [("groups", .arr (g.groups.map Group.toJson))]

/-- The notes, where there are any. -/
def noteEntries (g : Graph) : Fields :=
  if g.notes.isEmpty then [] else [("notes", .arr (g.notes.map Note.toJson))]

/-- The other entries that are written: a node with the same key takes the place of one. -/
def writtenMetadata (g : Graph) : Dict Json :=
  if g.wrapped then g.metadata else g.metadata.filter fun key _ => !g.has key

theorem keys_nodeEntries (g : Graph) : g.nodeEntries.keys = g.nodes.keys := Dict.keys_map _ _

theorem mem_keys_headEntries {key : String} :
    key ∈ Entries.keys g.headEntries ↔ if g.wrapped then key = "nodes" else g.has key := by
  rw [headEntries]
  split
  · simp [Entries.keys]
  · rw [has_iff_mem_keys, ← keys_nodeEntries]
    rfl

theorem eq_of_mem_keys_groupEntries {key : String} (h : key ∈ Entries.keys g.groupEntries) :
    key = "groups" := by
  rw [groupEntries] at h
  split at h
  · cases h
  · simpa [Entries.keys] using h

theorem eq_of_mem_keys_noteEntries {key : String} (h : key ∈ Entries.keys g.noteEntries) :
    key = "notes" := by
  rw [noteEntries] at h
  split at h
  · cases h
  · simpa [Entries.keys] using h

theorem mem_keys_of_mem_writtenMetadata {key : String} (h : key ∈ g.writtenMetadata.keys) :
    key ∈ g.metadata.keys := by
  rw [writtenMetadata] at h
  split at h
  · exact h
  · exact (Entries.keys_filter_sublist _ _).subset h

theorem Writable.not_mem_headEntries (hw : g.Writable) {key : String} (hkey : key ∈ reservedKeys)
    (hne : key ≠ "nodes") : key ∉ Entries.keys g.headEntries := by
  rw [mem_keys_headEntries]
  cases hwrapped : g.wrapped with
  | true => simpa using hne
  | false =>
    rw [if_neg (by simp), has_iff_mem_keys]
    exact fun hm => hw.nodes hwrapped key hm hkey

/-- An entry of the rest has a key of its own unless it has the key of a node that stands beside
it. -/
theorem isNone_get?_front (hw : g.Writable) {key : String} (hkey : key ∈ g.metadata.keys) :
    (Entries.get? (g.headEntries ++ g.groupEntries ++ g.noteEntries) key).isNone =
      (g.wrapped || !g.has key) := by
  obtain ⟨hnodes, hgroups, hnotes⟩ : key ≠ "nodes" ∧ key ≠ "groups" ∧ key ≠ "notes" := by
    simpa [reservedKeys] using hw.metadata key hkey
  have hnot : key ∉ Entries.keys g.groupEntries ∧ key ∉ Entries.keys g.noteEntries :=
    ⟨fun hm => hgroups (eq_of_mem_keys_groupEntries hm),
      fun hm => hnotes (eq_of_mem_keys_noteEntries hm)⟩
  rw [Bool.eq_iff_iff, Option.isNone_iff_eq_none, Entries.get?_eq_none_iff, Entries.keys_append,
    Entries.keys_append, List.mem_append, List.mem_append, mem_keys_headEntries]
  cases g.wrapped <;> simp [hnot, hnodes]

/-- **What is written, part by part.** -/
theorem toFields_eq (hw : g.Writable) :
    g.toFields = g.headEntries ++ g.groupEntries ++ g.noteEntries ++ g.writtenMetadata.entries := by
  have hbase : (if g.wrapped then [("nodes", Json.obj (g.nodes.entries.map fun e =>
      (e.1, e.2.toJson)))] else g.nodes.entries.map fun e => (e.1, e.2.toJson)) =
      g.headEntries := rfl
  have hgroups : (if g.groups.isEmpty then g.headEntries else
      Entries.put g.headEntries "groups" (.arr (g.groups.map Group.toJson))) =
      g.headEntries ++ g.groupEntries := by
    rw [groupEntries]
    split
    · simp
    · exact Entries.put_of_not_mem (hw.not_mem_headEntries (by simp [reservedKeys]) (by simp)) _
  have hnotes : (if g.notes.isEmpty then g.headEntries ++ g.groupEntries else
      Entries.put (g.headEntries ++ g.groupEntries) "notes" (.arr (g.notes.map Note.toJson))) =
      g.headEntries ++ g.groupEntries ++ g.noteEntries := by
    rw [noteEntries]
    split
    · simp
    · refine Entries.put_of_not_mem ?_ _
      rw [Entries.keys_append, List.mem_append, not_or]
      refine ⟨hw.not_mem_headEntries (by simp [reservedKeys]) (by simp), ?_⟩
      exact fun hm => absurd (eq_of_mem_keys_groupEntries hm) (by simp)
  rw [toFields, hbase, hgroups, hnotes, Entries.foldl_put_missing _ g.metadata.nodup]
  congr 1
  have hkept : ∀ e ∈ g.metadata.entries,
      (Entries.get? (g.headEntries ++ g.groupEntries ++ g.noteEntries) e.1).isNone =
        (g.wrapped || !g.has e.1) :=
    fun e he => isNone_get?_front hw (Entries.mem_keys_of_mem he)
  rw [List.filter_congr hkept, writtenMetadata]
  cases g.wrapped with
  | true => simp
  | false => rfl

/-! ## Looking keys up -/

/-- A key with a meaning is not looked up among the other entries. -/
theorem get?_toFields (hw : g.Writable) {key : String} (hkey : key ∈ reservedKeys) :
    Entries.get? g.toFields key =
      ((Entries.get? g.headEntries key).or (Entries.get? g.groupEntries key)).or
        (Entries.get? g.noteEntries key) := by
  have hrest : Entries.get? g.writtenMetadata.entries key = none := by
    exact Entries.get?_eq_none_iff.2 fun hm =>
      hw.metadata key (mem_keys_of_mem_writtenMetadata hm) hkey
  rw [toFields_eq hw, Entries.get?_append, Entries.get?_append, Entries.get?_append, hrest,
    Option.or_none]

theorem get?_groupEntries_of_ne {key : String} (h : key ≠ "groups") :
    Entries.get? g.groupEntries key = none :=
  Entries.get?_eq_none_iff.2 fun hm => h (eq_of_mem_keys_groupEntries hm)

theorem get?_noteEntries_of_ne {key : String} (h : key ≠ "notes") :
    Entries.get? g.noteEntries key = none :=
  Entries.get?_eq_none_iff.2 fun hm => h (eq_of_mem_keys_noteEntries hm)

theorem get?_toFields_nodes (hw : g.Writable) :
    Entries.get? g.toFields "nodes" =
      if g.wrapped then some (.obj g.nodeEntries.entries) else none := by
  rw [get?_toFields hw (by simp [reservedKeys]), get?_groupEntries_of_ne (by simp),
    get?_noteEntries_of_ne (by simp), Option.or_none, Option.or_none]
  cases hwrapped : g.wrapped with
  | true =>
    rw [headEntries, hwrapped]
    rfl
  | false =>
    have hnot : "nodes" ∉ Entries.keys g.headEntries := by
      rw [mem_keys_headEntries, hwrapped, if_neg (by simp), has_iff_mem_keys]
      exact fun hm => hw.nodes hwrapped _ hm (by simp [reservedKeys])
    rw [Entries.get?_eq_none_iff.2 hnot]
    rfl

theorem get?_toFields_groups (hw : g.Writable) :
    Entries.get? g.toFields "groups" = Entries.get? g.groupEntries "groups" := by
  have hkey : "groups" ∈ reservedKeys := by simp [reservedKeys]
  rw [get?_toFields hw hkey, get?_noteEntries_of_ne (by simp),
    Entries.get?_eq_none_iff.2 (hw.not_mem_headEntries hkey (by simp)), Option.or_none,
    Option.none_or]

theorem get?_toFields_notes (hw : g.Writable) :
    Entries.get? g.toFields "notes" = Entries.get? g.noteEntries "notes" := by
  have hkey : "notes" ∈ reservedKeys := by simp [reservedKeys]
  rw [get?_toFields hw hkey, get?_groupEntries_of_ne (by simp),
    Entries.get?_eq_none_iff.2 (hw.not_mem_headEntries hkey (by simp)), Option.or_none,
    Option.none_or]

theorem itemsOf_groupEntries (g : Graph) :
    itemsOf (Entries.get? g.groupEntries "groups") = g.groups.map Group.toJson := by
  rw [groupEntries]
  split
  · rename_i hempty
    rw [List.isEmpty_iff.1 hempty]
    rfl
  · rfl

theorem itemsOf_noteEntries (g : Graph) :
    itemsOf (Entries.get? g.noteEntries "notes") = g.notes.map Note.toJson := by
  rw [noteEntries]
  split
  · rename_i hempty
    rw [List.isEmpty_iff.1 hempty]
    rfl
  · rfl

/-! ## The other entries -/

theorem nodup_keys_toFields (g : Graph) : (Entries.keys g.toFields).Nodup := by
  have hput : ∀ (fs : Fields) (key : String) (value : Json), (Entries.keys fs).Nodup →
      ∀ {p : Bool}, (Entries.keys (if p then fs else Entries.put fs key value)).Nodup := by
    intro fs key value h p
    cases p with
    | true => exact h
    | false => exact Entries.nodup_keys_put h key value
  have hhead : (Entries.keys g.headEntries).Nodup := by
    rw [headEntries]
    split
    · simp [Entries.keys]
    · exact g.nodeEntries.nodup
  rw [toFields]
  refine List.foldlRecOn (motive := fun fs : Fields => (Entries.keys fs).Nodup) _ _
    (hput _ _ _ (hput _ _ _ hhead)) ?_
  intro fs h e _
  exact hput fs e.1 e.2 h

/-- What is left of a document without the keys that have a meaning. -/
def outside (document : Fields) : Dict Json :=
  (Dict.ofList document).filter fun key _ => !reservedKeys.contains key

theorem not_mem_reservedKeys_of_outside {document : Fields} {key : String} {v : Json}
    (h : (outside document).get? key = some v) : key ∉ reservedKeys := by
  rw [outside, Dict.get?_filter, Option.filter_eq_some_iff] at h
  simpa using h.2

/-- Of a document that was written, the nodes are left if they are not wrapped, and the other
entries. -/
theorem entries_outside (hw : g.Writable) :
    (outside g.toFields).entries =
      (if g.wrapped then [] else g.nodeEntries.entries) ++ g.writtenMetadata.entries := by
  have hhead : g.headEntries.filter (fun e => !reservedKeys.contains e.1) =
      if g.wrapped then [] else g.nodeEntries.entries := by
    rw [headEntries]
    cases hwrapped : g.wrapped with
    | true => simp [reservedKeys]
    | false =>
      refine List.filter_eq_self.2 fun e he => ?_
      have hkey : e.1 ∈ g.nodes.keys := g.keys_nodeEntries ▸ Entries.mem_keys_of_mem he
      simpa using hw.nodes hwrapped e.1 hkey
  have hgroups : g.groupEntries.filter (fun e => !reservedKeys.contains e.1) = [] := by
    refine List.filter_eq_nil_iff.2 fun e he => ?_
    simp [eq_of_mem_keys_groupEntries (Entries.mem_keys_of_mem he), reservedKeys]
  have hnotes : g.noteEntries.filter (fun e => !reservedKeys.contains e.1) = [] := by
    refine List.filter_eq_nil_iff.2 fun e he => ?_
    simp [eq_of_mem_keys_noteEntries (Entries.mem_keys_of_mem he), reservedKeys]
  have hrest : g.writtenMetadata.entries.filter (fun e => !reservedKeys.contains e.1) =
      g.writtenMetadata.entries := by
    refine List.filter_eq_self.2 fun e he => ?_
    simpa using hw.metadata e.1 (mem_keys_of_mem_writtenMetadata (Entries.mem_keys_of_mem he))
  rw [outside, Dict.filter]
  dsimp only
  rw [Dict.entries_ofList g.nodup_keys_toFields, toFields_eq hw, List.filter_append,
    List.filter_append, List.filter_append, hhead, hgroups, hnotes, hrest, List.append_nil,
    List.append_nil]

/-! ## Nodes among other entries -/

/-- The nodes among the entries of an object, whatever the length of the integers in them. -/
def nodesAmong (candidates : Dict Json) (schema : Option Schema) : Dict Node :=
  candidates.filterMap fun key v =>
    (nodeFields? v).map fun fields => Node.asRead key fields schema

/-- Whether the integers that become texts as the nodes among the entries are read can be
written. -/
def areReadable (candidates : Dict Json) : Bool :=
  (candidates.filterMap fun _ v => nodeFields? v).entries.all fun e => Node.isReadable e.2

theorem areReadable_iff {candidates : Dict Json} :
    areReadable candidates ↔ ∀ key v fields, candidates.get? key = some v →
      nodeFields? v = some fields → Node.isReadable fields := by
  rw [areReadable, List.all_eq_true]
  constructor
  · intro hall key v fields hv hfields
    refine hall (key, fields) (Dict.get?_eq_some_iff.1 ?_)
    rw [Dict.get?_filterMap, hv]
    exact hfields
  · intro hall e he
    have hget := Dict.get?_eq_some_iff.2 he
    rw [Dict.get?_filterMap, Option.bind_eq_some_iff] at hget
    obtain ⟨v, hv, hfields⟩ := hget
    exact hall e.1 v e.2 hv hfields

/-- **The nodes among the entries of an object are read** where the integers that become texts can
be written. -/
theorem traverse_ofFields (candidates : Dict Json) (schema : Option Schema) :
    ((candidates.filterMap fun _ v => nodeFields? v).traverse fun key fields =>
        Node.ofFields key fields schema) =
      withinLimit (areReadable candidates) (nodesAmong candidates schema) := by
  have hread : ((candidates.filterMap fun _ v => nodeFields? v).map fun key fields =>
      Node.asRead key fields schema) = nodesAmong candidates schema := Dict.map_filterMap _ _ _
  simp only [Node.ofFields_eq]
  rw [Dict.traverse_withinLimit _ (fun _ fields => Node.isReadable fields)
    fun key fields => Node.asRead key fields schema, hread]
  rfl

/-- The entries of an object that are no nodes. -/
def notNodes (candidates : Dict Json) : Dict Json :=
  candidates.filter fun _ v => (nodeFields? v).isNone

theorem get?_nodesAmong_eq_some {candidates : Dict Json} {schema : Option Schema} {key : String}
    {n : Node} (h : (nodesAmong candidates schema).get? key = some n) :
    ∃ v fields, candidates.get? key = some v ∧ nodeFields? v = some fields ∧
      n = Node.asRead key fields schema := by
  rw [nodesAmong, Dict.get?_filterMap, Option.bind_eq_some_iff] at h
  obtain ⟨v, hv, hn⟩ := h
  obtain ⟨fields, hfields, rfl⟩ := Option.map_eq_some_iff.1 hn
  exact ⟨v, fields, hv, hfields, rfl⟩

theorem get?_notNodes_eq_some_iff {candidates : Dict Json} {key : String} {v : Json} :
    (notNodes candidates).get? key = some v ↔
      candidates.get? key = some v ∧ nodeFields? v = none := by
  rw [notNodes, Dict.get?_filter, Option.filter_eq_some_iff, Option.isNone_iff_eq_none]

/-- No entry is both. -/
theorem not_mem_keys_nodesAmong {candidates : Dict Json} {key : String}
    (h : key ∈ (notNodes candidates).keys) (schema : Option Schema) :
    key ∉ (nodesAmong candidates schema).keys := by
  obtain ⟨v, hv⟩ := Dict.mem_keys_iff.1 h
  obtain ⟨hcandidate, hnone⟩ := get?_notNodes_eq_some_iff.1 hv
  intro hkey
  obtain ⟨n, hn⟩ := Dict.mem_keys_iff.1 hkey
  obtain ⟨w, fields, hw, hfields, -⟩ := get?_nodesAmong_eq_some hn
  obtain rfl : v = w := Option.some.inj (hcandidate.symm.trans hw)
  cases hnone.symm.trans hfields

/-- Entries that are no nodes may stand behind the candidates. -/
theorem nodesAmong_append {candidates nodes rest : Dict Json} (schema : Option Schema)
    (h : candidates.entries = nodes.entries ++ rest.entries)
    (hrest : ∀ e ∈ rest.entries, nodeFields? e.2 = none) :
    nodesAmong candidates schema = nodesAmong nodes schema := by
  have hnone : rest.entries.filterMap (fun e =>
      ((nodeFields? e.2).map fun fields => Node.asRead e.1 fields schema).map
        fun n => (e.1, n)) = [] :=
    List.filterMap_eq_nil_iff.2 fun e he => by rw [hrest e he]; rfl
  refine Dict.ext ?_
  rw [nodesAmong, nodesAmong, Dict.filterMap, Dict.filterMap]
  dsimp only
  rw [h, List.filterMap_append, hnone, List.append_nil]

/-- What stands behind nodes is what is left of them. -/
theorem notNodes_append {candidates nodes rest : Dict Json}
    (h : candidates.entries = nodes.entries ++ rest.entries)
    (hnodes : ∀ e ∈ nodes.entries, nodeFields? e.2 ≠ none)
    (hrest : ∀ e ∈ rest.entries, nodeFields? e.2 = none) : notNodes candidates = rest := by
  have hnone : nodes.entries.filter (fun e => (nodeFields? e.2).isNone) = [] :=
    List.filter_eq_nil_iff.2 fun e he => by simpa using hnodes e he
  have hself : rest.entries.filter (fun e => (nodeFields? e.2).isNone) = rest.entries :=
    List.filter_eq_self.2 fun e he => by rw [hrest e he]; rfl
  refine Dict.ext ?_
  rw [notNodes, Dict.filter]
  dsimp only
  rw [h, List.filter_append, hnone, hself, List.nil_append]

/-- Reads a workflow whose nodes are among some candidates; the groups and the notes stand in the
document. -/
def readParts (document : Fields) (schema : Option Schema) (candidates : Dict Json) (wrapped : Bool)
    (metadata : Dict Json) : Except Fault Graph :=
  withinLimit (areReadable candidates) (nodesAmong candidates schema) >>= fun nodes =>
    readGroups 1 (itemsOf (Entries.get? document "groups")) >>= fun groups =>
      (readNotes 1 (itemsOf (Entries.get? document "notes"))).map fun notes =>
        { nodes, groups, notes, wrapped, metadata }

/-- **What is read part by part.** -/
theorem readParts_eq_ok_iff {document : Fields} {candidates metadata : Dict Json} {wrapped : Bool}
    {schema : Option Schema} :
    readParts document schema candidates wrapped metadata = .ok g ↔
      areReadable candidates ∧
      readGroups 1 (itemsOf (Entries.get? document "groups")) = .ok g.groups ∧
      readNotes 1 (itemsOf (Entries.get? document "notes")) = .ok g.notes ∧
      g.nodes = nodesAmong candidates schema ∧ g.wrapped = wrapped ∧ g.metadata = metadata := by
  constructor
  · intro h
    obtain ⟨nodes, hnodes, h⟩ := exists_of_bind_eq_ok h
    obtain ⟨groups, hgroups, h⟩ := exists_of_bind_eq_ok h
    obtain ⟨notes, hnotes, rfl⟩ := exists_of_map_eq_ok h
    obtain ⟨hreadable, hsame⟩ := withinLimit_eq_ok_iff.1 hnodes
    exact ⟨hreadable, hgroups, hnotes, hsame.symm, rfl, rfl⟩
  · rintro ⟨hreadable, hgroups, hnotes, hnodes, hwrapped, hmetadata⟩
    rw [readParts, hreadable, hgroups, hnotes, ← hnodes, ← hwrapped, ← hmetadata]
    rfl

/-- The entries that may be nodes: those of an object of their own, if there is one, or those of the
document. -/
def possibleNodes (document : Fields) : Dict Json :=
  match (Entries.get? document "nodes").bind Json.fields? with
  | some nodes => .ofList nodes
  | none => outside document

theorem traverse_then_eq_readParts (document : Fields) (schema : Option Schema)
    (candidates : Dict Json) (wrapped : Bool) (metadata : Dict Json) :
    (do
      let nodes ← (candidates.filterMap fun _ v => nodeFields? v).traverse fun key fields =>
        Node.ofFields key fields schema
      let groups ← readGroups 1 (itemsOf (Entries.get? document "groups"))
      let notes ← readNotes 1 (itemsOf (Entries.get? document "notes"))
      return { nodes, groups, notes, wrapped, metadata }) =
    readParts document schema candidates wrapped metadata := by
  rw [traverse_ofFields]
  rfl

/-- **A document that wraps its nodes.** -/
theorem ofEntries_wrapped {document nodes : Fields} (schema : Option Schema)
    (h : (Entries.get? document "nodes").bind Json.fields? = some nodes) :
    ofEntries document schema =
      readParts document schema (.ofList nodes) true (outside document) := by
  rw [ofEntries, h]
  exact traverse_then_eq_readParts document schema _ _ _

/-- **A document that does not.** -/
theorem ofEntries_raw {document : Fields} (schema : Option Schema)
    (h : (Entries.get? document "nodes").bind Json.fields? = none) :
    ofEntries document schema =
      readParts document schema (outside document) false (notNodes (outside document)) := by
  rw [ofEntries, h]
  exact traverse_then_eq_readParts document schema _ _ _

theorem exists_ofEntries_eq (document : Fields) (schema : Option Schema) :
    ∃ wrapped metadata, ofEntries document schema =
      readParts document schema (possibleNodes document) wrapped metadata := by
  rw [possibleNodes]
  cases h : (Entries.get? document "nodes").bind Json.fields? with
  | some nodes => exact ⟨_, _, ofEntries_wrapped schema h⟩
  | none => exact ⟨_, _, ofEntries_raw schema h⟩

/-! ## Whole documents -/

/-- What a workflow is read back as. -/
def reread (g : Graph) (schema : Option Schema) : Graph :=
  { g with
    nodes := g.nodes.map fun key n => n.reread key schema
    metadata := g.writtenMetadata }

theorem isLayout_toFields (hw : g.Writable) : isLayout g.toFields = false := by
  rw [isLayout, get?_toFields_nodes hw]
  cases g.wrapped <;> rfl

/-- The nodes are read back where they stand. -/
theorem nodesAmong_nodeEntries (g : Graph) (schema : Option Schema) :
    nodesAmong g.nodeEntries schema = g.nodes.map fun key n => n.reread key schema := by
  refine Dict.ext ?_
  simp [nodesAmong, Dict.filterMap, Dict.map, nodeEntries, List.filterMap_map, Function.comp_def,
    Node.nodeFields?_toJson, Node.asRead_toFields]

/-- Whether the integers that literals name nodes with, if they are read back as connections, can be
written. -/
def isRereadable (g : Graph) : Bool := g.nodes.entries.all fun e => e.2.isRereadable

theorem areReadable_nodeEntries (g : Graph) : areReadable g.nodeEntries = g.isRereadable := by
  have hfields : (g.nodeEntries.filterMap fun _ v => nodeFields? v) =
      g.nodes.filterMap fun _ n => some n.toFields := Dict.filterMap_map _ _ _
  rw [areReadable, hfields, Dict.filterMap, List.all_filterMap]
  exact List.all_congr rfl fun e => Node.isReadable_toFields e.2

/-- Entries that are no nodes may stand behind the candidates. -/
theorem areReadable_append {candidates nodes rest : Dict Json}
    (h : candidates.entries = nodes.entries ++ rest.entries)
    (hrest : ∀ e ∈ rest.entries, nodeFields? e.2 = none) :
    areReadable candidates = areReadable nodes := by
  have hnone : rest.entries.filterMap (fun e => (nodeFields? e.2).map fun fs => (e.1, fs)) = [] :=
    List.filterMap_eq_nil_iff.2 fun e he => by rw [hrest e he]; rfl
  rw [areReadable, areReadable, Dict.filterMap, Dict.filterMap]
  dsimp only
  rw [h, List.filterMap_append, hnone, List.append_nil]

theorem nodeFields?_of_mem_nodeEntries {e : String × Json} (h : e ∈ g.nodeEntries.entries) :
    nodeFields? e.2 ≠ none := by
  obtain ⟨e', -, rfl⟩ := List.mem_map.1 h
  simp [Node.nodeFields?_toJson]

/-- **A workflow that can be written is read back part by part.** -/
theorem ofEntries_toFields (hw : g.Writable) (schema : Option Schema) :
    ofEntries g.toFields schema = withinLimit g.isRereadable (g.reread schema) := by
  have hgroups : readGroups 1 (itemsOf (Entries.get? g.toFields "groups")) = .ok g.groups := by
    rw [get?_toFields_groups hw, itemsOf_groupEntries, readGroups_map_toJson]
  have hnotes : readNotes 1 (itemsOf (Entries.get? g.toFields "notes")) = .ok g.notes := by
    rw [get?_toFields_notes hw, itemsOf_noteEntries, readNotes_map_toJson]
  have hparts : ∀ nodes wrapped metadata,
      (withinLimit g.isRereadable nodes >>= fun nodes => (.ok g.groups >>= fun groups =>
        (Except.ok g.notes).map fun notes => { nodes, groups, notes, wrapped, metadata } :
          Except Fault Graph)) =
        withinLimit g.isRereadable ⟨nodes, g.groups, g.notes, wrapped, metadata⟩ := by
    intro nodes wrapped metadata
    cases g.isRereadable <;> rfl
  have houtside := entries_outside hw
  cases hwrapped : g.wrapped with
  | true =>
    have hinner : (Entries.get? g.toFields "nodes").bind Json.fields? =
        some g.nodeEntries.entries := by
      rw [get?_toFields_nodes hw, hwrapped]
      rfl
    have hrest : outside g.toFields = g.writtenMetadata :=
      Dict.ext (by simpa [hwrapped] using houtside)
    rw [ofEntries_wrapped schema hinner, readParts, hgroups, hnotes, Dict.ofList_entries,
      areReadable_nodeEntries, nodesAmong_nodeEntries, hrest, reread, hwrapped]
    exact hparts _ _ _
  | false =>
    have hinner : (Entries.get? g.toFields "nodes").bind Json.fields? = none := by
      rw [get?_toFields_nodes hw, hwrapped]
      rfl
    have hsplit : (outside g.toFields).entries =
        g.nodeEntries.entries ++ g.writtenMetadata.entries := by
      simpa [hwrapped] using houtside
    -- none of the other entries describes a node, so they do not come back as nodes
    have hplain : ∀ e ∈ g.writtenMetadata.entries, nodeFields? e.2 = none := by
      intro e he
      rw [writtenMetadata, hwrapped, if_neg (by simp)] at he
      exact hw.plain hwrapped e.1 e.2 (Dict.get?_eq_some_iff.2 (List.mem_filter.1 he).1)
    rw [ofEntries_raw schema hinner, readParts, hgroups, hnotes,
      nodesAmong_append schema hsplit hplain, areReadable_append hsplit hplain,
      notNodes_append hsplit (fun e he => nodeFields?_of_mem_nodeEntries he) hplain,
      areReadable_nodeEntries, nodesAmong_nodeEntries, reread, hwrapped]
    exact hparts _ _ _

/-! ## Workflows that were read -/

/-- The workflow without titles that say nothing. -/
def plainTitles (g : Graph) : Graph := g.mapNodes Node.plainTitle

/-- **A workflow that was read can be written**, its nodes were read under their keys, and none of
its other entries is in the place of a node. -/
theorem ofEntries_eq_ok {document : Fields} {schema : Option Schema}
    (h : ofEntries document schema = .ok g) :
    g.Writable ∧ g.writtenMetadata = g.metadata ∧
      ∀ key n, g.node? key = some n → ∃ fields, n = Node.asRead key fields schema := by
  have hread : ∀ {candidates : Dict Json}, g.nodes = nodesAmong candidates schema →
      ∀ key n, g.node? key = some n → ∃ fields, n = Node.asRead key fields schema := by
    intro candidates hnodes key n hn
    rw [node?, hnodes] at hn
    obtain ⟨-, fields, -, -, rfl⟩ := get?_nodesAmong_eq_some hn
    exact ⟨fields, rfl⟩
  cases hinner : (Entries.get? document "nodes").bind Json.fields? with
  | some nodes =>
    rw [ofEntries_wrapped schema hinner] at h
    obtain ⟨-, -, -, hnodes, hwrapped, hmetadata⟩ := readParts_eq_ok_iff.1 h
    refine ⟨⟨?_, by simp [hwrapped], by simp [hwrapped]⟩, by simp [writtenMetadata, hwrapped],
      hread hnodes⟩
    intro key hkey
    rw [hmetadata] at hkey
    obtain ⟨v, hv⟩ := Dict.mem_keys_iff.1 hkey
    exact not_mem_reservedKeys_of_outside hv
  | none =>
    rw [ofEntries_raw schema hinner] at h
    obtain ⟨-, -, -, hnodes, hwrapped, hmetadata⟩ := readParts_eq_ok_iff.1 h
    refine ⟨⟨?_, ?_, ?_⟩, ?_, hread hnodes⟩
    · intro key hkey
      rw [hmetadata] at hkey
      obtain ⟨v, hv⟩ := Dict.mem_keys_iff.1 hkey
      exact not_mem_reservedKeys_of_outside (get?_notNodes_eq_some_iff.1 hv).1
    · intro _ key hkey
      rw [hnodes] at hkey
      obtain ⟨n, hn⟩ := Dict.mem_keys_iff.1 hkey
      obtain ⟨v, -, hv, -⟩ := get?_nodesAmong_eq_some hn
      exact not_mem_reservedKeys_of_outside hv
    · intro _ key v hv
      rw [hmetadata] at hv
      exact (get?_notNodes_eq_some_iff.1 hv).2
    · rw [writtenMetadata, hwrapped, if_neg Bool.false_ne_true, hmetadata]
      refine Dict.ext (List.filter_eq_self.2 fun e he => ?_)
      rw [Bool.not_eq_true', ← Bool.not_eq_true, has_iff_mem_keys, hnodes]
      exact not_mem_keys_nodesAmong (Entries.mem_keys_of_mem he) schema

/-- A source that was read holds the entries of a document that is not in layout format. -/
theorem exists_ofEntries_of_read {source : Json} {schema : Option Schema}
    (h : Graph.read source schema = .ok g) :
    ∃ document, ofEntries document schema = .ok g := by
  rw [Graph.read] at h
  obtain ⟨document, -, h⟩ := exists_of_bind_eq_ok h
  refine ⟨document, ?_⟩
  split at h
  · cases h
  · exact h

/-- A workflow that can be written is read back as a document, where its literals name no nodes
with integers that are too long. -/
theorem read_toJson_of_writable (hw : g.Writable) (schema : Option Schema) :
    Graph.read g.toJson schema = withinLimit g.isRereadable (g.reread schema) := by
  have hfields : documentFields g.toJson = .ok g.toFields := rfl
  rw [Graph.read, hfields]
  simp only [bind, Except.bind]
  rw [isLayout_toFields hw, if_neg (by simp), ofEntries_toFields hw]

/-- What is written does not tell a title that says nothing. -/
theorem toFields_plainTitles (g : Graph) : g.plainTitles.toFields = g.toFields := by
  have hnodes : g.plainTitles.nodes.entries.map (fun e => (e.1, e.2.toJson)) =
      g.nodes.entries.map fun e => (e.1, e.2.toJson) := by
    rw [plainTitles, mapNodes, Dict.map, List.map_map]
    exact List.map_congr_left fun e _ => congrArg (Prod.mk e.1) e.2.toJson_plainTitle
  rw [toFields, toFields, hnodes]
  rfl

/-- **A workflow that was read is read back from what is written of it**, whatever the document and
the schema, but for titles that say nothing; so writing it again writes the same. -/
theorem read_toJson {source : Json} {schema : Option Schema}
    (h : Graph.read source schema = .ok g) :
    Graph.read g.toJson schema = .ok g.plainTitles ∧ g.plainTitles.toJson = g.toJson := by
  obtain ⟨document, hdocument⟩ := exists_ofEntries_of_read h
  obtain ⟨hw, hmetadata, hnodes⟩ := ofEntries_eq_ok hdocument
  have hreread : g.reread schema = g.plainTitles := by
    have hsame : (g.nodes.map fun key n => n.reread key schema) =
        g.nodes.map fun _ n => n.plainTitle := by
      refine Dict.ext (List.map_congr_left fun e he => ?_)
      obtain ⟨fields, hfields⟩ := hnodes e.1 e.2 (Dict.get?_eq_some_iff.2 he)
      dsimp only
      rw [hfields, Node.reread_asRead]
    rw [reread, hsame, hmetadata]
    rfl
  have hrereadable : g.isRereadable := by
    rw [isRereadable, List.all_eq_true]
    intro e he
    obtain ⟨fields, hfields⟩ := hnodes e.1 e.2 (Dict.get?_eq_some_iff.2 he)
    rw [hfields]
    exact Node.isRereadable_asRead e.1 fields schema
  refine ⟨?_, ?_⟩
  · rw [read_toJson_of_writable hw, hrereadable, hreread, withinLimit_true]
  · rw [toJson, toJson, toFields_plainTitles]

/-- A schema whose sampler takes a model and latents over links. -/
def samplerSchema : Schema :=
  ⟨.ofList [("KSampler",
    { classType := "KSampler"
      inputs := [{ name := "model", type := "MODEL" }, { name := "seed", type := "INT" },
        { name := "latent_image", type := "LATENT" }]
      outputs := [{ name := "LATENT", type := "LATENT" }] })]⟩

/-- A document whose nodes stand among other entries: a source given as a number, a slot that is
left out, a title that says nothing, a bypassed node, and a group without an id. -/
def unwrappedDocument : Json :=
  .obj [("version", .str "0.4"),
    ("1", .obj [("class_type", .str "UNETLoader"), ("mode", .int 4),
      ("_meta", .obj [("title", .str "UNETLoader")])]),
    ("groups", .arr [.obj [("title", .str "Models"), ("member_nodes", .arr [.int 1, .str "2"])]]),
    ("2", .obj [("class_type", .str "KSampler"),
      ("inputs", .obj [("model", .arr [.int 1, .int 0]), ("seed", .int 7)])])]

/-- What the document describes. -/
def unwrappedGraph : Graph where
  nodes := .ofList [
    ("1", { id := "1", classType := "UNETLoader", title := some "UNETLoader", mode := 4 }),
    ("2", { id := "2", classType := "KSampler"
            inputs := .ofList [("model", .connection "1" 0), ("seed", .literal (.int 7)),
              ("latent_image", .slot "LATENT")]
            outputs := [⟨"LATENT", "LATENT"⟩] })]
  groups := [⟨.int 1, "Models", ["1", "2"]⟩]
  wrapped := false
  metadata := .ofList [("version", .str "0.4")]

/-- The hypothesis of `read_toJson` is met; the title is lost, and the slot is back in its place. -/
theorem read_toJson_unwrapped :
    Graph.read unwrappedDocument (some samplerSchema) = .ok unwrappedGraph ∧
      (Graph.read unwrappedGraph.toJson (some samplerSchema) = .ok unwrappedGraph.plainTitles ∧
        unwrappedGraph.plainTitles.toJson = unwrappedGraph.toJson) ∧
      unwrappedGraph.plainTitles ≠ unwrappedGraph := by
  have h : Graph.read unwrappedDocument (some samplerSchema) = .ok unwrappedGraph :=
    eq_ok_of_toOption (by decide +kernel)
  exact ⟨h, read_toJson h, by decide +kernel⟩

end Graph

end NodeFlow
