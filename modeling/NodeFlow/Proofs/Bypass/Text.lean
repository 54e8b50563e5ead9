import NodeFlow.Proofs.Bypass.Account
import NodeFlow.Proofs.Bypass.Closure
import NodeFlow.Proofs.Compiler.Literals
import NodeFlow.Proofs.Json.RoundTrip
/-!
# Resolving bypassed nodes in text

The pass over text reads a workflow, resolves it and writes the result. What
it returns is read back as the result: nothing that the pass does to a
workflow makes the reader take an entry for something else. That is the
content of `Rereadable`, which holds of every workflow that was read without
a schema and is kept by the pass; `resolvesText` draws the conclusions.
-/

namespace NodeFlow.Graph

open Bypass

variable {g : Graph} {limit : Int} {id : String} {n : Node}

/-! ## Workflows that are read back -/

/-- Reading the workflow back loses titles that say nothing, and nothing else. -/
structure Rereadable (g : Graph) : Prop where
  /-- It can be written, and its literals are read back as literals. -/
  plain : g.Plain fun v => InputValue.ofJson v = .ok (.literal v)
  /-- No title is empty. -/
  titles : ∀ id n, g.node? id = some n → n.title ≠ some ""
  /-- No other entry has the key of a node in its place. -/
  metadata : g.writtenMetadata = g.metadata

theorem rereadable_of_read {source : Json} (h : Graph.read source none = .ok g) : g.Rereadable := by
  obtain ⟨document, hdocument⟩ := exists_ofEntries_of_read h
  obtain ⟨-, hmetadata, hnodes⟩ := ofEntries_eq_ok hdocument
  refine ⟨plain_of_read h fun _ hv => hv, ?_, hmetadata⟩
  intro id n hn
  obtain ⟨fields, rfl⟩ := hnodes id n hn
  exact Node.title_asRead_ne_empty id fields none

theorem reread_of_plain {v : InputValue}
    (hv : v.Plain fun w => InputValue.ofJson w = .ok (.literal w)) :
    v.reread = some v ∧ v.isRereadable := by
  cases v with
  | literal w =>
    have hw : InputValue.asRead w = .literal w := InputValue.ofJson_eq_literal_iff.1 hv
    have hreread : (InputValue.literal w).reread = some (.asRead w) := rfl
    have hshort := InputValue.isRereadable_asRead w
    rw [hw] at hshort
    exact ⟨by rw [hreread, hw], hshort⟩
  | connection source output => exact ⟨rfl, rfl⟩
  | slot type => cases hv

theorem Rereadable.reread_node (hg : g.Rereadable) (hn : g.node? id = some n) :
    n.reread id none = n.plainTitle := by
  obtain ⟨houtputs, hinputs⟩ := hg.plain.nodes id n hn
  have hsame : n.inputs.filterMap (fun _ v => v.reread) = n.inputs :=
    Dict.filterMap_eq_self fun input v hv => (reread_of_plain (hinputs input v hv)).1
  rw [← hg.plain.wellKeyed.id_eq hn]
  exact Node.reread_completed none hsame (hg.titles id n hn) houtputs

/-- **Such a workflow is read back from what is written of it.** -/
theorem Rereadable.reread_eq (hg : g.Rereadable) : g.reread none = g.plainTitles := by
  have hnodes : (g.nodes.map fun key n => n.reread key none) =
      g.nodes.map fun _ n => n.plainTitle :=
    Dict.ext (List.map_congr_left fun e he =>
      congrArg (Prod.mk e.1) (hg.reread_node (Dict.get?_eq_some_iff.2 he)))
  rw [reread, hnodes, hg.metadata]
  rfl

theorem Rereadable.isRereadable (hg : g.Rereadable) : g.isRereadable := by
  rw [Graph.isRereadable, List.all_eq_true]
  intro e he
  obtain ⟨-, hinputs⟩ := hg.plain.nodes e.1 e.2 (Dict.get?_eq_some_iff.2 he)
  rw [Node.isRereadable, List.all_eq_true]
  exact fun i hi => (reread_of_plain (hinputs i.1 i.2 (Dict.get?_eq_some_iff.2 hi))).2

theorem writtenMetadata_eq_iff :
    g.writtenMetadata = g.metadata ↔
      (g.wrapped = false → ∀ key ∈ g.metadata.keys, g.has key = false) := by
  rw [writtenMetadata]
  cases g.wrapped with
  | true => simp
  | false =>
    rw [if_neg (by simp), Dict.ext_iff, Dict.filter, List.filter_eq_self, Dict.keys, Entries.keys]
    simp

/-- **The pass keeps it so**: the nodes that are left stand under keys of nodes. -/
theorem Rereadable.resolveBypassed (hg : g.Rereadable) (limit : Int) :
    (g.resolveBypassed limit).graph.Rereadable := by
  have hrest := rest_resolveBypassed g limit
  have hwrapped : (g.resolveBypassed limit).graph.wrapped = g.wrapped :=
    (congrArg Graph.wrapped hrest :)
  have hmetadata : (g.resolveBypassed limit).graph.metadata = g.metadata :=
    (congrArg Graph.metadata hrest :)
  refine ⟨hg.plain.resolveBypassed limit, ?_, writtenMetadata_eq_iff.2 ?_⟩
  · intro id m hm
    obtain ⟨n, hn, -, rfl⟩ := node?_resolveBypassed_eq_some_iff.1 hm
    rw [resolveNode_eq_with_inputs]
    exact hg.titles id n hn
  · rw [hwrapped, hmetadata]
    intro hraw key hkey
    have hapart := writtenMetadata_eq_iff.1 hg.metadata hraw key hkey
    rw [← Bool.not_eq_true, has_resolveBypassed_iff, hapart]
    simp

/-! ## Workflows in text -/

/-- A text that holds an object is read as the object is. -/
theorem read_str {text : String} {document : Fields} (h : Json.read text = .ok (.obj document))
    (hg : Graph.read (.obj document) none = .ok g) : Graph.read (.str text) none = .ok g := by
  have hfields : documentFields (.str text) = .ok document := by rw [documentFields, h]
  rw [Graph.read, documentFields] at hg
  rw [Graph.read, hfields]
  cases hlayout : isLayout document with
  | true => simp [bind, Except.bind, hlayout, throw, throwThe, MonadExceptOf.throw] at hg
  | false => simpa [bind, Except.bind, hlayout] using hg

/-- No node of a workflow is bypassed if none is without the titles that say nothing. -/
theorem resolveBypassed_plainTitles (h : ∀ id, g.isBypassedAt id = false) (limit : Int) :
    g.plainTitles.resolveBypassed limit = ⟨g.plainTitles, [], []⟩ := by
  rw [resolveBypassed, if_pos]
  refine bypassedIds_isEmpty_iff.2 fun id => ?_
  have hid := h id
  rw [isBypassedAt] at hid ⊢
  rw [plainTitles, node?_mapNodes]
  cases hn : g.node? id with
  | none => rfl
  | some n =>
    rw [hn] at hid
    exact hid

/-- What the pass over text has to make of the text of a workflow. -/
structure ResolvesText (g : Graph) (limit : Int) (text resolved : String)
    (warnings : List String) : Prop where
  /-- The warnings are those of the pass over workflows. -/
  sameWarnings : warnings = (g.resolveBypassed limit).warnings
  /-- A text without bypassed nodes comes back as it is. -/
  unchanged : (g.resolveBypassed limit).changed = false → resolved = text
  /-- What comes back holds the resulting workflow; titles that say nothing are not written. -/
  reads : Graph.read (.str resolved) none = .ok
    (if (g.resolveBypassed limit).changed then (g.resolveBypassed limit).graph.plainTitles
      else (g.resolveBypassed limit).graph)
  /-- Under any limit, resolving once more leaves the text as it is, without a warning. -/
  again : ∀ limit', (resolveBypassedText resolved limit').result = .ok (resolved, [])

theorem result_resolveBypassedText {text : String} (h : Graph.read (.str text) none = .ok g)
    (limit : Int) :
    (resolveBypassedText text limit).result = .ok
      (if (g.resolveBypassed limit).changed then
        ((g.resolveBypassed limit).graph.text (some 2), (g.resolveBypassed limit).warnings)
      else (text, (g.resolveBypassed limit).warnings)) := by
  rw [resolveBypassedText, h]
  rfl

/-- A text that holds a workflow without bypassed nodes comes back as it is. -/
theorem result_resolveBypassedText_of_none {text : String}
    (h : Graph.read (.str text) none = .ok g) (hnone : ∀ id, g.isBypassedAt id = false)
    (limit : Int) : (resolveBypassedText text limit).result = .ok (text, []) := by
  rw [result_resolveBypassedText h, resolveBypassed, if_pos (bypassedIds_isEmpty_iff.2 hnone)]
  rfl

/-- **The pass over text agrees with the pass over workflows**, and doing it once more changes
nothing, if the text that is written where something was bypassed is decoded to what was encoded. -/
theorem resolvesText {text : String} (hread : Graph.read (.str text) none = .ok g) (limit : Int)
    (hcodec : (g.resolveBypassed limit).changed →
      Json.read ((g.resolveBypassed limit).graph.text (some 2)) =
        .ok (g.resolveBypassed limit).graph.toJson) :
    ∃ resolved warnings, (resolveBypassedText text limit).result = .ok (resolved, warnings) ∧
      g.ResolvesText limit text resolved warnings := by
  have hresult := result_resolveBypassedText hread limit
  cases hchanged : (g.resolveBypassed limit).changed with
  | true =>
    have hsettled := (rereadable_of_read hread).resolveBypassed limit
    have hreads : Graph.read (.str ((g.resolveBypassed limit).graph.text (some 2))) none =
        .ok (g.resolveBypassed limit).graph.plainTitles := by
      refine read_str (hcodec hchanged) ?_
      have hwritten := read_toJson_of_writable hsettled.plain.writable none
      rwa [hsettled.isRereadable, withinLimit_true, hsettled.reread_eq] at hwritten
    rw [hchanged, if_pos rfl] at hresult
    refine ⟨_, _, hresult, rfl, by simp [hchanged], by rw [hchanged, if_pos rfl, hreads], ?_⟩
    intro limit'
    rw [result_resolveBypassedText hreads,
      resolveBypassed_plainTitles isBypassedAt_resolveBypassed]
    rfl
  | false =>
    have hempty : g.bypassedIds.isEmpty := by
      simpa [Result.changed, removed_resolveBypassed] using hchanged
    have hsame : g.resolveBypassed limit = ⟨g, [], []⟩ := by
      rw [Graph.resolveBypassed, if_pos hempty]
    rw [hchanged, if_neg (by simp)] at hresult
    refine ⟨_, _, hresult, rfl, fun _ => rfl, by rw [hchanged, if_neg (by simp), hread, hsame], ?_⟩
    exact result_resolveBypassedText_of_none hread (bypassedIds_isEmpty_iff.1 hempty)

/-- A document whose second node is bypassed: it feeds an input whose name tells a type and one
whose name does not, and is the only member of one of the groups. -/
def bypassedDocument : Fields :=
  [("1", .obj [("class_type", .str "UNETLoader"), ("inputs", .obj [])]),
    ("2", .obj [("class_type", .str "LoraLoaderModelOnly"),
      ("inputs", .obj [("model", .arr [.str "1", .int 0])]), ("mode", .int 4)]),
    ("3", .obj [("class_type", .str "KSampler"),
      ("inputs", .obj [("model", .arr [.str "2", .int 0]), ("spare", .arr [.str "2", .int 0])]),
      ("_meta", .obj [("title", .str "KSampler")])]),
    ("groups", .arr [.obj [("title", .str "Models"), ("member_nodes", .arr [.str "1", .str "2"])],
      .obj [("title", .str "Modifiers"), ("member_nodes", .arr [.str "2"])]]),
    ("version", .str "0.4")]

/-- What is written once the node is gone. -/
def resolvedDocument : Fields :=
  [("1", .obj [("class_type", .str "UNETLoader"), ("inputs", .obj [])]),
    ("3", .obj [("class_type", .str "KSampler"),
      ("inputs", .obj [("model", .arr [.str "1", .int 0])])]),
    ("groups", .arr [.obj [("id", .int 1), ("title", .str "Models"),
      ("member_nodes", .arr [.str "1"])]]),
    ("version", .str "0.4")]

/-- What the document describes. -/
def bypassedGraph : Graph where
  nodes := .ofList [
    ("1", { id := "1", classType := "UNETLoader" }),
    ("2", { id := "2", classType := "LoraLoaderModelOnly"
            inputs := .ofList [("model", .connection "1" 0)], mode := 4 }),
    ("3", { id := "3", classType := "KSampler", title := some "KSampler"
            inputs := .ofList [("model", .connection "2" 0), ("spare", .connection "2" 0)] })]
  groups := [⟨.int 1, "Models", ["1", "2"]⟩, ⟨.int 2, "Modifiers", ["2"]⟩]
  wrapped := false
  metadata := .ofList [("version", .str "0.4")]

/-- The hypotheses of `resolvesText` are met: a node, an input and a group are gone, and the title
that says nothing is not written. -/
theorem bypassedDocument_resolvesText :
    Graph.read (.str (Json.write (.readable none) (.obj bypassedDocument))) none =
        .ok bypassedGraph ∧
      Json.read ((bypassedGraph.resolveBypassed 10).graph.text (some 2)) =
        .ok (bypassedGraph.resolveBypassed 10).graph.toJson ∧
      (∃ resolved warnings,
        (resolveBypassedText (Json.write (.readable none) (.obj bypassedDocument)) 10).result =
          .ok (resolved, warnings) ∧
        bypassedGraph.ResolvesText 10 (Json.write (.readable none) (.obj bypassedDocument)) resolved
          warnings) ∧
      (bypassedGraph.resolveBypassed 10).warnings.length = 1 := by
  have hint : ∀ n < 10, n < Numeral.unwritable := by decide +kernel
  have hlegible : Json.Legible (.obj bypassedDocument) := by
    simp [bypassedDocument, Json.Legible, Json.LegibleItems, Json.LegibleFields, Entries.keys, hint]
  have hresolved : Json.Legible (.obj resolvedDocument) := by
    simp [resolvedDocument, Json.Legible, Json.LegibleItems, Json.LegibleFields, Entries.keys, hint]
  have hread : Graph.read (.str (Json.write (.readable none) (.obj bypassedDocument))) none =
      .ok bypassedGraph :=
    read_str (Json.read_write (Json.Format.separates_readable none) rfl hlegible) (by rfl)
  have hcodec : Json.read ((bypassedGraph.resolveBypassed 10).graph.text (some 2)) =
      .ok (bypassedGraph.resolveBypassed 10).graph.toJson := by
    have hwritten : (bypassedGraph.resolveBypassed 10).graph.toJson = .obj resolvedDocument := by
      decide +kernel
    rw [text, hwritten]
    exact Json.read_write (Json.Format.separates_readable (some 2)) rfl hresolved
  exact ⟨hread, hcodec, resolvesText hread 10 fun _ => hcodec, by decide +kernel⟩

end NodeFlow.Graph
