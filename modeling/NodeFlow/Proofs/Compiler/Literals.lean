import NodeFlow.Proofs.Compiler.Each
import NodeFlow.Proofs.Document.RoundTrip
/-!
# What literals hold

A workflow that was read without a schema is plain: it can be written, its
nodes have neither outputs of their own nor open slots, and no literal has
the shape of a connection. Each pass leaves it plain, but for the values that
a request supplies: they come in as literals whatever their shape.
-/

namespace NodeFlow

variable {allowed : Json → Prop}

/-! ## Plain workflows -/

/-- An input that is no open slot, and holds an allowed value if it is a literal. -/
def InputValue.Plain (allowed : Json → Prop) : InputValue → Prop
  | .literal v => allowed v
  | .connection _ _ => True
  | .slot _ => False

/-- A node without outputs of its own, with plain inputs. -/
def Node.Plain (allowed : Json → Prop) (n : Node) : Prop :=
  n.outputs = [] ∧ n.Holds (InputValue.Plain allowed)

/-- A node without outputs of its own, under its id, which has no meaning of its own where nodes
stand among other entries. -/
def Node.StandsPlain (wrapped : Bool) (key : String) (n : Node) : Prop :=
  n.id = key ∧ n.outputs = [] ∧ (wrapped = false → key ∉ reservedKeys)

namespace Graph

variable {g h : Graph} {cfg : CompilerSettings} {chain : Chain} {limit : Int}

/-- A workflow as one that was read without a schema, with allowed values as literals. -/
structure Plain (allowed : Json → Prop) (g : Graph) : Prop where
  wellKeyed : g.WellKeyed
  writable : g.Writable
  nodes : ∀ id n, g.node? id = some n → n.Plain allowed

theorem Plain.each (hg : g.Plain allowed) :
    g.Each (Node.StandsPlain g.wrapped) (InputValue.Plain allowed) := by
  intro id n hn
  obtain ⟨houtputs, hinputs⟩ := hg.nodes id n hn
  have hid : n.id = id := hg.wellKeyed.id_eq hn
  refine ⟨⟨hid, houtputs, fun hraw => ?_⟩, hinputs⟩
  exact hg.writable.nodes hraw id (has_iff_mem_keys.1 (has_iff.2 ⟨n, hn⟩))

/-- **What a pass must do to leave a workflow plain**: keep the other entries, and see to the
nodes. -/
theorem Plain.of_each (hg : g.Plain allowed) (hmetadata : h.metadata = g.metadata)
    (hwrapped : h.wrapped = g.wrapped)
    (heach : h.Each (Node.StandsPlain g.wrapped) (InputValue.Plain allowed)) :
    h.Plain allowed := by
  refine ⟨wellKeyed_iff.2 fun id n hn => (heach id n hn).1.1, ⟨?_, ?_, ?_⟩, fun id n hn => ?_⟩
  · rw [hmetadata]
    exact hg.writable.metadata
  · intro hraw id hid
    obtain ⟨n, hn⟩ := Dict.mem_keys_iff.1 hid
    exact (heach id n hn).1.2.2 (hwrapped ▸ hraw)
  · intro hraw
    rw [hmetadata]
    exact hg.writable.plain (hwrapped ▸ hraw)
  · obtain ⟨⟨-, houtputs, -⟩, hinputs⟩ := heach id n hn
    exact ⟨houtputs, hinputs⟩

/-- A workflow that was read without a schema is plain. -/
theorem plain_of_read {document : Json} (h : Graph.read document none = .ok g)
    (hallowed : ∀ v, InputValue.ofJson v = .ok (.literal v) → allowed v) : g.Plain allowed := by
  obtain ⟨entries, hentries⟩ := exists_ofEntries_of_read h
  obtain ⟨hw, -, hnodes⟩ := ofEntries_eq_ok hentries
  refine ⟨wellKeyed_iff.2 ?_, hw, ?_⟩
  · intro id n hn
    obtain ⟨fields, rfl⟩ := hnodes id n hn
    exact Node.id_asRead id fields none
  · intro id n hn
    obtain ⟨fields, rfl⟩ := hnodes id n hn
    refine ⟨rfl, ?_⟩
    intro input v hv
    -- without a schema no slot is added, so the input was read from the document
    have hgiven : ((givenInputs fields).map fun _ v => InputValue.asRead v).get? input = some v :=
      hv
    rw [Dict.get?_map, Option.map_eq_some_iff] at hgiven
    obtain ⟨w, -, rfl⟩ := hgiven
    rcases InputValue.asRead_cases w with ⟨source, output, hw⟩ | hw
    · rw [hw]
      trivial
    · rw [hw]
      exact hallowed w (InputValue.ofJson_eq_literal_iff.2 hw)

/-! ## Passes -/

theorem Plain.resolveBypassed (hg : g.Plain allowed) (limit : Int) :
    (g.resolveBypassed limit).graph.Plain allowed :=
  have hrest := rest_resolveBypassed g limit
  hg.of_each (congrArg Graph.metadata hrest :) (congrArg Graph.wrapped hrest :)
    (hg.each.resolveBypassed limit)

end Graph

/-! ## Whole compilations -/

/-- A request supplies a value, for a placeholder or for a literal of a node. -/
def Request.Supplies (r : Request) (v : Json) : Prop :=
  (∃ key, (key, v) ∈ r.values) ∨ ∃ o ∈ r.overrides, ∃ key, (key, v) ∈ o.2

/-- A value that is read back as a literal, or was supplied. -/
def Request.Writes (r : Request) (v : Json) : Prop :=
  InputValue.ofJson v = .ok (.literal v) ∨ r.Supplies v

namespace Submission

variable {s : Submission} {g k : Graph}

theorem allowsOwn_writes (r : Request) : AllowsOwn (InputValue.Plain r.Writes) where
  text _ := Or.inl rfl
  float _ := Or.inl rfl
  first _ := trivial

/-- **The passes write no other value than the request supplies** that would not be read back as a
literal. The numbers that modifiers stand under have no meaning of their own. -/
theorem plain_assemble (hg : g.Plain s.request.Writes) (hrun : (s.assemble g).result = .ok k) :
    k.Plain s.request.Writes := by
  have hrest := rest_assemble hrun
  have heach := each_assemble hg.each (allowsOwn_writes s.request)
    (fun i _ _ => ⟨rfl, rfl, fun _ => display_int_not_reserved i⟩)
    (fun key _ hv => Or.inr (Or.inl ⟨key, hv⟩)) (fun _ _ => Or.inl rfl)
    (fun o ho e he => Or.inr (Or.inr ⟨o, ho, e.1, he⟩)) hrun
  exact hg.of_each (by rw [hrest]) (by rw [hrest]) heach

/-- So what a document is compiled to holds such values alone. -/
theorem plain_run {document : Json} {r : Bypass.Result} (hg : Graph.read document none = .ok g)
    (hrun : (s.run g).result = .ok r) : r.graph.Plain s.request.Writes := by
  rw [result_run] at hrun
  obtain ⟨k, hk, rfl⟩ := exists_of_map_eq_ok hrun
  exact (plain_assemble (Graph.plain_of_read hg fun _ => Or.inl) hk).resolveBypassed _

end Submission

end NodeFlow
