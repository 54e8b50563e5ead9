import NodeFlow.Proofs.Validation.Soundness
/-!
# Which outputs the structure check looks at

In a workflow that is well wired every connection starts at a node that is
there, at one of its outputs where these are known, and no node depends on
itself. The check accepts every such workflow, and besides them those with
connections that it overlooks: an index below zero, and any index into the
outputs of a node that is known to have none. `structureErrors_eq_nil_iff_wiring`
says that it overlooks nothing else.
-/

namespace NodeFlow.Graph

variable {g : Graph} {schema : Schema} {id input : String} {l : Link} {m n : Node}
variable {ports : List Port}

/-! ## Outputs that are known -/

/-- The outputs that are known of a node: its own, or else those of its class type, where the
schema defines it. There may be none of them, or nothing may be known. -/
def knownOutputs? (n : Node) (schema : Schema) : Option (List Port) :=
  if n.outputs.isEmpty then (schema.get? n.classType).map NodeType.outputs else some n.outputs

/-- The check does not tell a node without outputs from one whose outputs are not known. -/
theorem knownOutputs_eq (n : Node) (schema : Schema) :
    knownOutputs n schema = (knownOutputs? n schema).getD [] := by
  rw [knownOutputs, knownOutputs?, Schema.outputs]
  split <;> rfl

/-! ## Links within range and links that are overlooked -/

/-- A link starts at one of the outputs of its node, where these are known. -/
def WithinOutputs (g : Graph) (schema : Schema) (l : Link) : Prop :=
  ∀ m ports, g.node? l.source = some m → knownOutputs? m schema = some ports →
    0 ≤ l.output ∧ l.output < ports.length

/-- The outputs of the node where a link starts are known, and the link starts below the first of
them, or there is none. -/
def Overlooked (g : Graph) (schema : Schema) (l : Link) : Prop :=
  ∃ m ports, g.node? l.source = some m ∧ knownOutputs? m schema = some ports ∧
    (l.output < 0 ∨ ports = [])

theorem withinOutputs_iff (hm : g.node? l.source = some m) :
    g.WithinOutputs schema l ↔ ∀ ports, knownOutputs? m schema = some ports →
      0 ≤ l.output ∧ l.output < ports.length := by
  constructor
  · intro h ports hports
    exact h m ports hm hports
  · intro h m' ports hm' hports
    obtain rfl : m = m' := Option.some.inj (hm.symm.trans hm')
    exact h ports hports

theorem overlooked_iff (hm : g.node? l.source = some m) :
    g.Overlooked schema l ↔ ∃ ports, knownOutputs? m schema = some ports ∧
      (l.output < 0 ∨ ports = []) := by
  constructor
  · rintro ⟨m', ports, hm', hports, hcase⟩
    obtain rfl : m = m' := Option.some.inj (hm.symm.trans hm')
    exact ⟨ports, hports, hcase⟩
  · rintro ⟨ports, hports, hcase⟩
    exact ⟨m, ports, hm, hports, hcase⟩

/-- A link that is overlooked does not start at an output. -/
theorem Overlooked.not_withinOutputs (h : g.Overlooked schema l) : ¬ g.WithinOutputs schema l := by
  obtain ⟨m, ports, hm, hports, hcase⟩ := h
  intro hwithin
  obtain ⟨hlow, hhigh⟩ := hwithin m ports hm hports
  rcases hcase with hneg | rfl
  · omega
  · rw [List.length_nil] at hhigh
    omega

/-- **The check lets a link through** where it starts at an output that exists, as far as outputs
are known, or is overlooked. -/
theorem admits_iff :
    g.Admits schema l ↔ g.has l.source ∧ (g.WithinOutputs schema l ∨ g.Overlooked schema l) := by
  rw [Admits, has_iff]
  cases hm : g.node? l.source with
  | none => simp
  | some m =>
    rw [withinOutputs_iff hm, overlooked_iff hm]
    cases hports : knownOutputs? m schema with
    | none => simp [knownOutputs_eq, hports]
    | some ports =>
      -- only where there are outputs is the index looked at, and then from above
      have hindex : (0 < ports.length → l.output < ports.length) ↔
          (0 ≤ l.output ∧ l.output < ports.length) ∨ l.output < 0 ∨ ports = [] := by
        rw [← List.length_eq_zero_iff]
        omega
      simpa [knownOutputs_eq, hports] using hindex

/-! ## Workflows -/

/-- A workflow that is wired as it should be. -/
structure WellWired (g : Graph) (schema : Schema) : Prop where
  /-- Every connection starts at a node that is there. -/
  closed : g.Closed
  /-- No node depends on itself, not even through others. -/
  acyclic : g.Acyclic
  /-- Every connection starts at one of the outputs of its node, where these are known. -/
  outputs : ∀ id input l, g.linkAt? id input = some l → g.WithinOutputs schema l

/-- What the check asks of a workflow that has nodes, put in terms of its connections. -/
theorem structureErrors_eq_nil_iff_links (hne : ∃ id, g.has id) :
    g.structureErrors schema = [] ↔ g.Closed ∧ g.Acyclic ∧
      ∀ id input l, g.linkAt? id input = some l →
        g.WithinOutputs schema l ∨ g.Overlooked schema l := by
  rw [structureErrors_eq_nil_iff]
  constructor
  · intro hg
    exact ⟨hg.closed, hg.acyclic, fun id input l hl => (admits_iff.1 (hg.admits id input l hl)).2⟩
  · rintro ⟨hclosed, hacyclic, hlinks⟩
    exact ⟨hne, fun id input l hl => admits_iff.2 ⟨hclosed id input l hl, hlinks id input l hl⟩,
      hacyclic.ranked⟩

/-- **What the check accepts, and what it overlooks.** A workflow with nodes is accepted exactly
where it is closed and acyclic and each connection starts at an output, as far as outputs are known,
or is overlooked. So it is well wired exactly where it is accepted and nothing is overlooked. -/
theorem structureErrors_eq_nil_iff_wiring (hne : ∃ id, g.has id) :
    (g.structureErrors schema = [] ↔ g.Closed ∧ g.Acyclic ∧
      ∀ id input l, g.linkAt? id input = some l →
        g.WithinOutputs schema l ∨ g.Overlooked schema l) ∧
    (g.WellWired schema ↔ g.structureErrors schema = [] ∧
      ∀ id input l, g.linkAt? id input = some l → ¬ g.Overlooked schema l) := by
  have haccepts : g.structureErrors schema = [] ↔ _ := structureErrors_eq_nil_iff_links hne
  refine ⟨haccepts, ?_, ?_⟩
  · intro hg
    refine ⟨haccepts.2 ⟨hg.closed, hg.acyclic, ?_⟩, ?_⟩
    · intro id input l hl
      exact Or.inl (hg.outputs id input l hl)
    · intro id input l hl hover
      exact hover.not_withinOutputs (hg.outputs id input l hl)
  · rintro ⟨herrors, hnone⟩
    obtain ⟨hclosed, hacyclic, hlinks⟩ := haccepts.1 herrors
    refine ⟨hclosed, hacyclic, fun id input l hl => ?_⟩
    exact (hlinks id input l hl).resolve_right (hnone id input l hl)

/-- A loader, and a node that is fed with one of its outputs. -/
def fedByLoader (output : Int) : Graph where
  nodes := .ofList [
    ("1", { id := "1", classType := "UNETLoader" }),
    ("2", { id := "2", classType := "KSampler"
            inputs := .ofList [("model", .connection "1" output)] })]

/-- A schema that knows the outputs of loaders. -/
def loadersGiving (ports : List Port) : Schema where
  types := .ofList [("UNETLoader", { classType := "UNETLoader", outputs := ports })]

theorem wellKeyed_fedByLoader (output : Int) : (fedByLoader output).WellKeyed := by
  have hids : ((fedByLoader output).nodes.entries.all fun e => e.2.id = e.1) = true := rfl
  intro e he
  exact of_decide_eq_true (List.all_eq_true.1 hids e he)

theorem linkAt?_fedByLoader {output : Int} (hl : (fedByLoader output).linkAt? id input = some l) :
    l = ⟨"1", output⟩ := by
  have hmem : ⟨l.source, l.output, id, input⟩ ∈ (fedByLoader output).edges :=
    (mem_edges_iff (wellKeyed_fedByLoader output)).2 hl
  have hedges : (fedByLoader output).edges = [⟨"1", output, "2", "model"⟩] := rfl
  rw [hedges, List.mem_singleton] at hmem
  obtain ⟨hsource, houtput, -⟩ := Edge.mk.inj hmem
  rw [← hsource, ← houtput]

/-- The hypothesis of `structureErrors_eq_nil_iff_wiring` is met: fed with the only output, the
workflow is accepted and nothing is overlooked, so it is well wired. -/
theorem fedByLoader_wellWired :
    (∃ id, (fedByLoader 0).has id) ∧
      (fedByLoader 0).WellWired (loadersGiving [⟨"MODEL", "MODEL"⟩]) := by
  have hne : ∃ id, (fedByLoader 0).has id := ⟨"1", by decide +kernel⟩
  refine ⟨hne, (structureErrors_eq_nil_iff_wiring hne).2.2 ⟨by decide +kernel, ?_⟩⟩
  intro id input l hl
  have hm : (fedByLoader 0).node? "1" = some { id := "1", classType := "UNETLoader" } := rfl
  have hports : knownOutputs? { id := "1", classType := "UNETLoader" }
      (loadersGiving [⟨"MODEL", "MODEL"⟩]) = some [⟨"MODEL", "MODEL"⟩] := rfl
  rw [linkAt?_fedByLoader hl, overlooked_iff hm, hports]
  simp

/-- **An output that is not there may be accepted**: one below the first, and any of a node that is
known to have none. -/
theorem not_wellWired_fedByLoader :
    (fedByLoader (-1)).WellKeyed ∧ (∃ id, (fedByLoader (-1)).has id) ∧
      (fedByLoader (-1)).structureErrors (loadersGiving [⟨"MODEL", "MODEL"⟩]) = [] ∧
      ¬ (fedByLoader (-1)).WellWired (loadersGiving [⟨"MODEL", "MODEL"⟩]) ∧
      (fedByLoader 0).WellKeyed ∧ (∃ id, (fedByLoader 0).has id) ∧
      (fedByLoader 0).structureErrors (loadersGiving []) = [] ∧
      ¬ (fedByLoader 0).WellWired (loadersGiving []) := by
  have hl (output : Int) : (fedByLoader output).linkAt? "2" "model" = some ⟨"1", output⟩ := rfl
  refine ⟨wellKeyed_fedByLoader _, ⟨"1", by decide +kernel⟩, by decide +kernel, ?_,
    wellKeyed_fedByLoader _, ⟨"1", by decide +kernel⟩, by decide +kernel, ?_⟩
  · intro hg
    obtain ⟨hlow, -⟩ := hg.outputs "2" "model" _ (hl (-1)) _ _ rfl rfl
    exact absurd hlow (by decide)
  · intro hg
    obtain ⟨-, hhigh⟩ := hg.outputs "2" "model" _ (hl 0) _ _ rfl rfl
    exact absurd hhigh (by decide)

end NodeFlow.Graph
