import NodeFlow.Compiler
import NodeFlow.Proofs.Limit
/-!
# Compiling as a sequence of passes

The results of a compilation without the events: the template is filled in,
the seed and the overrides are written, the chains are put in one after the
other, the bypassed nodes are resolved, and the verdict is on what comes out.
What is compiled has a fingerprint, so all of its integers can be written.
-/

namespace NodeFlow

/-! ## Compiled workflows -/

namespace Compiled

variable {c : Compiled} {g : Graph} {warnings errors : List String}

/-- A compiled workflow is made of a graph that has a fingerprint, and of what it comes with. -/
theorem ofGraph_eq_ok_iff : ofGraph g warnings errors = .ok c ↔
    c.document = g.toFields ∧ c.graph = some g ∧ c.warnings = warnings ∧ c.errors = errors := by
  rw [ofGraph, ofDocument]
  constructor
  · intro h
    split at h
    · obtain rfl := Except.ok.inj h
      exact ⟨rfl, rfl, rfl, rfl⟩
    · cases h
  · obtain ⟨document, graph, ws, es, hash, heq⟩ := c
    rintro ⟨rfl, rfl, rfl, rfl⟩
    split
    · rename_i hash' heq'
      obtain rfl : hash' = hash := Except.ok.inj (heq'.symm.trans heq)
      rfl
    · rename_i heq'
      cases heq'.symm.trans heq

/-- A result is that of a graph if it has its parts. -/
theorem exists_ofGraph_of_parts (result : Except Fault Compiled) (g : Graph)
    (warnings errors : List String)
    (h : (result.toOption.map fun c => (c.document, c.graph, c.warnings, c.errors)) =
      some (g.toFields, some g, warnings, errors)) :
    ∃ c, result = .ok c ∧ ofGraph g warnings errors = .ok c := by
  obtain ⟨c, hc, hparts⟩ := Option.map_eq_some_iff.1 h
  simp only [Prod.mk.injEq] at hparts
  exact ⟨c, eq_ok_of_toOption hc, ofGraph_eq_ok_iff.2 hparts⟩

theorem hashOf_eq (document : Fields) :
    hashOf document = withinLimit (Json.obj document).isWritable
      (if document.isEmpty then "" else
        String.ofList ((Digest.sha256Hex (Json.write .canonical (.obj document))).toList.take
          16)) := by
  rw [hashOf]
  cases document with
  | nil => rfl
  | cons e rest =>
    rw [List.isEmpty_cons, if_neg Bool.false_ne_true, if_neg Bool.false_ne_true, fingerprint,
      canonicalText, map_withinLimit]

/-- **A graph is compiled** where the integers in its document can be written; that is the only
failure. -/
theorem ofGraph_cases (g : Graph) (warnings errors : List String) :
    (∃ c, ofGraph g warnings errors = .ok c ∧ g.toJson.isWritable = true) ∨
      ofGraph g warnings errors = .error (.badValue .unwritableInteger) ∧
        g.toJson.isWritable = false := by
  have hhash := hashOf_eq g.toFields
  rw [ofGraph, ofDocument, Graph.toJson]
  cases hw : (Json.obj g.toFields).isWritable with
  | true =>
    rw [hw, withinLimit_true] at hhash
    split
    · exact .inl ⟨_, rfl, rfl⟩
    · rename_i herror
      cases herror.symm.trans hhash
  | false =>
    rw [hw] at hhash
    split
    · rename_i hok
      cases hok.symm.trans hhash
    · rename_i herror
      exact .inr ⟨congrArg Except.error (Except.error.inj (herror.symm.trans hhash)), rfl⟩

/-- The integers in the document of a compiled workflow can be written. -/
theorem isWritable_document (c : Compiled) : (Json.obj c.document).isWritable := by
  have h := c.hash_eq
  rw [hashOf_eq] at h
  exact (withinLimit_eq_ok_iff.1 h).1

end Compiled

/-- The errors of a workflow are worded where the integers in them can be written. -/
theorem Graph.structureTexts_eq (g : Graph) (schema : Schema) :
    g.structureTexts schema =
      withinLimit ((g.structureErrors schema).all StructureError.isWritable)
        ((g.structureErrors schema).map StructureError.message) :=
  mapM_withinLimit StructureError.isWritable StructureError.message _

namespace Submission

open Log

variable (s : Submission) (g : Graph) (strict : Bool)

/-! ## The passes -/

theorem result_filled :
    (s.filled g).result = (g.fill s.request.values).map s.adjusted := by
  rw [filled, Traced.result_bind, Traced.result_onSuccess]
  cases g.fill s.request.values <;> rfl

/-- The values, the seed, the overrides and the chains of a request, put into a workflow one after
the other. -/
theorem result_assemble :
    (s.assemble g).result =
      (s.filled g).result >>= fun filled =>
        ((filled.inject s.cfg s.request.chain).map fun r => r.getD filled) >>= fun injected =>
          ((injected.extend s.cfg s.request.highChain .high s.classifier).map
            fun r => r.getD injected) >>= fun high =>
          (high.extend s.cfg s.request.lowChain .low s.classifier).map fun r => r.getD high := by
  simp only [assemble, inject, extend, Traced.result_bind, Traced.result_onSuccess]

theorem result_run :
    (s.run g).result =
      (s.assemble g).result.map fun k => k.resolveBypassed s.cfg.bypassMaxDepth := by
  simp only [run, Traced.result_bind, Traced.result_tell, Traced.result_pure]
  cases (s.assemble g).result <;> rfl

theorem result_run_of_assemble {k : Graph} (h : (s.assemble g).result = .ok k) :
    (s.run g).result = .ok (k.resolveBypassed s.cfg.bypassMaxDepth) := by
  rw [result_run, h]
  rfl

/-- What is made of the graph that the passes lead to. -/
def concluded (r : Bypass.Result) : Except Fault Compiled :=
  r.graph.structureTexts s.schema >>= fun errors =>
    (requireSound (if strict then errors else []) strictHeading).result >>= fun _ =>
      Compiled.ofGraph r.graph (g.fillWarnings s.request.values ++ r.warnings) errors

theorem result_compile :
    (s.compile g strict).result = (s.run g).result >>= s.concluded g strict := by
  simp only [compile, Traced.result_bind, Traced.result_timing, Traced.result_tell,
    Traced.result_pure, Traced.result_ofExcept]
  refine bind_congr fun r => bind_congr fun errors => bind_congr fun _ => ?_
  cases Compiled.ofGraph r.graph (g.fillWarnings s.request.values ++ r.warnings) errors <;> rfl

theorem result_requireSound_nil (heading : String) :
    (requireSound [] heading).result = .ok () := rfl

/-- A compiled workflow is what the passes lead to, with the warnings on the way and the errors that
are left. -/
structure Concludes (c : Compiled) (r : Bypass.Result) : Prop where
  document : c.document = r.graph.toFields
  graph : c.graph = some r.graph
  warnings : c.warnings = g.fillWarnings s.request.values ++ r.warnings
  errors : c.errors = (r.graph.structureErrors s.schema).map StructureError.message

theorem concludes_of_concluded {c : Compiled} {r : Bypass.Result}
    (h : s.concluded g strict r = .ok c) : s.Concludes g c r := by
  obtain ⟨errors, hrun, h⟩ := exists_of_bind_eq_ok h
  obtain ⟨-, -, h⟩ := exists_of_bind_eq_ok h
  rw [Graph.structureTexts_eq] at hrun
  obtain ⟨-, rfl⟩ := withinLimit_eq_ok_iff.1 hrun
  obtain ⟨hdocument, hgraph, hwarnings, herrors⟩ := Compiled.ofGraph_eq_ok_iff.1 h
  exact ⟨hdocument, hgraph, hwarnings, herrors⟩

/-- A compilation has a result only where its passes have one. -/
theorem exists_run_of_compile {c : Compiled} (h : (s.compile g strict).result = .ok c) :
    ∃ k, (s.assemble g).result = .ok k ∧
      s.Concludes g c (k.resolveBypassed s.cfg.bypassMaxDepth) := by
  rw [result_compile, result_run] at h
  obtain ⟨r, hr, h⟩ := exists_of_bind_eq_ok h
  obtain ⟨k, hk, rfl⟩ := exists_of_map_eq_ok hr
  exact ⟨k, hk, concludes_of_concluded s g strict h⟩

end Submission

end NodeFlow
