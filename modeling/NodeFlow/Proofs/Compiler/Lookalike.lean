import NodeFlow.Proofs.Compiler.Frame
import NodeFlow.Proofs.Compiler.Passes
import NodeFlow.Proofs.Modifier.Injection
/-!
# Workflows that compile alike

Which workflows can the passes not tell apart? Take a relation between
workflows that have one frame, and suppose that writing a node, wiring an
input and resolving bypassed nodes respect it (`Lookalike`). Then every pass
respects it: two compilations that start from related workflows fail for the
same reason, or lead to related workflows, the same warnings about what was
bypassed and the same verdict. Two relations of this kind are studied
elsewhere: workflows that differ in the values of literals, and workflows
that differ in the form of their documents.
-/

namespace NodeFlow

/-- The same failure, or results in a relation. -/
inductive Agree {α β : Type} (R : α → β → Prop) : Except Fault α → Except Fault β → Prop where
  | ok {a : α} {b : β} (h : R a b) : Agree R (.ok a) (.ok b)
  | error (e : Fault) : Agree R (.error e) (.error e)

namespace Agree

variable {α β γ δ : Type} {R : α → β → Prop} {S : γ → δ → Prop}
variable {x : Except Fault α} {y : Except Fault β}

/-- What comes next brings about any relation that failing alike is a case of. -/
theorem elim_bind {Q : Except Fault γ → Except Fault δ → Prop} {f : α → Except Fault γ}
    {f' : β → Except Fault δ} (h : Agree R x y) (herror : ∀ e, Q (.error e) (.error e))
    (hf : ∀ a b, R a b → Q (f a) (f' b)) : Q (x >>= f) (y >>= f') := by
  cases h with
  | ok h => exact hf _ _ h
  | error e => exact herror e

theorem bind {f : α → Except Fault γ} {f' : β → Except Fault δ} (h : Agree R x y)
    (hf : ∀ a b, R a b → Agree S (f a) (f' b)) : Agree S (x >>= f) (y >>= f') :=
  h.elim_bind .error hf

theorem map {f : α → γ} {f' : β → δ} (h : Agree R x y) (hf : ∀ a b, R a b → S (f a) (f' b)) :
    Agree S (x.map f) (y.map f') := by
  cases h with
  | ok h => exact .ok (hf _ _ h)
  | error e => exact .error e

theorem refl (x : Except Fault α) : Agree Eq x x := by
  cases x with
  | ok a => exact .ok rfl
  | error e => exact .error e

/-- A step that both have in common. -/
theorem bind_same {f : α → Except Fault γ} {f' : α → Except Fault δ} (x : Except Fault α)
    (hf : ∀ a, Agree S (f a) (f' a)) : Agree S (x >>= f) (x >>= f') :=
  (refl x).bind fun a _ hab => hab ▸ hf a

theorem of_ok {a : α} {b : β} (h : Agree R (.ok a) (.ok b)) : R a b := by
  cases h with
  | ok h => exact h

/-- Where one has a result, so has the other. -/
theorem exists_left {b : β} (h : Agree R x (.ok b)) : ∃ a, x = .ok a ∧ R a b := by
  cases h with
  | ok h => exact ⟨_, rfl, h⟩

/-- Where the results are known, they may be used. -/
theorem with_eq (h : Agree R x y) : Agree (fun a b => R a b ∧ x = .ok a ∧ y = .ok b) x y := by
  cases h with
  | ok h => exact .ok ⟨h, rfl, rfl⟩
  | error e => exact .error e

end Agree

/-- A relation between workflows that the steps of the passes respect. -/
structure Lookalike (R : Graph → Graph → Prop) : Prop where
  frame : ∀ {g h}, R g h → g.frame = h.frame
  put : ∀ {g h}, R g h → ∀ n, R (g.put n) (h.put n)
  setInput : ∀ {g h}, R g h → ∀ id input v, R (g.setInput id input v) (h.setInput id input v)
  resolveBypassed : ∀ {g h}, R g h → ∀ limit,
    R (g.resolveBypassed limit).graph (h.resolveBypassed limit).graph

/-- Workflows in a relation, come by with the same warnings and the same nodes removed. -/
structure Bypass.Result.Alike (R : Graph → Graph → Prop) (r r' : Bypass.Result) : Prop where
  graph : R r.graph r'.graph
  warnings : r.warnings = r'.warnings
  removed : r.removed = r'.removed

namespace Lookalike

open NodeFlow.Graph

variable {R : Graph → Graph → Prop} {g h : Graph} {cfg : CompilerSettings} {chain : Chain}

/-! ## Putting chains in -/

theorem appendChain (hR : Lookalike R) (hgh : R g h) (source : String) (number : Int) :
    Agree (fun a b => R a.1 b.1 ∧ a.2 = b.2) (g.appendChain cfg chain source number)
      (h.appendChain cfg chain source number) := by
  induction chain generalizing g h source number with
  | nil => exact .ok ⟨hgh, rfl⟩
  | cons s chain ih => exact .bind_same _ fun id => ih (hR.put hgh _) _ _

theorem splice (hR : Lookalike R) (hgh : R g h) (source : String)
    (targets : List (String × String)) :
    Agree R (g.splice cfg chain source targets) (h.splice cfg chain source targets) := by
  rw [Graph.splice, Graph.splice, ← nextId_frame g, hR.frame hgh, nextId_frame h]
  refine .bind_same _ fun first => (hR.appendChain hgh source first).bind ?_
  rintro ⟨longer, last⟩ ⟨longer', last'⟩ ⟨hlonger, hlast⟩
  dsimp only at hlonger hlast ⊢
  obtain rfl := hlast
  refine .ok ?_
  -- on the inputs that are wired to the end of the chain
  induction targets generalizing longer longer' with
  | nil => exact hlonger
  | cons t targets ih => exact ih _ _ (hR.setInput hlonger _ _ _)

theorem spliceAt (hR : Lookalike R) (hgh : R g h) (site : Option Site) :
    Agree R ((g.spliceAt cfg chain site).map fun r => r.getD g)
      ((h.spliceAt cfg chain site).map fun r => r.getD h) := by
  cases site with
  | none => exact .ok hgh
  | some site =>
    rw [Graph.spliceAt, Graph.spliceAt, map_getD_map_some, map_getD_map_some]
    exact hR.splice hgh site.1 site.2

theorem inject (hR : Lookalike R) (hgh : R g h) :
    Agree R ((g.inject cfg chain).map fun r => r.getD g)
      ((h.inject cfg chain).map fun r => r.getD h) := by
  have hsite : g.injectionSite? cfg chain = h.injectionSite? cfg chain := by
    rw [← injectionSite?_frame cfg g, hR.frame hgh, injectionSite?_frame]
  rw [inject_eq_spliceAt, inject_eq_spliceAt, hsite]
  exact hR.spliceAt hgh _

/-- A chain is extended alike where the classifier does not tell the workflows apart. -/
theorem extend (hR : Lookalike R) (hgh : R g h) {path : NoisePath} {c : Classifier}
    (hc : chain ≠ [] → c.classify g = c.classify h) :
    Agree R ((g.extend cfg chain path c).map fun r => r.getD g)
      ((h.extend cfg chain path c).map fun r => r.getD h) := by
  have hsite : g.extendingSite? cfg chain path c = h.extendingSite? cfg chain path c := by
    by_cases hempty : chain = []
    · subst hempty
      rfl
    · rw [← extendingSite?_frame cfg g, hR.frame hgh, hc hempty, extendingSite?_frame]
  rw [extend_eq_spliceAt, extend_eq_spliceAt, hsite]
  exact hR.spliceAt hgh _

end Lookalike

/-! ## Whole compilations -/

/-- Submissions that differ in what they fill a template with, and in nothing else. -/
structure Submission.SameChains (s s' : Submission) : Prop where
  cfg : s.cfg = s'.cfg
  schema : s.schema = s'.schema
  classifier : s.classifier = s'.classifier
  chain : s.request.chain = s'.request.chain
  high : s.request.highChain = s'.request.highChain
  low : s.request.lowChain = s'.request.lowChain

/-- Where a chain is to be extended, the classifier does not tell related workflows apart. -/
def Submission.Classifies (s : Submission) (R : Graph → Graph → Prop) : Prop :=
  s.request.highChain ≠ [] ∨ s.request.lowChain ≠ [] →
    ∀ g h, R g h → s.classifier.classify g = s.classifier.classify h

namespace Lookalike

variable {R : Graph → Graph → Prop} {g h : Graph} {s s' : Submission}

theorem assemble (hR : Lookalike R) (hs : s.SameChains s') (hc : s.Classifies R)
    (hfilled : Agree R (s.filled g).result (s'.filled h).result) :
    Agree R (s.assemble g).result (s'.assemble h).result := by
  rw [Submission.result_assemble, Submission.result_assemble, ← hs.cfg, ← hs.chain, ← hs.high,
    ← hs.low, ← hs.classifier]
  refine hfilled.bind fun filled filled' hfilled => ?_
  refine (hR.inject hfilled).bind fun injected injected' hinjected => ?_
  refine (hR.extend hinjected fun hne => hc (Or.inl hne) _ _ hinjected).bind
    fun high high' hhigh => ?_
  exact hR.extend hhigh fun hne => hc (Or.inr hne) _ _ hhigh

/-- **The passes do not tell related workflows apart.** -/
theorem run (hR : Lookalike R) (hs : s.SameChains s') (hc : s.Classifies R)
    (hfilled : Agree R (s.filled g).result (s'.filled h).result) :
    Agree (Bypass.Result.Alike R) (s.run g).result (s'.run h).result := by
  rw [Submission.result_run, Submission.result_run, ← hs.cfg]
  refine (hR.assemble hs hc hfilled).map fun k k' hk => ⟨hR.resolveBypassed hk _, ?_, ?_⟩
  · rw [← Graph.warnings_frame, hR.frame hk, Graph.warnings_frame]
  · rw [← Graph.removed_frame, hR.frame hk, Graph.removed_frame]

/-! ## Verdicts -/

/-- **The verdict does not tell related workflows apart.** -/
theorem structureErrors (hR : Lookalike R) {k k' : Graph} (hk : R k k') (schema : Schema) :
    k.structureErrors schema = k'.structureErrors schema := by
  rw [← Graph.structureErrors_frame, hR.frame hk, Graph.structureErrors_frame]

/-- Nor does its wording, where an index may have too many digits. -/
theorem structureTexts (hR : Lookalike R) {k k' : Graph} (hk : R k k') (schema : Schema) :
    k.structureTexts schema = k'.structureTexts schema := by
  rw [Graph.structureTexts, hR.structureErrors hk, Graph.structureTexts]

theorem errors (hR : Lookalike R) (hs : s.SameChains s') {r r' : Bypass.Result} {c c' : Compiled}
    (hr : r.Alike R r') (hc : s.Concludes g c r) (hc' : s'.Concludes h c' r') :
    c.errors = c'.errors := by
  rw [hc.errors, hc'.errors, hR.structureErrors hr.graph, hs.schema]

/-- **Related templates compile alike** as far as what the passes lead to does: either both fail
before that, for the same reason, or the outcomes are those of making compiled workflows of it. -/
theorem compile (hR : Lookalike R) (hs : s.SameChains s') (hc : s.Classifies R)
    (hfilled : Agree R (s.filled g).result (s'.filled h).result) (strict : Bool)
    {Q : Except Fault Compiled → Except Fault Compiled → Prop}
    (herror : ∀ e, Q (.error e) (.error e))
    (hok : ∀ r r' errors, (s.run g).result = .ok r → (s'.run h).result = .ok r' → r.Alike R r' →
      Q (Compiled.ofGraph r.graph (g.fillWarnings s.request.values ++ r.warnings) errors)
        (Compiled.ofGraph r'.graph (h.fillWarnings s'.request.values ++ r'.warnings) errors)) :
    Q (s.compile g strict).result (s'.compile h strict).result := by
  rw [Submission.result_compile, Submission.result_compile]
  refine (hR.run hs hc hfilled).with_eq.elim_bind herror fun r r' ⟨hr, hx, hy⟩ => ?_
  rw [Submission.concluded, Submission.concluded, ← hs.schema, hR.structureTexts hr.graph]
  refine (Agree.refl _).elim_bind herror fun errors errors' hsame => ?_
  obtain rfl := hsame
  exact (Agree.refl _).elim_bind herror fun _ _ _ => hok r r' errors hx hy hr

end Lookalike

end NodeFlow
