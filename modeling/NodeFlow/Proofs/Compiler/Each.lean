import NodeFlow.Proofs.Bypass.Rewiring
import NodeFlow.Proofs.Compiler.Passes
import NodeFlow.Proofs.Modifier.Injection
import NodeFlow.Proofs.Numeral.Decimal
import NodeFlow.Proofs.Template.Skeleton
/-!
# What holds of every node

A pass changes what inputs hold, puts modifiers in under numbers, or takes
nodes out. What holds of every node without its inputs, and of whatever an
input holds, is kept by all passes (`Graph.Each`) if it holds of what they
bring along: the values of a request, and the modifiers. A property of whole
workflows is kept by a chain if both of the small changes it is put in by
keep it (`KeptByChains`).
-/

namespace NodeFlow

open Template

variable {S : String → Node → Prop} {P : InputValue → Prop}

/-- Whatever an input of the node holds has the property. -/
def Node.Holds (P : InputValue → Prop) (n : Node) : Prop :=
  ∀ input v, n.inputs.get? input = some v → P v

theorem Node.Holds.setInput {n : Node} {input : String} {v : InputValue} (hn : n.Holds P)
    (hv : P v) : (n.setInput input v).Holds P := by
  intro name w hw
  rw [Node.setInput, Dict.get?_insert] at hw
  split at hw
  · obtain rfl := Option.some.inj hw
    exact hv
  · exact hn name w hw

theorem Node.Holds.map {n : Node} {f : String → InputValue → InputValue} (hn : n.Holds P)
    (hf : ∀ name v, P v → P (f name v)) : Node.Holds P { n with inputs := n.inputs.map f } := by
  intro name w hw
  rw [Dict.get?_map, Option.map_eq_some_iff] at hw
  obtain ⟨v, hv, rfl⟩ := hw
  exact hf name v (hn name v hv)

/-- What chains write of their own has the property: texts, strengths, and links from the first
output. -/
structure AllowsOwn (P : InputValue → Prop) : Prop where
  text : ∀ text, P (.literal (.str text))
  float : ∀ x, P (.literal (.float x))
  first : ∀ source, P (.connection source 0)

theorem holds_modifierNode (hown : AllowsOwn P) (classType id : String) (s : Selection)
    (source : String) : (modifierNode classType id s source 0).Holds P := by
  intro input v hv
  rw [modifierNode, Dict.get?_eq_some_iff, Dict.entries_ofList (by simp [Entries.keys])] at hv
  simp only [List.mem_cons, Prod.mk.injEq, List.not_mem_nil, or_false] at hv
  rcases hv with ⟨-, rfl⟩ | ⟨-, rfl⟩ | ⟨-, rfl⟩
  · exact hown.text s.name
  · exact hown.float s.strength
  · exact hown.first source

namespace Graph

variable {g h : Graph} {id input source : String} {n : Node} {limit : Int}
variable {cfg : CompilerSettings} {chain : Chain}

/-- Every node has the one property under its key, without its inputs, and whatever an input holds
has the other. -/
def Each (S : String → Node → Prop) (P : InputValue → Prop) (g : Graph) : Prop :=
  ∀ id n, g.node? id = some n → S id n.shell ∧ n.Holds P

/-- **What a pass must do**: each node is new and as it should be, or an old one with inputs that
are as they should be. -/
theorem Each.of_nodes (hg : g.Each S P)
    (hnodes : ∀ id m, h.node? id = some m → S id m.shell ∧ m.Holds P ∨
      ∃ n, g.node? id = some n ∧ m.shell = n.shell ∧ (n.Holds P → m.Holds P)) : h.Each S P := by
  intro id m hm
  rcases hnodes id m hm with hnew | ⟨n, hn, hshell, hinputs⟩
  · exact hnew
  · obtain ⟨hS, hP⟩ := hg id n hn
    exact ⟨hshell ▸ hS, hinputs hP⟩

theorem Each.mapNodes {f : Node → Node} (hg : g.Each S P) (hshell : ∀ n, (f n).shell = n.shell)
    (hf : ∀ n : Node, n.Holds P → (f n).Holds P) : (g.mapNodes f).Each S P := by
  refine hg.of_nodes fun id m hm => Or.inr ?_
  rw [node?_mapNodes] at hm
  obtain ⟨n, hn, rfl⟩ := Option.map_eq_some_iff.1 hm
  exact ⟨n, hn, hshell n, hf n⟩

theorem Each.modify {f : Node → Node} (hg : g.Each S P) (hshell : ∀ n, (f n).shell = n.shell)
    (hf : ∀ n : Node, n.Holds P → (f n).Holds P) (id : String) : (g.modify id f).Each S P := by
  refine hg.of_nodes fun key m hm => Or.inr ?_
  rw [node?_modify] at hm
  split at hm
  · obtain ⟨n, hn, rfl⟩ := Option.map_eq_some_iff.1 hm
    exact ⟨n, hn, hshell n, hf n⟩
  · exact ⟨m, hm, rfl, fun hP => hP⟩

/-! ## Filling in -/

/-- A value takes the place of a placeholder only if it was supplied. -/
theorem mem_of_valueFor?_eq_some {values : Fields} {name : String} {v : Json}
    (h : valueFor? values name = some v) : ∃ key, (key, v) ∈ values := by
  rw [valueFor?] at h
  split at h
  · rename_i w hw
    obtain rfl := Option.some.inj h
    exact ⟨name, Entries.mem_of_get?_eq_some hw⟩
  · obtain ⟨key, -, hkey⟩ := Option.bind_eq_some_iff.1 h
    exact ⟨key, Entries.mem_of_get?_eq_some hkey⟩

theorem holds_textWith {values : Fields} (htext : ∀ text, P (.literal (.str text)))
    (hvalues : ∀ key v, (key, v) ∈ values → P (.literal v)) (text : String) :
    P (.literal (textWith values text)) := by
  rw [textWith]
  split
  · rename_i name _
    cases hv : valueFor? values (String.ofList name) with
    | none => exact htext text
    | some v =>
      obtain ⟨key, hkey⟩ := mem_of_valueFor?_eq_some hv
      exact hvalues key v hkey
  · exact htext _

theorem holds_inputWith {values : Fields} {v : InputValue} (hv : P v)
    (htext : ∀ text, P (.literal (.str text)))
    (hvalues : ∀ key v, (key, v) ∈ values → P (.literal v)) : P (inputWith values v) := by
  rw [inputWith.eq_def]
  split
  · rename_i text
    split
    · rename_i image himage
      by_cases hdefault : text = defaultImage
      · rw [if_pos hdefault]
        obtain ⟨key, hkey⟩ := mem_of_valueFor?_eq_some himage
        exact hvalues key image hkey
      · rw [if_neg hdefault]
        exact holds_textWith htext hvalues text
    · exact holds_textWith htext hvalues text
  · exact hv

theorem Each.fill {values : Fields} (hg : g.Each S P) (htext : ∀ text, P (.literal (.str text)))
    (hvalues : ∀ key v, (key, v) ∈ values → P (.literal v)) (hrun : g.fill values = .ok h) :
    h.Each S P := by
  rw [← filledWith_of_fill hrun]
  exact hg.mapNodes (fun _ => rfl) fun _ hn => hn.map fun _ _ hv => holds_inputWith hv htext hvalues

theorem Each.withSeed {seed : Json} (hg : g.Each S P) (hseed : P (.literal seed)) :
    (g.withSeed seed).Each S P := by
  refine hg.mapNodes (fun _ => rfl) fun n hn => hn.map fun name v hv => ?_
  cases v with
  | literal old =>
    dsimp only
    split
    · exact hseed
    · exact hv
  | connection source output => exact hv
  | slot type => exact hv

theorem Each.override {overrides : Overrides} (hg : g.Each S P)
    (hvalues : ∀ o ∈ overrides, ∀ e ∈ o.2, P (.literal e.2)) : (g.override overrides).Each S P := by
  -- a node is changed by one value after the other
  have hnode : ∀ (values : Fields) (n : Node), (∀ e ∈ values, P (.literal e.2)) →
      (overrideNode n values).shell = n.shell ∧ (n.Holds P → (overrideNode n values).Holds P) := by
    intro values n hvalues
    rw [overrideNode]
    refine List.foldlRecOn (motive := fun m : Node => m.shell = n.shell ∧ (n.Holds P → m.Holds P))
      values _ ⟨rfl, id⟩ ?_
    rintro m ⟨hshell, hm⟩ e he
    split
    · exact ⟨hshell, fun hn => (hm hn).setInput (hvalues e he)⟩
    · exact ⟨hshell, hm⟩
  rw [Graph.override]
  refine List.foldlRecOn (motive := fun k : Graph => k.Each S P) overrides _ hg ?_
  intro k hk o ho
  have hsame : ∀ n : Node, (overrideNode n o.2).shell = n.shell ∧
      (n.Holds P → (overrideNode n o.2).Holds P) := fun n => hnode o.2 n (hvalues o ho)
  exact hk.modify (fun n => (hsame n).1) (fun n => (hsame n).2) o.1

/-! ## Putting chains in -/

/-- A property of workflows that both of the small changes keep that a chain is put in by: a
modifier under a number, and an input that is wired to a first output. -/
structure KeptByChains (cfg : CompilerSettings) (I : Graph → Prop) : Prop where
  put : ∀ (g : Graph) (i : Int) (s : Selection) (source : String), I g →
    I (g.put (modifierNode cfg.modifierClassType (Json.int i).display s source 0))
  wire : ∀ (g : Graph) (id input source : String), I g →
    I (g.setInput id input (.connection source 0))

namespace KeptByChains

variable {I : Graph → Prop}

theorem appendChain {number : Int} {r : Graph × String} (hI : KeptByChains cfg I) (hg : I g)
    (hrun : g.appendChain cfg chain source number = .ok r) : I r.1 := by
  induction chain generalizing g source number with
  | nil =>
    obtain rfl := Except.ok.inj hrun
    exact hg
  | cons s chain ih =>
    rw [Graph.appendChain] at hrun
    obtain ⟨id, hid, hrun⟩ := exists_of_bind_eq_ok hrun
    obtain ⟨-, rfl⟩ := withinLimit_eq_ok_iff.1 hid
    exact ih (hI.put g number s source hg) hrun

/-- **From the small changes to a splice.** -/
theorem splice {targets : List (String × String)} (hI : KeptByChains cfg I) (hg : I g)
    (hrun : g.splice cfg chain source targets = .ok h) : I h := by
  rw [Graph.splice] at hrun
  obtain ⟨first, -, hrun⟩ := exists_of_bind_eq_ok hrun
  obtain ⟨⟨longer, last⟩, hchain, hrun⟩ := exists_of_bind_eq_ok hrun
  obtain rfl := Except.ok.inj hrun
  exact List.foldlRecOn (motive := I) _ _ (hI.appendChain hg hchain)
    fun k hk t _ => hI.wire k t.1 t.2 last hk

theorem inject (hI : KeptByChains cfg I) (hg : I g)
    (hrun : ((g.inject cfg chain).map fun r => r.getD g) = .ok h) : I h := by
  rcases inject_cases g cfg chain with hsame | ⟨n, -, hsplice⟩
  · obtain rfl := Except.ok.inj (hsame.symm.trans hrun)
    exact hg
  · exact hI.splice hg (hsplice.symm.trans hrun)

theorem extend {path : NoisePath} {c : Classifier} (hI : KeptByChains cfg I) (hg : I g)
    (hrun : ((g.extend cfg chain path c).map fun r => r.getD g) = .ok h) : I h := by
  rcases extend_cases g cfg chain path c with hsame | ⟨n, m, -, hsplice⟩
  · obtain rfl := Except.ok.inj (hsame.symm.trans hrun)
    exact hg
  · exact hI.splice hg (hsplice.symm.trans hrun)

end KeptByChains

theorem Each.put (hg : g.Each S P) (hS : S n.id n.shell) (hP : n.Holds P) :
    (g.put n).Each S P := by
  refine hg.of_nodes fun key m hm => ?_
  rw [node?_put] at hm
  split at hm
  · rename_i he
    obtain rfl := Option.some.inj hm
    exact Or.inl ⟨he ▸ hS, hP⟩
  · exact Or.inr ⟨m, hm, rfl, fun hm => hm⟩

theorem Each.setInput {v : InputValue} (hg : g.Each S P) (hv : P v) (id input : String) :
    (g.setInput id input v).Each S P :=
  hg.modify (f := fun n => n.setInput input v) (fun _ => rfl) (fun _ hn => hn.setInput hv) id

/-- **Chains keep what holds of every node**, if it holds of the modifiers. -/
theorem keptByChains_each (hown : AllowsOwn P)
    (hS : ∀ (i : Int) (s : Selection) (source : String),
      S (Json.int i).display
        (modifierNode cfg.modifierClassType (Json.int i).display s source 0).shell) :
    KeptByChains cfg (Each S P) where
  put _ i s source hg := hg.put (hS i s source) (holds_modifierNode hown _ _ s source)
  wire _ id input source hg := hg.setInput (hown.first source) id input

/-! ## Resolving bypassed nodes -/

/-- An input that is resolved holds what it held, or a link that there was. -/
theorem Each.of_resolveInput {v w : InputValue} (hg : g.Each S P) (hv : P v)
    (h : g.resolveInput limit input v = some w) : P w := by
  cases v with
  | literal value =>
    obtain rfl := Option.some.inj h
    exact hv
  | slot type =>
    obtain rfl := Option.some.inj h
    exact hv
  | connection source output =>
    rw [resolveInput] at h
    split at h
    · obtain ⟨l, hl, rfl⟩ := Option.map_eq_some_iff.1 h
      obtain ⟨type, steps, hwalk⟩ := walk_of_resolution hl
      refine (walk_induction (P := fun l => P l.toInput) hwalk hv ?_).1
      intro l next name _ _ hnext
      obtain ⟨n, hn, hlink⟩ := linkAt?_eq_some_iff.1 hnext
      exact (hg l.source n hn).2 name _ (Node.link?_eq_some_iff.1 hlink)
    · obtain rfl := Option.some.inj h
      exact hv

theorem Each.resolveBypassed (hg : g.Each S P) (limit : Int) :
    (g.resolveBypassed limit).graph.Each S P := by
  refine hg.of_nodes fun id m hm => Or.inr ?_
  obtain ⟨n, hn, -, rfl⟩ := node?_resolveBypassed_eq_some_iff.1 hm
  rw [resolveNode]
  split
  · exact ⟨n, hn, rfl, fun hP => hP⟩
  · refine ⟨n, hn, rfl, fun hP input w hw => ?_⟩
    rw [Dict.get?_filterMap, Option.bind_eq_some_iff] at hw
    obtain ⟨v, hv, hvw⟩ := hw
    exact hg.of_resolveInput (hP input v hv) hvw

end Graph

/-! ## Up to the bypassed nodes -/

namespace Submission

variable {s : Submission} {g k : Graph}

/-- A template is filled in and adjusted, unless a value cannot be shown. -/
theorem result_filled_eq (s : Submission) (g : Graph) :
    (s.filled g).result =
      withinLimit (g.isFillable s.request.values) (s.adjusted (g.filledWith s.request.values)) := by
  rw [result_filled, Graph.fill_eq, map_withinLimit]

/-- The seed and the overrides change the values of literals alone. -/
theorem skeleton_adjusted (s : Submission) (g : Graph) :
    (s.adjusted g).skeleton = g.skeleton := by
  rw [adjusted, Graph.skeleton_override, seeded]
  split
  · exact Graph.skeleton_withSeed g _
  · rfl

theorem skeleton_filled (hrun : (s.filled g).result = .ok k) : k.skeleton = g.skeleton := by
  rw [result_filled] at hrun
  obtain ⟨f, hfill, rfl⟩ := exists_of_map_eq_ok hrun
  rw [skeleton_adjusted, Graph.skeleton_fill hfill]

/-- **What chains keep holds once they are in**, if it holds of the template that is filled in. -/
theorem kept_assemble {I : Graph → Prop} (hI : Graph.KeptByChains s.cfg I)
    (hfilled : ∀ f, (s.filled g).result = .ok f → I f) (hrun : (s.assemble g).result = .ok k) :
    I k := by
  rw [result_assemble] at hrun
  obtain ⟨filled, hfill, hrun⟩ := exists_of_bind_eq_ok hrun
  obtain ⟨injected, hinjected, hrun⟩ := exists_of_bind_eq_ok hrun
  obtain ⟨high, hhigh, hlow⟩ := exists_of_bind_eq_ok hrun
  exact hI.extend (hI.extend (hI.inject (hfilled filled hfill) hinjected) hhigh) hlow

/-- The chains go into a template that could be filled in. -/
theorem exists_filled_of_assemble (hrun : (s.assemble g).result = .ok k) :
    ∃ f, (s.filled g).result = .ok f := by
  rw [result_assemble] at hrun
  obtain ⟨filled, hfill, -⟩ := exists_of_bind_eq_ok hrun
  exact ⟨filled, hfill⟩

/-- The passes change nothing but nodes. -/
theorem rest_assemble (hrun : (s.assemble g).result = .ok k) : k = { g with nodes := k.nodes } := by
  refine kept_assemble (I := fun k => k = { g with nodes := k.nodes }) ⟨?_, ?_⟩ ?_ hrun
  · intro h i sel source hh
    rw [Graph.put, hh]
  · intro h id input source hh
    rw [Graph.setInput, Graph.modify, hh]
  · intro f hf
    have hsame := skeleton_filled hf
    have hgroups : f.groups = g.groups := (congrArg Graph.groups hsame :)
    have hnotes : f.notes = g.notes := (congrArg Graph.notes hsame :)
    have hwrapped : f.wrapped = g.wrapped := (congrArg Graph.wrapped hsame :)
    have hmetadata : f.metadata = g.metadata := (congrArg Graph.metadata hsame :)
    rw [← hgroups, ← hnotes, ← hwrapped, ← hmetadata]

/-- **What holds of every node still does when the chains are in**, if it holds of the modifiers and
of all that a request writes. -/
theorem each_assemble (hg : g.Each S P) (hown : AllowsOwn P)
    (hmodifiers : ∀ (i : Int) (sel : Selection) (source : String), S (Json.int i).display
      (modifierNode s.cfg.modifierClassType (Json.int i).display sel source 0).shell)
    (hvalues : ∀ key v, (key, v) ∈ s.request.values → P (.literal v))
    (hseed : ∀ seed, s.request.seedToWrite s.drawn = some seed → P (.literal (.int seed)))
    (hoverrides : ∀ o ∈ s.request.overrides, ∀ e ∈ o.2, P (.literal e.2))
    (hrun : (s.assemble g).result = .ok k) : k.Each S P := by
  refine kept_assemble (Graph.keptByChains_each hown hmodifiers) ?_ hrun
  intro f hf
  rw [result_filled] at hf
  obtain ⟨filled, hfill, rfl⟩ := exists_of_map_eq_ok hf
  have hfilled := hg.fill hown.text hvalues hfill
  have hseeded : (s.seeded filled).Each S P := by
    rw [seeded]
    split
    · rename_i seed hwritten
      exact hfilled.withSeed (hseed seed hwritten)
    · exact hfilled
  exact hseeded.override hoverrides

end Submission

end NodeFlow
