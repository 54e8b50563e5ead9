import NodeFlow.Modifier.Splice
/-!
# Where a chain finds its place

Both searches for the place of a chain take the first node that fits, in the
order of the nodes. `IsModelSource` and `Samples` say what fits without
searching: a fresh chain goes behind the first node of the most wanted class
type that is there, and an extension in front of the first model-sampling
node on the path that a modifier feeds.
-/

namespace NodeFlow.Graph

variable {g : Graph} {cfg : CompilerSettings} {path : NoisePath} {c : Classifier}
variable {classType : String} {n m p : Node}

/-- The first node, in the order of the nodes, of which something holds. -/
def IsFirst (g : Graph) (P : Node → Prop) (n : Node) : Prop :=
  ∃ before after, g.nodeList = before ++ n :: after ∧ P n ∧ ∀ q ∈ before, ¬ P q

/-- The node that a fresh chain goes behind: the first of a class type of model sources, where no
node has a class type that is wanted more. -/
def IsModelSource (cfg : CompilerSettings) (g : Graph) (p : Node) : Prop :=
  ∃ before classType after, cfg.modelSourceClassTypes = before ++ classType :: after ∧
    (∀ q ∈ g.nodeList, q.classType ∉ before) ∧ g.IsFirst (fun q => q.classType = classType) p

/-- A model-sampling node on a path whose model input a modifier feeds. -/
structure Samples (cfg : CompilerSettings) (g : Graph) (path : NoisePath) (c : Classifier)
    (n m : Node) : Prop where
  classType : n.classType = cfg.samplingClassType
  fed : ∃ l, n.link? "model" = some l ∧ g.node? l.source = some m
  modifier : m.classType = cfg.modifierClassType
  onPath : path ∈ c.classify g n.id

/-! ## The model source -/

theorem head?_ofType_eq_some_iff :
    (g.ofType classType).head? = some p ↔ g.IsFirst (fun q => q.classType = classType) p := by
  rw [ofType, List.head?_filter, List.find?_eq_some_iff_append, IsFirst]
  constructor
  · rintro ⟨hclass, before, after, hnodes, hbefore⟩
    refine ⟨before, after, hnodes, of_decide_eq_true hclass, fun q hq => ?_⟩
    simpa using hbefore q hq
  · rintro ⟨before, after, hnodes, hclass, hbefore⟩
    refine ⟨decide_eq_true hclass, before, after, hnodes, fun q hq => ?_⟩
    simpa using hbefore q hq

theorem head?_ofType_eq_none_iff :
    (g.ofType classType).head? = none ↔ ∀ q ∈ g.nodeList, q.classType ≠ classType := by
  rw [ofType, List.head?_filter, List.find?_eq_none]
  simp only [decide_eq_true_eq]

/-- **The model source is found** by its class type and its position. -/
theorem modelSource?_eq_some_iff : g.modelSource? cfg = some p ↔ g.IsModelSource cfg p := by
  rw [modelSource?, List.findSome?_eq_some_iff, IsModelSource]
  refine exists_congr fun before => exists_congr fun classType => exists_congr fun after => ?_
  rw [head?_ofType_eq_some_iff]
  refine and_congr_right fun _ => ?_
  rw [and_comm]
  refine and_congr_left fun _ => ?_
  simp only [head?_ofType_eq_none_iff]
  constructor
  · intro h q hq hmem
    exact h _ hmem q hq rfl
  · rintro h classType hmem q hq rfl
    exact h q hq hmem

theorem modelSource?_eq_none_iff :
    g.modelSource? cfg = none ↔ ∀ p ∈ g.nodeList, p.classType ∉ cfg.modelSourceClassTypes := by
  rw [modelSource?, List.findSome?_eq_none_iff]
  simp only [head?_ofType_eq_none_iff]
  constructor
  · intro h p hp hmem
    exact h _ hmem p hp rfl
  · rintro h classType hmem p hp rfl
    exact h p hp hmem

/-! ## The place of an extension -/

theorem feedingModifier?_eq_some_iff :
    g.feedingModifier? cfg n = some m ↔
      (∃ l, n.link? "model" = some l ∧ g.node? l.source = some m) ∧
        m.classType = cfg.modifierClassType := by
  rw [feedingModifier?, Option.filter_eq_some_iff, Option.bind_eq_some_iff, decide_eq_true_iff]

/-- What the search takes a node for. -/
theorem sampling?_eq_some_iff {found : Node × Node} :
    (if n.classType = cfg.samplingClassType then
      (g.feedingModifier? cfg n).bind fun m =>
        if (c.classify g n.id).contains path then some (n, m) else none
      else none) = some found ↔ n = found.1 ∧ g.Samples cfg path c n found.2 := by
  obtain ⟨n', m'⟩ := found
  constructor
  · intro h
    split at h
    · rename_i hclass
      obtain ⟨m, hm, h⟩ := Option.bind_eq_some_iff.1 h
      obtain ⟨hfed, hmodifier⟩ := feedingModifier?_eq_some_iff.1 hm
      split at h
      · rename_i hpath
        obtain ⟨rfl, rfl⟩ := Prod.mk.inj (Option.some.inj h)
        exact ⟨rfl, hclass, hfed, hmodifier, List.contains_iff_mem.1 hpath⟩
      · cases h
    · cases h
  · rintro ⟨rfl, hclass, hfed, hmodifier, hpath⟩
    rw [if_pos hclass, feedingModifier?_eq_some_iff.2 ⟨hfed, hmodifier⟩, Option.bind_some,
      if_pos (List.contains_iff_mem.2 hpath)]

theorem findSome?_ofType {α : Type} (g : Graph) (classType : String) (f : Node → Option α) :
    (g.ofType classType).findSome? f =
      g.nodeList.findSome? fun n => if n.classType = classType then f n else none := by
  rw [ofType]
  induction g.nodeList with
  | nil => rfl
  | cons n nodes ih =>
    by_cases hclass : n.classType = classType
    · rw [List.filter_cons_of_pos (by simpa using hclass), List.findSome?_cons,
        List.findSome?_cons, if_pos hclass, ih]
    · rw [List.filter_cons_of_neg (by simpa using hclass), List.findSome?_cons, if_neg hclass, ih]

/-- **The place of an extension is found** by its position. -/
theorem extensionSite?_eq_some_iff :
    g.extensionSite? cfg path c = some (n, m) ↔
      g.IsFirst (fun n => ∃ m, g.Samples cfg path c n m) n ∧ g.Samples cfg path c n m := by
  rw [extensionSite?, findSome?_ofType, List.findSome?_eq_some_iff]
  simp only [sampling?_eq_some_iff, Option.eq_none_iff_forall_ne_some, ne_eq, Prod.forall]
  constructor
  · rintro ⟨before, n, after, hnodes, ⟨rfl, hn⟩, hbefore⟩
    refine ⟨⟨before, after, hnodes, ⟨m, hn⟩, ?_⟩, hn⟩
    rintro q hq ⟨m', hm'⟩
    exact hbefore q hq q m' ⟨rfl, hm'⟩
  · rintro ⟨⟨before, after, hnodes, -, hbefore⟩, hn⟩
    refine ⟨before, n, after, hnodes, ⟨rfl, hn⟩, ?_⟩
    rintro q hq - m' ⟨rfl, hm'⟩
    exact hbefore q hq ⟨m', hm'⟩

theorem extensionSite?_eq_none_iff :
    g.extensionSite? cfg path c = none ↔ ∀ n ∈ g.nodeList, ∀ m, ¬ g.Samples cfg path c n m := by
  rw [extensionSite?, findSome?_ofType, List.findSome?_eq_none_iff]
  simp only [Option.eq_none_iff_forall_ne_some, ne_eq, sampling?_eq_some_iff, Prod.forall]
  constructor
  · intro h n hn m hm
    exact h n hn n m ⟨rfl, hm⟩
  · rintro h n hn - m ⟨rfl, hm⟩
    exact h n hn m hm

end NodeFlow.Graph
