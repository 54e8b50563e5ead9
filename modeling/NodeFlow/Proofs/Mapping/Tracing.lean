import Mathlib.Data.List.Perm.Subperm
import NodeFlow.Mapping.Polarity
import NodeFlow.Proofs.Graph.Dependency
/-!
# Nearest decisive edges

A walk goes along edges from a node, through nodes that conditioning may pass
through. The search for a decisive edge finds one if, and only if, a walk of
at most ten edges leads to a node where one starts, and then one with the
least number of edges (`traces`). `Tracing.Inv` is what holds whenever the
loop takes the next node: the nodes that were looked at, in front of those
that are still in the queue, stand in the order of their distances, the queue
spans two distances at most, and from the nodes that were looked at each edge
to a passable node was followed. So whatever a walk leads to was looked at, or
a node of the queue is no farther away (`Inv.reach`).
-/

namespace NodeFlow

variable {g : Graph} {root id : String} {k depth : Nat} {p : Polarity}

/-! ## Walks and decisive edges -/

/-- An input tells a polarity by its name, in any case; a single conditioning counts as positive. -/
def Polarity.ToldBy (input : String) : Polarity → Prop
  | .positive => Text.lower input = "positive" ∨ Text.lower input = "conditioning"
  | .negative => Text.lower input = "negative"

theorem Polarity.ofInput?_eq_some_iff {input : String} :
    ofInput? input = some p ↔ p.ToldBy input := by
  rw [ofInput?]
  split
  · rename_i h
    cases p <;> simp [ToldBy, h]
  · rename_i h
    cases p <;> simp [ToldBy, h]
  · rename_i h
    cases p <;> simp [ToldBy, h]
  · rename_i hpositive hnegative hconditioning
    refine iff_of_false (by simp) fun htold => ?_
    cases p with
    | positive => exact htold.elim hpositive hconditioning
    | negative => exact hnegative htold

namespace Graph

/-- Conditioning may pass through a node: it has no outputs that are known, or one of the type of
conditioning, in any case. -/
def Passable (g : Graph) (id : String) : Prop :=
  ∃ n, g.node? id = some n ∧ (n.outputs = [] ∨ ∃ o ∈ n.outputs, Text.upper o.type = "CONDITIONING")

/-- A walk of a number of edges leads from a node to another one, through passable nodes. -/
inductive Walk (g : Graph) (root : String) : Nat → String → Prop where
  | here : Walk g root 0 root
  | along {k : Nat} {e : Edge} (h : Walk g root k e.source) (he : e ∈ g.edges)
      (hpass : g.Passable e.target) : Walk g root (k + 1) e.target

/-- An edge that starts at a node tells a polarity. -/
def DecisiveAt (g : Graph) (id : String) (p : Polarity) : Prop :=
  ∃ e ∈ g.edges, e.source = id ∧ p.ToldBy e.input

/-- A polarity is told at a node that the search may come to, and none is told at a nearer node. -/
def Nearest (g : Graph) (root : String) (p : Polarity) : Prop :=
  ∃ k id, k ≤ traceDepth ∧ g.Walk root k id ∧ g.DecisiveAt id p ∧
    ∀ j other q, g.Walk root j other → g.DecisiveAt other q → k ≤ j

theorem isPassable_iff : g.isPassable id ↔ g.Passable id := by
  have hupper : Text.upper conditioningType = "CONDITIONING" := by decide +kernel
  rw [isPassable, Passable]
  cases hn : g.node? id with
  | none => simp
  | some n => simp [Node.hasOutputType, hupper]

theorem decisiveAt_of_polarityAt? (h : g.polarityAt? id = some p) : g.DecisiveAt id p := by
  obtain ⟨e, he, htold⟩ := List.exists_of_findSome?_eq_some h
  obtain ⟨hedge, hsource⟩ := List.mem_filter.1 he
  exact ⟨e, hedge, by simpa using hsource, Polarity.ofInput?_eq_some_iff.1 htold⟩

theorem not_decisiveAt_of_polarityAt? (h : g.polarityAt? id = none) : ¬ g.DecisiveAt id p := by
  rintro ⟨e, he, hsource, htold⟩
  have hnone := List.findSome?_eq_none_iff.1 h e (List.mem_filter.2 ⟨he, by simpa using hsource⟩)
  rw [Polarity.ofInput?_eq_some_iff.2 htold] at hnone
  cases hnone

/-- An edge to a passable node leads to a node of the workflow. -/
theorem Passable.mem_keys (h : g.Passable id) : id ∈ g.nodes.keys := by
  obtain ⟨n, hn, -⟩ := h
  exact has_iff_mem_keys.1 (has_iff.2 ⟨n, hn⟩)

end Graph

namespace Tracing

variable {t : Tracing} {done rest : List (String × Nat)}

/-! ## Visits -/

/-- The nodes that are visited from a node at a distance: the targets of its edges, unless it is too
far away. -/
def targets (g : Graph) (id : String) (depth : Nat) : List String :=
  if traceDepth ≤ depth then [] else (g.outgoing id).map Edge.target

theorem mem_targets_iff {target : String} :
    target ∈ targets g id depth ↔
      depth < traceDepth ∧ ∃ e ∈ g.edges, e.source = id ∧ e.target = target := by
  rw [targets]
  by_cases hfar : traceDepth ≤ depth
  · simp [hfar]
  · rw [if_neg hfar, and_iff_right (Nat.lt_of_not_le hfar)]
    simp only [Graph.outgoing, List.mem_map, List.mem_filter, decide_eq_true_eq, and_assoc]

/-- What visiting nodes one after the other does: some of them, which were not visited before, come
to the end of the queue, and of the others none is both passable and new. -/
structure Visits (g : Graph) (depth : Nat) (ids : List String) (t t' : Tracing)
    (new : List String) : Prop where
  queue : t'.queue = t.queue ++ new.map fun id => (id, depth)
  visited : t'.visited = t.visited ++ new
  nodup : new.Nodup
  mem : ∀ id ∈ new, id ∈ ids ∧ g.Passable id ∧ id ∉ t.visited
  all : ∀ id ∈ ids, g.Passable id → id ∈ t'.visited

theorem visits_visit (g : Graph) (depth : Nat) (t : Tracing) (id : String) :
    ∃ new, Visits g depth [id] t (visit g depth t id) new := by
  rw [visit]
  by_cases hskip : t.visited.contains id || !g.isPassable id
  · rw [if_pos hskip]
    refine ⟨[], by simp, by simp, List.nodup_nil, by simp, fun x hx hpass => ?_⟩
    obtain rfl : x = id := List.mem_singleton.1 hx
    have hcond : t.visited.contains x ∨ ¬ g.Passable x := by
      simpa only [Bool.or_eq_true, Bool.not_eq_true', ← Bool.not_eq_true, Graph.isPassable_iff]
        using hskip
    exact List.contains_iff_mem.1 (hcond.resolve_right (not_not_intro hpass))
  · rw [if_neg hskip]
    have hcond : id ∉ t.visited ∧ g.Passable id := by
      simpa only [Bool.or_eq_true, not_or, Bool.not_eq_true', Bool.not_eq_false,
        List.contains_iff_mem, Graph.isPassable_iff] using hskip
    refine ⟨[id], rfl, rfl, List.nodup_singleton id, fun x hx => ?_, fun x hx _ => ?_⟩
    · obtain rfl : x = id := List.mem_singleton.1 hx
      exact ⟨hx, hcond.2, hcond.1⟩
    · exact List.mem_append_right _ hx

theorem Visits.trans {ids ids' new new' : List String} {t' t'' : Tracing}
    (h : Visits g depth ids t t' new) (h' : Visits g depth ids' t' t'' new') :
    Visits g depth (ids ++ ids') t t'' (new ++ new') := by
  constructor
  case queue => rw [h'.queue, h.queue, List.append_assoc, List.map_append]
  case visited => rw [h'.visited, h.visited, List.append_assoc]
  case nodup =>
    refine List.nodup_append.2 ⟨h.nodup, h'.nodup, ?_⟩
    rintro id hid _ hid' rfl
    refine (h'.mem id hid').2.2 ?_
    rw [h.visited]
    exact List.mem_append_right _ hid
  case mem =>
    intro id hid
    rcases List.mem_append.1 hid with hid | hid
    · obtain ⟨hmem, hrest⟩ := h.mem id hid
      exact ⟨List.mem_append_left _ hmem, hrest⟩
    · obtain ⟨hmem, hpass, hnot⟩ := h'.mem id hid
      rw [h.visited] at hnot
      exact ⟨List.mem_append_right _ hmem, hpass, fun hm => hnot (List.mem_append_left _ hm)⟩
  case all =>
    intro id hid hpass
    rcases List.mem_append.1 hid with hid | hid
    · rw [h'.visited]
      exact List.mem_append_left _ (h.all id hid hpass)
    · exact h'.all id hid hpass

theorem visits_foldl (g : Graph) (depth : Nat) (ids : List String) (t : Tracing) :
    ∃ new, Visits g depth ids t (ids.foldl (visit g depth) t) new := by
  induction ids generalizing t with
  | nil => exact ⟨[], by simp, by simp, List.nodup_nil, by simp, by simp⟩
  | cons id ids ih =>
    obtain ⟨new, hnew⟩ := visits_visit g depth t id
    obtain ⟨new', hnew'⟩ := ih (visit g depth t id)
    exact ⟨new ++ new', hnew.trans hnew'⟩

/-! ## The invariant -/

/-- What holds of the search from a node, when it takes the next node of the queue. The nodes that
were looked at go along, with their distances. -/
structure Inv (g : Graph) (root : String) (done : List (String × Nat)) (t : Tracing) : Prop where
  /-- The nodes that were visited were looked at, or are in the queue. -/
  visited : t.visited = (done ++ t.queue).map Prod.fst
  /-- None was visited twice. -/
  nodup : t.visited.Nodup
  /-- They are the first node and nodes of the workflow. -/
  mem : t.visited ⊆ root :: g.nodes.keys
  /-- The first node was visited first. -/
  root_mem : (root, 0) ∈ done ++ t.queue
  /-- Walks lead to them, no longer than they may be. -/
  walks : ∀ e ∈ done ++ t.queue, g.Walk root e.2 e.1 ∧ e.2 ≤ traceDepth
  /-- They stand in the order of their distances. -/
  sorted : (done ++ t.queue).Pairwise fun e f => e.2 ≤ f.2
  /-- The queue spans two distances at most. -/
  near : ∀ e ∈ t.queue, ∀ f ∈ t.queue, f.2 ≤ e.2 + 1
  /-- No polarity is told at a node that was looked at. -/
  undecided : ∀ e ∈ done, ∀ p, ¬ g.DecisiveAt e.1 p
  /-- From such a node the edges to passable nodes were followed, unless it is too far away. -/
  followed : ∀ e ∈ done, e.2 < traceDepth → ∀ edge ∈ g.edges, edge.source = e.1 →
    g.Passable edge.target → ∃ d, (edge.target, d) ∈ done ++ t.queue ∧ d ≤ e.2 + 1

theorem inv_start (g : Graph) (root : String) : Inv g root [] (start root) where
  visited := rfl
  nodup := List.nodup_singleton root
  mem := by simp [start]
  root_mem := by simp [start]
  walks e he := by
    obtain rfl : e = (root, 0) := by simpa [start] using he
    exact ⟨.here, Nat.zero_le _⟩
  sorted := by simp [start]
  near := by simp [start]
  undecided := by simp
  followed := by simp

/-- No more nodes are visited than there are. -/
theorem Inv.length_le (h : Inv g root done t) : done.length + t.queue.length ≤ g.size + 1 := by
  have hsub := (List.subperm_of_subset h.nodup h.mem).length_le
  simpa [h.visited, Dict.keys, Entries.keys, Graph.size, Dict.size] using hsub

/-- **What a walk leads to was looked at, or a node of the queue is no farther away.** -/
theorem Inv.reach (h : Inv g root done t) (hwalk : g.Walk root k id) (hk : k ≤ traceDepth) :
    (∃ d, (id, d) ∈ done ∧ d ≤ k) ∨ ∃ e ∈ t.queue, e.2 ≤ k := by
  have hsplit : ∀ {x : String} {d : Nat}, (x, d) ∈ done ++ t.queue → ∀ {j : Nat}, d ≤ j →
      (∃ d, (x, d) ∈ done ∧ d ≤ j) ∨ ∃ e ∈ t.queue, e.2 ≤ j := by
    intro x d hx j hd
    rcases List.mem_append.1 hx with hdone | hqueue
    · exact Or.inl ⟨d, hdone, hd⟩
    · exact Or.inr ⟨_, hqueue, hd⟩
  induction hwalk with
  | here => exact hsplit h.root_mem (Nat.le_refl 0)
  | @along k e _ he hpass ih =>
    rcases ih (by omega) with ⟨d, hd, hle⟩ | ⟨f, hf, hle⟩
    · obtain ⟨d', hd', hle'⟩ := h.followed _ hd (by dsimp only; omega) e he rfl hpass
      exact hsplit hd' (by dsimp only at hle'; omega)
    · exact Or.inr ⟨f, hf, by omega⟩

/-- The nodes of the queue are as far away as the first one, or one edge farther. -/
theorem Inv.queued (h : Inv g root done t) (hqueue : t.queue = (id, depth) :: rest) :
    ∀ f ∈ t.queue, depth ≤ f.2 ∧ f.2 ≤ depth + 1 := by
  intro f hf
  refine ⟨?_, h.near (id, depth) (by simp [hqueue]) f hf⟩
  have hsorted := (List.pairwise_append.1 h.sorted).2.1
  rw [hqueue] at hf hsorted
  rcases List.mem_cons.1 hf with rfl | hf
  · exact Nat.le_refl depth
  · exact (List.pairwise_cons.1 hsorted).1 f hf

/-- So no node that was visited is farther away. -/
theorem Inv.le_succ (h : Inv g root done t) (hqueue : t.queue = (id, depth) :: rest) :
    ∀ e ∈ done ++ t.queue, e.2 ≤ depth + 1 := by
  intro e he
  rcases List.mem_append.1 he with hdone | hwaits
  · have hbefore := (List.pairwise_append.1 h.sorted).2.2
    exact (hbefore e hdone (id, depth) (by simp [hqueue])).trans (Nat.le_succ depth)
  · exact (h.queued hqueue e hwaits).2

/-- **A polarity that the first node of the queue tells is nearest.** -/
theorem Inv.nearest (h : Inv g root done t) (hqueue : t.queue = (id, depth) :: rest)
    (hdecisive : g.DecisiveAt id p) : g.Nearest root p := by
  obtain ⟨hwalk, hdepth⟩ := h.walks (id, depth) (by simp [hqueue])
  refine ⟨depth, id, hdepth, hwalk, hdecisive, fun j other q hother hq => ?_⟩
  by_contra hlt
  rcases h.reach hother (by omega) with ⟨d, hd, -⟩ | ⟨e, he, hle⟩
  · exact h.undecided _ hd q hq
  · -- the first node of the queue is no farther away than any other
    have := (h.queued hqueue e he).1
    omega

/-! ## Steps and runs -/

/-- What was looked at, and what waits, as the first node of the queue is looked at: the nodes that
are visited from it are put behind. -/
theorem Visits.passed {ids new : List String} {t' : Tracing} {distance : Nat}
    (h : Visits g distance ids { t with queue := rest } t' new)
    (hqueue : t.queue = (id, depth) :: rest) (done : List (String × Nat)) :
    (done ++ [(id, depth)]) ++ t'.queue =
      (done ++ t.queue) ++ new.map fun x => (x, distance) := by
  rw [h.queue, hqueue]
  simp

/-- **The invariant is kept** as a node at which nothing is told leaves the queue and its targets
are visited. -/
theorem Inv.pass {t' : Tracing} {new : List String} (h : Inv g root done t)
    (hqueue : t.queue = (id, depth) :: rest) (hnone : g.polarityAt? id = none)
    (hvisits : Visits g (depth + 1) (targets g id depth) { t with queue := rest } t' new) :
    Inv g root (done ++ [(id, depth)]) t' := by
  have hlist := hvisits.passed hqueue done
  have hold : ∀ e ∈ done ++ t.queue, e ∈ (done ++ [(id, depth)]) ++ t'.queue := by
    intro e he
    rw [hlist]
    exact List.mem_append_left _ he
  have hbound : ∀ e ∈ (done ++ [(id, depth)]) ++ t'.queue, e.2 ≤ depth + 1 := by
    intro e he
    rw [hlist] at he
    rcases List.mem_append.1 he with he | he
    · exact h.le_succ hqueue e he
    · obtain ⟨x, -, rfl⟩ := List.mem_map.1 he
      exact Nat.le_refl _
  have hvisited : t'.visited = ((done ++ [(id, depth)]) ++ t'.queue).map Prod.fst := by
    rw [hlist, hvisits.visited, h.visited]
    simp [Function.comp_def]
  constructor
  case visited => exact hvisited
  case nodup =>
    rw [hvisits.visited]
    refine List.nodup_append.2 ⟨h.nodup, hvisits.nodup, ?_⟩
    rintro x hx _ hx' rfl
    exact (hvisits.mem x hx').2.2 hx
  case mem =>
    intro x hx
    rw [hvisits.visited] at hx
    rcases List.mem_append.1 hx with hx | hx
    · exact h.mem hx
    · exact List.mem_cons_of_mem _ (hvisits.mem x hx).2.1.mem_keys
  case root_mem => exact hold _ h.root_mem
  case walks =>
    intro e he
    rw [hlist] at he
    rcases List.mem_append.1 he with he | he
    · exact h.walks e he
    · obtain ⟨x, hx, rfl⟩ := List.mem_map.1 he
      obtain ⟨htarget, hpass, -⟩ := hvisits.mem x hx
      obtain ⟨hlt, edge, hedge, rfl, rfl⟩ := mem_targets_iff.1 htarget
      have hwalk := (h.walks (edge.source, depth) (by simp [hqueue])).1
      exact ⟨.along hwalk hedge hpass, hlt⟩
  case sorted =>
    rw [hlist]
    refine List.pairwise_append.2 ⟨h.sorted, ?_, fun e he f hf => ?_⟩
    · exact List.pairwise_map.2 (List.pairwise_of_forall fun _ _ => Nat.le_refl _)
    · obtain ⟨x, -, rfl⟩ := List.mem_map.1 hf
      exact hbound e (hold e he)
  case near =>
    intro e he f hf
    have hleast : depth ≤ e.2 := by
      rw [hvisits.queue] at he
      rcases List.mem_append.1 he with he | he
      · exact (h.queued hqueue e (by simp [hqueue, show e ∈ rest from he])).1
      · obtain ⟨x, -, rfl⟩ := List.mem_map.1 he
        exact Nat.le_succ depth
    have := hbound f (List.mem_append_right _ hf)
    omega
  case undecided =>
    intro e he q
    rcases List.mem_append.1 he with he | he
    · exact h.undecided e he q
    · rw [List.mem_singleton.1 he]
      exact Graph.not_decisiveAt_of_polarityAt? hnone
  case followed =>
    intro e he hlt edge hedge hsource hpass
    rcases List.mem_append.1 he with he | he
    · obtain ⟨d, hd, hle⟩ := h.followed e he hlt edge hedge hsource hpass
      exact ⟨d, hold _ hd, hle⟩
    · obtain rfl := List.mem_singleton.1 he
      have htarget : edge.target ∈ t'.visited :=
        hvisits.all _ (mem_targets_iff.2 ⟨hlt, edge, hedge, hsource, rfl⟩) hpass
      rw [hvisited] at htarget
      obtain ⟨f, hf, hf'⟩ := List.mem_map.1 htarget
      exact ⟨f.2, hf' ▸ hf, hbound f hf⟩

/-- **Step**: the invariant is kept, with one more node looked at; or a nearest polarity is
found. -/
theorem Inv.step (h : Inv g root done t) (hne : t.queue ≠ []) :
    (∃ t' e, t.step g = .ok t' ∧ Inv g root (done ++ [e]) t') ∨
      ∃ p, t.step g = .error p ∧ g.Nearest root p := by
  obtain ⟨⟨id, depth⟩, rest, hqueue⟩ := List.exists_cons_of_ne_nil hne
  rw [Tracing.step, hqueue]
  dsimp only
  cases hdecided : g.polarityAt? id with
  | some p =>
    exact Or.inr ⟨p, rfl, h.nearest hqueue (Graph.decisiveAt_of_polarityAt? hdecided)⟩
  | none =>
    obtain ⟨new, hnew⟩ := visits_foldl g (depth + 1) (targets g id depth) { t with queue := rest }
    refine Or.inl ⟨_, (id, depth), ?_, h.pass hqueue hdecided hnew⟩
    dsimp only
    rw [targets]
    split <;> rfl

/-- **Run**: with a step for each node that may still be looked at, the queue runs empty, or a
nearest polarity is found. -/
theorem Inv.run {steps : Nat} (h : Inv g root done t) (hsteps : g.size + 1 ≤ done.length + steps) :
    (∃ t' done', t.run g steps = .ok t' ∧ t'.queue = [] ∧ Inv g root done' t') ∨
      ∃ p, t.run g steps = .error p ∧ g.Nearest root p := by
  induction steps generalizing t done with
  | zero =>
    refine Or.inl ⟨t, done, rfl, List.length_eq_zero_iff.1 ?_, h⟩
    have hle := h.length_le
    omega
  | succ steps ih =>
    rw [Tracing.run]
    by_cases hqueue : t.queue = []
    · rw [if_pos (List.isEmpty_iff.2 hqueue)]
      exact Or.inl ⟨t, done, rfl, hqueue, h⟩
    · rw [if_neg fun hempty => hqueue (List.isEmpty_iff.1 hempty)]
      rcases h.step hqueue with ⟨t', e, hstep, h'⟩ | ⟨p, hstep, hnearest⟩
      · rw [hstep]
        exact ih h' (by rw [List.length_append, List.length_singleton]; omega)
      · rw [hstep]
        exact Or.inr ⟨p, rfl, hnearest⟩

end Tracing

/-! ## The search -/

namespace Graph

/-- What the search for a decisive edge comes to, from a node. -/
structure Traces (g : Graph) (root : String) : Prop where
  /-- It ends, within one step for each node and one for the first: a decisive edge is met, or the
  queue is empty. -/
  ends : (∃ p, (Tracing.start root).run g (g.size + 1) = .error p) ∨
    ∃ t, (Tracing.start root).run g (g.size + 1) = .ok t ∧ t.queue = []
  /-- It finds a polarity exactly where a walk that is not too long leads to a node that tells
  one. -/
  isSome_iff : (g.trace root).isSome ↔
    ∃ k id p, k ≤ traceDepth ∧ g.Walk root k id ∧ g.DecisiveAt id p
  /-- What it finds is told at a node to which a walk of the least number of edges leads. -/
  nearest : ∀ p, g.trace root = some p → g.Nearest root p

/-- **The search for a decisive edge is a search for a shortest walk**, on every workflow and from
every node, even one that is not there: edges may run in circles. -/
theorem traces (g : Graph) (root : String) : g.Traces root := by
  have hsteps : g.size + 1 ≤ ([] : List (String × Nat)).length + (g.size + 1) := by simp
  rcases (Tracing.inv_start g root).run hsteps with
    ⟨t, done, hrun, hqueue, hinv⟩ | ⟨p, hrun, hnearest⟩
  · have htrace : g.trace root = none := by rw [trace, hrun]
    refine ⟨Or.inr ⟨t, hrun, hqueue⟩, ?_, ?_⟩
    · refine iff_of_false (by simp [htrace]) ?_
      rintro ⟨k, id, p, hk, hwalk, hdecisive⟩
      rcases hinv.reach hwalk hk with ⟨d, hd, -⟩ | ⟨e, he, -⟩
      · exact hinv.undecided _ hd p hdecisive
      · simp [hqueue] at he
    · intro p hp
      rw [htrace] at hp
      cases hp
  · have htrace : g.trace root = some p := by rw [trace, hrun]
    refine ⟨Or.inl ⟨p, hrun⟩, ?_, ?_⟩
    · obtain ⟨k, id, hk, hwalk, hdecisive, -⟩ := hnearest
      exact iff_of_true (by simp [htrace]) ⟨k, id, p, hk, hwalk, hdecisive⟩
    · intro q hq
      obtain rfl : p = q := Option.some.inj (htrace.symm.trans hq)
      exact hnearest

/-- An encoder feeds a sampler through two nodes that feed each other, and another one through one
of them: the nearer sampler decides. -/
example :
    let node (id input source : String) : String × Node :=
      (id, { id := id, classType := id, inputs := .ofList [(input, .connection source 0)] })
    Graph.trace { nodes := .ofList [
      ("1", { id := "1", classType := "CLIPTextEncode" }),
      ("2", { id := "2", classType := "ConditioningCombine", inputs := .ofList [
        ("conditioning_1", .connection "1" 0), ("conditioning_2", .connection "3" 0)] }),
      node "3" "conditioning_to" "2", node "4" "positive" "3", node "5" "negative" "2"] } "1" =
      some .negative := by
  decide +kernel

end Graph

end NodeFlow
