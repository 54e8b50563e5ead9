import Mathlib.Algebra.GroupWithZero.Nat
import Mathlib.Algebra.Order.BigOperators.Group.List
import Mathlib.Algebra.Order.Group.Nat
import Mathlib.Data.List.Chain
import Mathlib.Data.List.Nodup
import Mathlib.Logic.Relation
import NodeFlow.Validation.Cycle
/-!
# The loop of the search for cycles

`Search.Inv` is what holds whenever the loop looks at a dependency: stack and
path are in step, each node of the path depends on the next and none stands
twice, the marks tell the path from what is finished, and whatever a node was
followed along is finished or comes next on the path. The order in which
nodes were finished goes along; a node is finished after all it depends on.
Every step keeps this, or finds a circle, and takes something away from the
work that is left, so the loop ends within the steps it is given
(`Inv.run`). After the last node all are finished, or a circle was found
(`followAll_cases`).
-/

namespace NodeFlow

variable {R : String → String → Prop} {adjacent : String → List String}
variable {ids path order order' : List String} {id next root : String}

/-! ## Circles -/

/-- Nodes that are related in turn, from one of them back to it. -/
structure IsCircle (R : String → String → Prop) (ids : List String) : Prop where
  /-- There is a node to depart from and one to arrive at, be it the same. -/
  two_le : 2 ≤ ids.length
  /-- The last node is the first one again. -/
  closed : ids.head? = ids.getLast?
  /-- No other node stands twice. -/
  distinct : ids.dropLast.Nodup
  /-- Each node is related to the next. -/
  steps : ids.IsChain R

/-- What holds of the path that the search is on. -/
structure IsPath (R : String → String → Prop) (path : List String) : Prop where
  /-- No node stands twice. -/
  nodup : path.Nodup
  /-- Each node is related to the next. -/
  steps : path.IsChain R

theorem isPath_nil : IsPath R [] := ⟨List.nodup_nil, List.isChain_nil⟩

theorem IsPath.of_append {after : List String} (hp : IsPath R (path ++ after)) : IsPath R path :=
  ⟨(List.nodup_append.1 hp.nodup).1, (List.isChain_append.1 hp.steps).1⟩

/-- One more node behind a path. -/
theorem isChain_concat (hp : path.IsChain R) (hd : ∀ x ∈ path.getLast?, R x next) :
    (path ++ [next]).IsChain R := by
  refine List.isChain_append.2 ⟨hp, List.isChain_singleton next, ?_⟩
  intro x hx y hy
  obtain rfl : next = y := by simpa using hy
  exact hd x hx

/-- **The path goes on** to a node that does not stand on it. -/
theorem IsPath.concat (hp : IsPath R path) (hd : ∀ x ∈ path.getLast?, R x next)
    (hnot : next ∉ path) : IsPath R (path ++ [next]) := by
  refine ⟨List.nodup_append.2 ⟨hp.nodup, List.nodup_singleton next, ?_⟩,
    isChain_concat hp.steps hd⟩
  intro a ha b hb
  obtain rfl : b = next := by simpa using hb
  exact fun he => hnot (he ▸ ha)

/-- **The path closes** at a node that stands on it. What is in front of that node does not belong
to the circle. -/
theorem IsPath.isCircle (hp : IsPath R path) (hd : ∀ x ∈ path.getLast?, R x next)
    (hmem : next ∈ path) : IsCircle R (path.dropWhile (· ≠ next) ++ [next]) := by
  have hsteps := isChain_concat hp.steps hd
  have hnodup := hp.nodup
  obtain ⟨before, after, rfl, hnot⟩ := List.eq_append_cons_of_mem hmem
  have hdrop : (before ++ next :: after).dropWhile (· ≠ next) = next :: after := by
    have hfront : ∀ x ∈ before, decide (x ≠ next) = true := by
      intro x hx
      have hne : x ≠ next := fun he => hnot (he ▸ hx)
      simp [hne]
    rw [List.dropWhile_append_of_pos hfront, List.dropWhile_cons_of_neg (by simp)]
  rw [hdrop]
  refine ⟨by simp, by rw [List.getLast?_concat]; rfl, ?_, ?_⟩
  · rw [List.dropLast_concat]
    exact (List.nodup_append.1 hnodup).2.1
  · rw [List.append_assoc] at hsteps
    exact (List.isChain_append.1 hsteps).2.1

/-- Going around a circle leads back. -/
theorem IsCircle.transGen (h : IsCircle R ids) : ∃ id, Relation.TransGen R id id := by
  obtain ⟨htwo, hclosed, -, hsteps⟩ := h
  match ids with
  | [] => simp at htwo
  | id :: rest =>
    have hrest : rest ≠ [] := by
      rintro rfl
      simp at htwo
    obtain ⟨front, last, rfl⟩ : ∃ front last, rest = front ++ [last] :=
      ⟨_, _, (List.dropLast_append_getLast hrest).symm⟩
    obtain rfl : id = last := by simpa [List.getLast?_cons] using hclosed
    have htrans : (id :: (front ++ [id])).IsChain (Relation.TransGen R) :=
      hsteps.imp fun _ _ => Relation.TransGen.single
    exact ⟨id, (List.pairwise_cons.1 (List.isChain_iff_pairwise.1 htrans)).1 id (by simp)⟩

/-! ## Finished nodes -/

/-- What a finished node depends on was finished before it. -/
def Settled (adjacent : String → List String) (order : List String) : Prop :=
  ∀ before id after, order = before ++ id :: after → ∀ next ∈ adjacent id, next ∈ before

theorem settled_nil : Settled adjacent [] := by
  intro before id after h
  simp at h

/-- A node may be finished once everything it depends on is. -/
theorem Settled.concat (hs : Settled adjacent order) (h : ∀ next ∈ adjacent id, next ∈ order) :
    Settled adjacent (order ++ [id]) := by
  intro before x after heq next hnext
  rcases List.eq_nil_or_concat after with rfl | ⟨after', y, rfl⟩
  · -- nothing stands behind the node, so it is the new one
    obtain ⟨rfl, hx⟩ := List.append_inj' heq rfl
    obtain rfl : id = x := by simpa using hx
    exact h next hnext
  · have heq' : order ++ [id] = (before ++ x :: after') ++ [y] := by simpa using heq
    obtain ⟨hdone, -⟩ := List.append_inj' heq' rfl
    exact hs before x after' hdone next hnext

/-- What the nodes on a stack were followed along is finished, or is the node that comes next. -/
def Looked (adjacent : String → List String) (order : List String) :
    Option String → List (String × List String) → Prop
  | _, [] => True
  | above, (id, later) :: rest =>
    (∃ looked, adjacent id = looked ++ later ∧ ∀ x ∈ looked, x ∈ order ∨ above = some x) ∧
      Looked adjacent order (some id) rest

/-- More may be finished, and among it the node that came next. -/
theorem Looked.imp {above above' : Option String} {stack : List (String × List String)}
    (h : Looked adjacent order above stack) (hsub : order ⊆ order')
    (habove : ∀ x, above = some x → x ∈ order' ∨ above' = some x) :
    Looked adjacent order' above' stack := by
  induction stack generalizing above above' with
  | nil => exact trivial
  | cons e rest ih =>
    obtain ⟨⟨looked, hadjacent, hlooked⟩, hrest⟩ := h
    refine ⟨⟨looked, hadjacent, fun x hx => ?_⟩, ih hrest fun x hx => Or.inr hx⟩
    rcases hlooked x hx with hdone | hnext
    · exact Or.inl (hsub hdone)
    · exact habove x hnext

namespace Search

variable {s : Search} {above : Option String} {later : List String} {mark : Mark}
variable {rest : List (String × List String)} {marks : Dict Mark}

/-! ## The invariant -/

/-- What holds whenever the loop looks at a dependency. Some node may be about to be entered. -/
structure Inv (adjacent : String → List String) (ids : List String) (above : Option String)
    (s : Search) (order : List String) : Prop where
  /-- The path is the stack from the other end. -/
  path : s.path = (s.stack.map Prod.fst).reverse
  isPath : IsPath (fun a b => b ∈ adjacent a) s.path
  /-- The path is one of nodes that are there. -/
  within : ∀ id ∈ s.path, id ∈ ids
  /-- The marks tell the path and what is finished. -/
  followed : ∀ id, s.marks.get? id = some .followed ↔ id ∈ s.path
  done : ∀ id, s.marks.get? id = some .done ↔ id ∈ order
  settled : Settled adjacent order
  looked : Looked adjacent order above s.stack
  /-- The last node of the path depends on the node that is about to be entered. -/
  leads : ∀ next, above = some next → ∀ x ∈ s.path.getLast?, next ∈ adjacent x

/-- **The next dependency of the last node** may be entered. -/
theorem Inv.look (h : Inv adjacent ids none s order) (hs : s.stack = (id, next :: later) :: rest) :
    Inv adjacent ids (some next) { s with stack := (id, later) :: rest } order := by
  have hpath : s.path = (rest.map Prod.fst).reverse ++ [id] := by simp [h.path, hs]
  have hlooked := h.looked
  rw [hs] at hlooked
  obtain ⟨⟨looked, hadjacent, hdone⟩, hrest⟩ := hlooked
  refine { h with path := ?_, looked := ⟨⟨looked ++ [next], ?_, ?_⟩, hrest⟩, leads := ?_ }
  · simp [hpath]
  · rw [hadjacent, List.append_assoc, List.singleton_append]
  · intro x hx
    rcases List.mem_append.1 hx with hx | hx
    · exact Or.inl ((hdone x hx).resolve_right (by simp))
    · obtain rfl := List.mem_singleton.1 hx
      exact Or.inr rfl
  · rintro x hx y hy
    obtain rfl := Option.some.inj hx
    obtain rfl : id = y := by simpa [hpath] using hy
    rw [hadjacent]
    simp

/-- A node that is finished is passed over. -/
theorem Inv.pass (h : Inv adjacent ids (some next) s order) (hdone : next ∈ order) :
    Inv adjacent ids none s order := by
  refine { h with looked := h.looked.imp (List.Subset.refl _) ?_, leads := by simp }
  rintro x hx
  obtain rfl := Option.some.inj hx
  exact Or.inl hdone

/-- **A node that was not come to before is entered.** -/
theorem Inv.enter (h : Inv adjacent ids (some next) s order) (hmem : next ∈ ids)
    (hnew : s.marks.get? next = none) : Inv adjacent ids none (s.enter adjacent next) order := by
  have hnot : next ∉ s.path := by
    intro hpath
    rw [(h.followed next).2 hpath] at hnew
    cases hnew
  have hfresh : next ∉ order := by
    intro hdone
    rw [(h.done next).2 hdone] at hnew
    cases hnew
  refine ⟨?_, h.isPath.concat (h.leads next rfl) hnot, ?_, ?_, ?_, h.settled,
    ⟨⟨[], rfl, by simp⟩, h.looked⟩, by simp⟩
  · simp [Search.enter, h.path]
  · intro id hid
    rcases List.mem_append.1 hid with hid | hid
    · exact h.within id hid
    · obtain rfl := List.mem_singleton.1 hid
      exact hmem
  · intro id
    show (s.marks.insert next .followed).get? id = _ ↔ id ∈ s.path ++ [next]
    rw [Dict.get?_insert, List.mem_append, List.mem_singleton, ← h.followed]
    by_cases he : next = id
    · simp [he]
    · simp [he, Ne.symm he]
  · intro id
    show (s.marks.insert next .followed).get? id = _ ↔ id ∈ order
    rw [Dict.get?_insert, ← h.done]
    by_cases he : next = id
    · subst he
      simp [hnew]
    · simp [he]

/-- **A node of the path closes a circle.** -/
theorem Inv.isCircle (h : Inv adjacent ids (some next) s order) (hmem : next ∈ s.path) :
    IsCircle (fun a b => b ∈ adjacent a) (s.path.dropWhile (· ≠ next) ++ [next]) :=
  h.isPath.isCircle (h.leads next rfl) hmem

/-- **The last node is finished** once it was followed along all its dependencies. -/
theorem Inv.finish (h : Inv adjacent ids none s order) (hs : s.stack = (id, []) :: rest) :
    Inv adjacent ids none ⟨rest, s.path.dropLast, s.marks.insert id .done⟩ (order ++ [id]) := by
  have hpath : s.path = (rest.map Prod.fst).reverse ++ [id] := by simp [h.path, hs]
  have hdrop : s.path.dropLast = (rest.map Prod.fst).reverse := by rw [hpath, List.dropLast_concat]
  have hisPath := h.isPath
  rw [hpath] at hisPath
  have hnot : id ∉ s.path.dropLast := by
    intro hmem
    rw [hdrop] at hmem
    exact (List.nodup_append.1 hisPath.nodup).2.2 id hmem id (by simp) rfl
  have hlooked := h.looked
  rw [hs] at hlooked
  obtain ⟨⟨looked, hadjacent, hdone⟩, hrest⟩ := hlooked
  refine ⟨hdrop, hdrop ▸ hisPath.of_append, ?_, ?_, ?_, ?_, ?_, by simp⟩
  · exact fun x hx => h.within x ((List.dropLast_sublist _).subset hx)
  · intro x
    show (s.marks.insert id .done).get? x = _ ↔ x ∈ s.path.dropLast
    rw [Dict.get?_insert]
    by_cases he : id = x
    · subst he
      simp [hnot]
    · rw [if_neg he, h.followed, hdrop, hpath]
      simp [Ne.symm he]
  · intro x
    show (s.marks.insert id .done).get? x = _ ↔ x ∈ order ++ [id]
    rw [Dict.get?_insert, List.mem_append, List.mem_singleton, ← h.done]
    by_cases he : id = x
    · simp [he]
    · simp [he, Ne.symm he]
  · refine h.settled.concat fun x hx => ?_
    rw [hadjacent, List.append_nil] at hx
    exact (hdone x hx).resolve_right (by simp)
  · refine hrest.imp (List.subset_append_left _ _) fun x hx => ?_
    obtain rfl := Option.some.inj hx
    exact Or.inl (by simp)

/-! ## The work that is left -/

theorem contains_insert {key x : String} :
    (marks.insert key mark).contains x ↔ x = key ∨ marks.contains x := by
  rw [Dict.contains, Dict.contains, Dict.get?_insert]
  by_cases he : key = x
  · simp [he]
  · simp [he, Ne.symm he]

/-- The nodes that the search has not come to. -/
def unmarked (ids : List String) (marks : Dict Mark) : List String :=
  ids.filter fun id => !marks.contains id

/-- The steps that are left at most: those of the nodes on the stack and of all that the search has
not come to. -/
def work (adjacent : String → List String) (ids : List String) (s : Search) : Nat :=
  (s.stack.map fun e => e.2.length + 1).sum + cost adjacent (unmarked ids s.marks)

theorem unmarked_insert (ids : List String) (marks : Dict Mark) (key : String) (mark : Mark) :
    unmarked ids (marks.insert key mark) = (unmarked ids marks).filter fun id => id ≠ key := by
  rw [unmarked, unmarked, List.filter_filter]
  refine List.filter_congr fun id _ => ?_
  rw [Bool.eq_iff_iff]
  simp only [Bool.not_eq_true', Bool.and_eq_true, decide_eq_true_eq, ← Bool.not_eq_true,
    contains_insert]
  tauto

/-- A new mark on a node that has one makes no difference. -/
theorem unmarked_insert_of_contains {key : String} (h : marks.contains key) (mark : Mark) :
    unmarked ids (marks.insert key mark) = unmarked ids marks := by
  rw [unmarked_insert, List.filter_eq_self]
  intro x hx
  have hnot : ¬ marks.contains x := by simpa using (List.mem_filter.1 hx).2
  exact decide_eq_true fun he => hnot (he ▸ h)

theorem cost_eq_sum (adjacent : String → List String) (ids : List String) :
    cost adjacent ids = (ids.map fun id => (adjacent id).length + 1).sum := by
  rw [cost, List.sum_eq_foldr, List.foldr_map]

/-- A node that gets a mark takes its steps with it. -/
theorem cost_unmarked_insert (adjacent : String → List String) (hnodup : ids.Nodup)
    (hmem : next ∈ ids) (hnew : ¬ marks.contains next) (mark : Mark) :
    (adjacent next).length + 1 + cost adjacent (unmarked ids (marks.insert next mark)) =
      cost adjacent (unmarked ids marks) := by
  have hin : next ∈ unmarked ids marks := List.mem_filter.2 ⟨hmem, by simpa using hnew⟩
  have herase : unmarked ids (marks.insert next mark) = (unmarked ids marks).erase next := by
    have hunmarked : (unmarked ids marks).Nodup := hnodup.filter _
    rw [unmarked_insert, hunmarked.erase_eq_filter]
    refine List.filter_congr fun x _ => ?_
    rw [Bool.eq_iff_iff, decide_eq_true_iff, bne_iff_ne]
  rw [herase, cost_eq_sum, cost_eq_sum]
  exact List.sum_map_erase (fun id => (adjacent id).length + 1) hin

theorem cost_unmarked_le (adjacent : String → List String) (ids : List String) (marks : Dict Mark) :
    cost adjacent (unmarked ids marks) ≤ cost adjacent ids := by
  rw [cost_eq_sum, cost_eq_sum]
  exact (List.filter_sublist.map _).sum_le_sum fun _ _ => Nat.zero_le _

/-- Where nothing is left to do, no node is being followed. -/
theorem stack_eq_nil_of_work (h : work adjacent ids s ≤ 0) : s.stack = [] := by
  cases hs : s.stack with
  | nil => rfl
  | cons e rest =>
    rw [work, hs, List.map_cons, List.sum_cons] at h
    omega

/-! ## Steps and runs -/

/-- What the search runs on: nodes that are listed once and depend on nodes of the list. -/
structure Closed (adjacent : String → List String) (ids : List String) : Prop where
  nodup : ids.Nodup
  mem : ∀ id ∈ ids, ∀ next ∈ adjacent id, next ∈ ids

theorem step_of_dependency (adjacent : String → List String)
    (hs : s.stack = (id, next :: later) :: rest) :
    s.step adjacent =
      match s.marks.get? next with
      | some .followed => .error (s.path.dropWhile (· ≠ next) ++ [next])
      | some .done => .ok { s with stack := (id, later) :: rest }
      | none => .ok ({ s with stack := (id, later) :: rest }.enter adjacent next) := by
  obtain ⟨stack, path, marks⟩ := s
  obtain rfl : stack = (id, next :: later) :: rest := hs
  rfl

/-- **Step**: the invariant is kept, marks stay, and there is less work left; or a circle is
found. -/
theorem Inv.step (h : Inv adjacent ids none s order) (hc : Closed adjacent ids)
    (hne : s.stack ≠ []) :
    (∃ s' order', s.step adjacent = .ok s' ∧ Inv adjacent ids none s' order' ∧
      (∀ x, s.marks.contains x → s'.marks.contains x) ∧
      work adjacent ids s' < work adjacent ids s) ∨
    ∃ circle, s.step adjacent = .error circle ∧ IsCircle (fun a b => b ∈ adjacent a) circle := by
  match hs : s.stack with
  | [] => exact absurd hs hne
  | (id, []) :: rest =>
    have hmark : s.marks.contains id := by
      have hmem : id ∈ s.path := by simp [h.path, hs]
      rw [Dict.contains, (h.followed id).2 hmem]
      rfl
    refine Or.inl ⟨_, _, by rw [Search.step, hs], h.finish hs,
      fun x hx => contains_insert.2 (Or.inr hx), ?_⟩
    simp only [work, hs, List.map_cons, List.sum_cons, unmarked_insert_of_contains hmark]
    omega
  | (id, next :: later) :: rest =>
    have hlook := h.look hs
    have hmem : next ∈ ids := by
      have hid : id ∈ s.path := by simp [h.path, hs]
      refine hc.mem id (h.within id hid) next ?_
      exact hlook.leads next rfl id (by simp [h.path, hs])
    have hstep := step_of_dependency adjacent hs
    cases hmark : s.marks.get? next with
    | none =>
      have hnew : ¬ s.marks.contains next := by
        rw [Dict.contains, hmark]
        exact Bool.false_ne_true
      refine Or.inl ⟨_, _, by rw [hstep, hmark], hlook.enter hmem hmark,
        fun x hx => contains_insert.2 (Or.inr hx), ?_⟩
      have hcost := cost_unmarked_insert adjacent hc.nodup hmem hnew .followed
      simp only [work, Search.enter, hs, List.map_cons, List.sum_cons, List.length_cons]
      omega
    | some mark =>
      cases mark with
      | followed =>
        exact Or.inr ⟨_, by rw [hstep, hmark], hlook.isCircle ((h.followed next).1 hmark)⟩
      | done =>
        refine Or.inl ⟨_, _, by rw [hstep, hmark], hlook.pass ((h.done next).1 hmark),
          fun x hx => hx, ?_⟩
        simp only [work, hs, List.map_cons, List.sum_cons, List.length_cons]
        omega

/-- **Run**: with as many steps as there is work left, the loop ends with an empty stack, or finds a
circle. -/
theorem Inv.run {steps : Nat} (h : Inv adjacent ids none s order) (hc : Closed adjacent ids)
    (hwork : work adjacent ids s ≤ steps) :
    (∃ s' order', s.run adjacent steps = .ok s' ∧ s'.stack = [] ∧
      Inv adjacent ids none s' order' ∧ ∀ x, s.marks.contains x → s'.marks.contains x) ∨
    ∃ circle, s.run adjacent steps = .error circle ∧
      IsCircle (fun a b => b ∈ adjacent a) circle := by
  induction steps generalizing s order with
  | zero => exact Or.inl ⟨s, order, rfl, stack_eq_nil_of_work hwork, h, fun x hx => hx⟩
  | succ steps ih =>
    rw [Search.run]
    by_cases hs : s.stack = []
    · rw [if_pos (List.isEmpty_iff.2 hs)]
      exact Or.inl ⟨s, order, rfl, hs, h, fun x hx => hx⟩
    · rw [if_neg fun hempty => hs (List.isEmpty_iff.1 hempty)]
      rcases h.step hc hs with ⟨s', order', hstep, h', hmarks, hless⟩ | ⟨circle, hstep, hcircle⟩
      · rw [hstep]
        rcases ih h' (by omega) with ⟨t, last, hrun, hend, ht, hkeep⟩ | hfound
        · exact Or.inl ⟨t, last, hrun, hend, ht, fun x hx => hkeep x (hmarks x hx)⟩
        · exact Or.inr hfound
      · rw [hstep]
        exact Or.inr ⟨circle, rfl, hcircle⟩

/-! ## All nodes -/

/-- What holds between two nodes: each mark says that a node is finished. -/
def Between (adjacent : String → List String) (ids : List String) (marks : Dict Mark) : Prop :=
  ∃ order, Inv adjacent ids none ⟨[], [], marks⟩ order

theorem between_empty (adjacent : String → List String) (ids : List String) :
    Between adjacent ids .empty :=
  ⟨[], rfl, isPath_nil, by simp, by simp, by simp, settled_nil, trivial, by simp⟩

theorem Between.follow (h : Between adjacent ids marks) (hc : Closed adjacent ids)
    (hroot : root ∈ ids) :
    (∃ marks', Search.follow adjacent ids marks root = .ok marks' ∧ Between adjacent ids marks' ∧
      marks'.contains root ∧ ∀ x, marks.contains x → marks'.contains x) ∨
    ∃ circle, Search.follow adjacent ids marks root = .error circle ∧
      IsCircle (fun a b => b ∈ adjacent a) circle := by
  rw [Search.follow]
  by_cases hmark : marks.contains root
  · rw [if_pos hmark]
    exact Or.inl ⟨marks, rfl, h, hmark, fun x hx => hx⟩
  · obtain ⟨order, hinv⟩ := h
    have habove : Inv adjacent ids (some root) ⟨[], [], marks⟩ order :=
      { hinv with looked := trivial, leads := by simp }
    have hnew : marks.get? root = none := by simpa [Dict.contains] using hmark
    have hwork : work adjacent ids (enter adjacent ⟨[], [], marks⟩ root) ≤ cost adjacent ids := by
      have hcost := cost_unmarked_insert adjacent hc.nodup hroot hmark .followed
      have hle := cost_unmarked_le adjacent ids marks
      simp only [work, Search.enter, List.map_cons, List.map_nil, List.sum_cons, List.sum_nil]
      omega
    rw [if_neg hmark]
    rcases (habove.enter hroot hnew).run hc hwork with
      ⟨⟨stack, path, marks'⟩, order', hrun, rfl, hinv', hkeep⟩ | ⟨circle, hrun, hcircle⟩
    · obtain rfl : path = [] := hinv'.path
      rw [hrun]
      exact Or.inl ⟨marks', rfl, ⟨order', hinv'⟩, hkeep root (contains_insert.2 (Or.inl rfl)),
        fun x hx => hkeep x (contains_insert.2 (Or.inr hx))⟩
    · rw [hrun]
      exact Or.inr ⟨circle, rfl, hcircle⟩

theorem Between.foldlM_follow {roots : List String} (h : Between adjacent ids marks)
    (hc : Closed adjacent ids) (hroots : roots ⊆ ids) :
    (∃ marks', roots.foldlM (Search.follow adjacent ids) marks = .ok marks' ∧
      Between adjacent ids marks' ∧ (∀ x ∈ roots, marks'.contains x) ∧
      ∀ x, marks.contains x → marks'.contains x) ∨
    ∃ circle, roots.foldlM (Search.follow adjacent ids) marks = .error circle ∧
      IsCircle (fun a b => b ∈ adjacent a) circle := by
  induction roots generalizing marks with
  | nil => exact Or.inl ⟨marks, rfl, h, by simp, fun x hx => hx⟩
  | cons root roots ih =>
    obtain ⟨hroot, hrest⟩ := List.cons_subset.1 hroots
    rw [List.foldlM_cons]
    rcases h.follow hc hroot with ⟨mid, hmid, hbetween, hmark, hkeep⟩ | ⟨circle, herror, hcircle⟩
    · rw [hmid]
      rcases ih hbetween hrest with ⟨marks', hrun, h', hall, hkeep'⟩ | hfound
      · refine Or.inl ⟨marks', hrun, h', ?_, fun x hx => hkeep' x (hkeep x hx)⟩
        intro x hx
        rcases List.mem_cons.1 hx with rfl | hx
        · exact hkeep' x hmark
        · exact hall x hx
      · exact Or.inr hfound
    · rw [herror]
      exact Or.inr ⟨circle, rfl, hcircle⟩

/-- **The search ends with all nodes in an order in which each comes after what it depends on, or
else with a circle.** -/
theorem followAll_cases (hc : Closed adjacent ids) :
    (∃ marks order, followAll adjacent ids = .ok marks ∧ Settled adjacent order ∧
      ∀ id ∈ ids, id ∈ order) ∨
    ∃ circle, followAll adjacent ids = .error circle ∧
      IsCircle (fun a b => b ∈ adjacent a) circle := by
  rcases (between_empty adjacent ids).foldlM_follow hc
      (List.Subset.refl ids) with ⟨marks, hrun, ⟨order, hinv⟩, hall, -⟩ | hfound
  · refine Or.inl ⟨marks, order, hrun, hinv.settled, fun id hid => ?_⟩
    obtain ⟨mark, hmark⟩ := Option.isSome_iff_exists.1 (hall id hid)
    cases mark with
    | followed => exact absurd ((hinv.followed id).1 hmark) (by simp)
    | done => exact (hinv.done id).1 hmark
  · exact Or.inr hfound

end Search

end NodeFlow
