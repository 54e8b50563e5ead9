import NodeFlow.Proofs.Validation.Cycle
/-!
# The search for cycles on a table

What nodes depend on can be written down in a table first, which has an entry
for each key. A link is written down under the id of the node that it feeds,
and following a node looks it up under its key, so either may ask for an entry
that is not there. `Graph.cycleByTable?` is the search with these failures.
Where nodes stand under their ids nothing is missing, and what is found is
what the search finds on the dependencies themselves (`cycleByTable?_eq`).
-/

namespace NodeFlow

namespace Search

/-- What ends a search with a table early. -/
inductive Stop where
  /-- A cycle was found. -/
  | cycle (ids : List String)
  /-- The table has no entry for a node. -/
  | missing (id : String)
  deriving DecidableEq

/-- Begins to follow a node along its entry. -/
def enterIn (table : Dict (List String)) (s : Search) (id : String) : Except Stop Search :=
  match table.get? id with
  | some ids => .ok (s.enter (fun _ => ids) id)
  | none => .error (.missing id)

/-- Looks at one more dependency of the last node, or finishes it. -/
def stepIn (table : Dict (List String)) (s : Search) : Except Stop Search :=
  match s.stack with
  | [] => .ok s
  | (id, []) :: rest =>
    .ok { stack := rest, path := s.path.dropLast, marks := s.marks.insert id .done }
  | (id, next :: later) :: rest =>
    match s.marks.get? next with
    | some .followed => .error (.cycle (s.path.dropWhile (· ≠ next) ++ [next]))
    | some .done => .ok { s with stack := (id, later) :: rest }
    | none => { s with stack := (id, later) :: rest }.enterIn table next

/-- Goes on until no node is being followed, for a number of steps at most. -/
def runIn (table : Dict (List String)) : Nat → Search → Except Stop Search
  | 0, s => .ok s
  | steps + 1, s => if s.stack.isEmpty then .ok s else (s.stepIn table).bind (runIn table steps)

/-- Follows a node, unless the search has come to it before. -/
def followIn (table : Dict (List String)) (marks : Dict Mark) (root : String) :
    Except Stop (Dict Mark) :=
  if marks.contains root then .ok marks
  else (enterIn table ⟨[], [], marks⟩ root).bind fun s =>
    (runIn table (cost (fun id => (table.get? id).getD []) table.keys) s).map Search.marks

/-- Follows all nodes of a table, one after the other. -/
def followAllIn (table : Dict (List String)) : Except Stop (Dict Mark) :=
  table.keys.foldlM (followIn table) .empty

end Search

namespace Graph

/-- Writes a link down in a table, if the table has its source. -/
def writeDown (table : Dict (List String)) (e : Edge) : Except Search.Stop (Dict (List String)) :=
  if table.contains e.source then
    match table.get? e.target with
    | some ids => .ok (table.insert e.target (ids ++ [e.source]))
    | none => .error (.missing e.target)
  else .ok table

/-- The table of what nodes depend on. -/
def table (g : Graph) : Except Search.Stop (Dict (List String)) :=
  g.edges.foldlM writeDown (g.nodes.map fun _ _ => [])

/-- A cycle, as far as the table has what the search asks it for. -/
def cycleByTable? (g : Graph) : Except String (Option (List String)) :=
  match g.table.bind Search.followAllIn with
  | .ok _ => .ok none
  | .error (.cycle ids) => .ok (some ids)
  | .error (.missing id) => .error id

end Graph

/-! ## Looking up what is there -/

namespace Search

variable {table : Dict (List String)} {adjacent : String → List String} {s s' : Search}
variable {ids : List String} {id root : String} {marks : Dict Mark}

/-- A table has the entries of the given nodes, and these lead to no others. -/
structure Tabulates (table : Dict (List String)) (adjacent : String → List String)
    (ids : List String) : Prop where
  entry : ∀ id ∈ ids, table.get? id = some (adjacent id)
  closed : Closed adjacent ids

/-- Whatever is still to be looked at is among the given nodes. -/
def Within (ids : List String) (s : Search) : Prop :=
  ∀ e ∈ s.stack, ∀ id ∈ e.2, id ∈ ids

theorem enterIn_eq (ht : Tabulates table adjacent ids) (hid : id ∈ ids) :
    s.enterIn table id = .ok (s.enter adjacent id) := by
  rw [enterIn, ht.entry id hid]
  rfl

theorem Within.enter (ht : Tabulates table adjacent ids) (hs : Within ids s) (hid : id ∈ ids) :
    Within ids (s.enter adjacent id) := by
  intro e he next hnext
  rcases List.mem_cons.1 he with rfl | he
  · exact ht.closed.mem id hid next hnext
  · exact hs e he next hnext

/-- **Step: nothing is missing**, and what comes next is still within the given nodes. -/
theorem stepIn_eq (ht : Tabulates table adjacent ids) (hs : Within ids s) :
    s.stepIn table = (s.step adjacent).mapError .cycle ∧
      ∀ s', s.step adjacent = .ok s' → Within ids s' := by
  obtain ⟨stack, path, marks⟩ := s
  match stack with
  | [] => exact ⟨rfl, fun s' h => Except.ok.inj h ▸ hs⟩
  | (id, []) :: rest =>
    refine ⟨rfl, ?_⟩
    rintro s' h
    obtain rfl := Except.ok.inj h
    exact fun e he => hs e (List.mem_cons_of_mem _ he)
  | (id, next :: later) :: rest =>
    have hnext : next ∈ ids := hs (id, next :: later) (by simp) next (by simp)
    have hlater : Within ids ⟨(id, later) :: rest, path, marks⟩ := by
      intro e he x hx
      rcases List.mem_cons.1 he with rfl | he
      · exact hs (id, next :: later) (by simp) x (List.mem_cons_of_mem _ hx)
      · exact hs e (List.mem_cons_of_mem _ he) x hx
    simp only [stepIn, step]
    cases marks.get? next with
    | none =>
      refine ⟨enterIn_eq ht hnext, ?_⟩
      rintro s' h
      obtain rfl := Except.ok.inj h
      exact hlater.enter ht hnext
    | some mark =>
      cases mark with
      | followed => exact ⟨rfl, nofun⟩
      | done =>
        refine ⟨rfl, ?_⟩
        rintro s' h
        obtain rfl := Except.ok.inj h
        exact hlater

/-- **Run: nothing is ever missing.** -/
theorem runIn_eq (ht : Tabulates table adjacent ids) (steps : Nat) (hs : Within ids s) :
    runIn table steps s = (run adjacent steps s).mapError .cycle := by
  induction steps generalizing s with
  | zero => rfl
  | succ steps ih =>
    obtain ⟨hstep, hwithin⟩ := stepIn_eq ht hs
    rw [runIn, run, hstep]
    split
    · rfl
    · cases hnext : s.step adjacent with
      | error ids' => rfl
      | ok s' => exact ih (hwithin s' hnext)

theorem cost_congr {adjacent' : String → List String}
    (h : ∀ id ∈ ids, adjacent' id = adjacent id) : cost adjacent' ids = cost adjacent ids := by
  induction ids with
  | nil => rfl
  | cons id ids ih =>
    have hrest := ih fun x hx => h x (List.mem_cons_of_mem _ hx)
    rw [cost, cost] at hrest ⊢
    rw [List.foldr_cons, List.foldr_cons, hrest, h id (by simp)]

theorem followIn_eq (ht : Tabulates table adjacent ids) (hkeys : table.keys = ids)
    (hroot : root ∈ ids) :
    followIn table marks root = (follow adjacent ids marks root).mapError .cycle := by
  have hcost : cost (fun id => (table.get? id).getD []) table.keys = cost adjacent ids := by
    rw [hkeys]
    exact cost_congr fun id hid => by rw [ht.entry id hid, Option.getD_some]
  have hstart : Within ids (enter adjacent ⟨[], [], marks⟩ root) :=
    Within.enter ht (s := ⟨[], [], marks⟩) nofun hroot
  rw [followIn, follow, hcost, enterIn_eq ht hroot]
  split
  · rfl
  · show (runIn table (cost adjacent ids) _).map Search.marks = _
    rw [runIn_eq ht _ hstart]
    cases run adjacent (cost adjacent ids) (enter adjacent ⟨[], [], marks⟩ root) <;> rfl

theorem followAllIn_eq (ht : Tabulates table adjacent ids) (hkeys : table.keys = ids) :
    followAllIn table = (followAll adjacent ids).mapError .cycle := by
  have hall : ∀ roots, roots ⊆ ids → ∀ marks,
      roots.foldlM (followIn table) marks =
        (roots.foldlM (follow adjacent ids) marks).mapError .cycle := by
    intro roots
    induction roots with
    | nil => exact fun _ _ => rfl
    | cons root roots ih =>
      intro hsub marks
      rw [List.foldlM_cons, List.foldlM_cons, followIn_eq ht hkeys (hsub (by simp))]
      cases follow adjacent ids marks root with
      | error ids' => rfl
      | ok marks' => exact ih (fun x hx => hsub (List.mem_cons_of_mem _ hx)) marks'
  rw [followAllIn, followAll, hkeys]
  exact hall ids (List.Subset.refl _) _

end Search

namespace Graph

variable {g : Graph} {table : Dict (List String)} {id : String}

/-! ## Writing down what is there -/

/-- The sources of links to a node, as far as there are entries for them. -/
def sourcesIn (keys : List String) (es : List Edge) (id : String) : List String :=
  (es.filter fun e => e.target = id && keys.contains e.source).map Edge.source

theorem exists_writeDown {e : Edge} (he : e.target ∈ table.keys) :
    ∃ longer, writeDown table e = .ok longer ∧ longer.keys = table.keys ∧
      ∀ id, longer.get? id = (table.get? id).map (· ++ sourcesIn table.keys [e] id) := by
  rw [writeDown]
  by_cases hsource : table.contains e.source
  · obtain ⟨ids, hids⟩ := Dict.mem_keys_iff.1 he
    have hkeys : (table.insert e.target (ids ++ [e.source])).keys = table.keys := by
      rw [Dict.keys_insert, if_pos he]
    rw [if_pos hsource, hids]
    refine ⟨_, rfl, hkeys, fun id => ?_⟩
    rw [Dict.get?_insert]
    by_cases hid : e.target = id
    · subst hid
      simp [sourcesIn, hids, (Dict.contains_iff _ _).1 hsource]
    · simp [sourcesIn, hid]
  · have hmem : e.source ∉ table.keys := fun h => hsource ((Dict.contains_iff _ _).2 h)
    rw [if_neg hsource]
    exact ⟨table, rfl, rfl, fun id => by simp [sourcesIn, hmem]⟩

/-- **Links are written down** under their targets, where there are entries for these. -/
theorem exists_foldlM_writeDown {es : List Edge} (hes : ∀ e ∈ es, e.target ∈ table.keys) :
    ∃ full, es.foldlM writeDown table = .ok full ∧ full.keys = table.keys ∧
      ∀ id, full.get? id = (table.get? id).map (· ++ sourcesIn table.keys es id) := by
  induction es generalizing table with
  | nil => exact ⟨table, rfl, rfl, fun id => by simp [sourcesIn]⟩
  | cons e es ih =>
    obtain ⟨longer, hlonger, hkeys, hget⟩ := exists_writeDown (hes e (by simp))
    have hlater : ∀ e' ∈ es, e'.target ∈ longer.keys :=
      fun e' he' => hkeys ▸ hes e' (List.mem_cons_of_mem _ he')
    obtain ⟨full, hfull, hkeys', hget'⟩ := ih hlater
    refine ⟨full, by rw [List.foldlM_cons, hlonger]; exact hfull, hkeys'.trans hkeys, fun id => ?_⟩
    rw [hget', hget, hkeys, Option.map_map]
    congr 1
    funext ids
    show ids ++ _ ++ _ = _
    rw [List.append_assoc, sourcesIn, sourcesIn, ← List.map_append, ← List.filter_append]
    rfl

/-- The edges that end at a node. -/
def edgesTo (n : Node) : List Edge := n.links.map fun l => ⟨l.2.source, l.2.output, n.id, l.1⟩

theorem filter_edgesTo (n : Node) (id : String) :
    ((edgesTo n).filter fun e => e.target = id) = if n.id = id then edgesTo n else [] := by
  have htarget : ∀ e ∈ edgesTo n, e.target = n.id := by
    intro e he
    obtain ⟨l, -, rfl⟩ := List.mem_map.1 he
    rfl
  split
  · rename_i hid
    exact List.filter_eq_self.2 fun e he => decide_eq_true ((htarget e he).trans hid)
  · rename_i hid
    refine List.filter_eq_nil_iff.2 fun e he => ?_
    rw [htarget e he]
    simpa using hid

theorem filter_flatMap_edgesTo (nodes : List Node) (id : String) :
    ((nodes.flatMap edgesTo).filter fun e => e.target = id) =
      (nodes.filter fun n => n.id = id).flatMap edgesTo := by
  induction nodes with
  | nil => rfl
  | cons n nodes ih =>
    rw [List.flatMap_cons, List.filter_append, filter_edgesTo, ih]
    by_cases hid : n.id = id <;> simp [hid]

theorem incoming_eq (hk : g.WellKeyed) (id : String) :
    g.incoming id = (g.node? id).toList.flatMap edgesTo := by
  have hnodes : (g.nodeList.filter fun n => n.id = id) = (g.node? id).toList :=
    Dict.filter_values_eq (fun key n hn => hk.id_eq hn) id
  rw [← hnodes, ← filter_flatMap_edgesTo]
  rfl

/-- What is written down for a node is what it depends on. -/
theorem sourcesIn_edges (hk : g.WellKeyed) (id : String) :
    sourcesIn g.nodes.keys g.edges id = g.dependencies id := by
  have hsplit : (g.edges.filter fun e => e.target = id && g.nodes.keys.contains e.source) =
      (g.incoming id).filter fun e => g.has e.source := by
    rw [incoming, List.filter_filter]
    refine List.filter_congr fun e _ => ?_
    rw [Bool.eq_iff_iff]
    simp [has_iff_mem_keys, and_comm]
  rw [sourcesIn, hsplit, incoming_eq hk, dependencies]
  cases g.node? id with
  | none => rfl
  | some n => simp [edgesTo, List.filter_map, Function.comp_def]

theorem exists_table (hk : g.WellKeyed) :
    ∃ table, g.table = .ok table ∧ table.keys = g.nodes.keys ∧
      Search.Tabulates table g.dependencies g.nodes.keys := by
  have htargets : ∀ e ∈ g.edges, e.target ∈ (g.nodes.map fun _ _ => ([] : List String)).keys := by
    intro e he
    rw [Dict.keys_map]
    exact has_iff_mem_keys.1 (has_of_linkAt? ((mem_edges_iff hk).1 he))
  obtain ⟨full, hfull, hkeys, hget⟩ := exists_foldlM_writeDown htargets
  rw [Dict.keys_map] at hkeys hget
  refine ⟨full, hfull, hkeys, ⟨fun id hid => ?_, g.closed_dependencies⟩⟩
  obtain ⟨n, hn⟩ := Dict.mem_keys_iff.1 hid
  rw [hget, Dict.get?_map, hn, sourcesIn_edges hk]
  rfl

/-- **On a workflow whose nodes stand under their ids nothing is missing**, neither where the table
is written nor where the search looks something up, and the search finds what it does without. -/
theorem cycleByTable?_eq (hk : g.WellKeyed) : g.cycleByTable? = .ok g.cycle? := by
  obtain ⟨table, htable, hkeys, ht⟩ := exists_table hk
  rw [cycleByTable?, cycle?, htable]
  show (match Search.followAllIn table with
    | .ok _ => _
    | .error (.cycle ids) => _
    | .error (.missing id) => _) = _
  rw [Search.followAllIn_eq ht hkeys]
  cases Search.followAll g.dependencies g.nodes.keys <;> rfl

/-- A node under another key than its id is missed. -/
example :
    cycleByTable? { nodes := .ofList [("1", { id := "1", classType := "Loader" }),
      ("2", { id := "3", classType := "Sampler"
              inputs := .ofList [("model", .connection "1" 0)] })] } = .error "3" := by
  rfl

end Graph

end NodeFlow
