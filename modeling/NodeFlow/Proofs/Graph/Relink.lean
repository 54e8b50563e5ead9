import NodeFlow.Proofs.Graph.Input
/-!
# Changing the links of a node

`Node.mapLinks` sends every connection of a node through a function of links
and leaves everything else as it is. Wiring all consumers of an output to
another node is of this kind (`Link.redirect`), and so is a change of ids.
`Relinked` says of a workflow that its nodes are those of another with their
links changed so, with more nodes behind them.
-/

namespace NodeFlow

/-- What an input holds, its connection sent through a function. -/
def InputValue.mapLink (f : Link → Link) : InputValue → InputValue
  | .connection source output => (f ⟨source, output⟩).toInput
  | v => v

/-- The first output of a node gives way to the first output of another. -/
def Link.redirect (source last : String) (l : Link) : Link :=
  if l = ⟨source, 0⟩ then ⟨last, 0⟩ else l

@[simp] theorem Link.redirect_self (source : String) (l : Link) : l.redirect source source = l := by
  rw [redirect]
  split
  · rename_i h
    exact h.symm
  · rfl

theorem Link.redirect_of_ne {source : String} {l : Link} (h : l.source ≠ source) (last : String) :
    l.redirect source last = l := by
  rw [redirect, if_neg]
  rintro rfl
  exact h rfl

theorem InputValue.mapLink_redirect_of_ne {source : String} {v : InputValue}
    (h : v ≠ .connection source 0) (last : String) : v.mapLink (Link.redirect source last) = v := by
  cases v with
  | literal value => rfl
  | slot type => rfl
  | connection source' output =>
    have hother : (⟨source', output⟩ : Link) ≠ ⟨source, 0⟩ := by
      rintro heq
      obtain ⟨rfl, rfl⟩ := Link.mk.inj heq
      exact h rfl
    rw [mapLink, Link.redirect, if_neg hother]
    rfl

theorem InputValue.mapLink_mapLink (f f' : Link → Link) (v : InputValue) :
    (v.mapLink f).mapLink f' = v.mapLink fun l => f' (f l) := by
  cases v <;> rfl

namespace Node

variable {n : Node} {f f' : Link → Link}

/-- A node with all its connections sent through a function. -/
def mapLinks (f : Link → Link) (n : Node) : Node :=
  { n with inputs := n.inputs.map fun _ v => v.mapLink f }

theorem mapLinks_mapLinks (f f' : Link → Link) (n : Node) :
    (n.mapLinks f).mapLinks f' = n.mapLinks fun l => f' (f l) := by
  simp [mapLinks, Dict.map_map, InputValue.mapLink_mapLink]

/-- Only the links that a node has are looked at. -/
theorem mapLinks_congr (h : ∀ input l, n.link? input = some l → f l = f' l) :
    n.mapLinks f = n.mapLinks f' := by
  have hinputs : n.inputs.map (fun _ v => v.mapLink f) = n.inputs.map fun _ v => v.mapLink f' := by
    refine Dict.ext (List.map_congr_left fun e he => ?_)
    obtain ⟨input, v⟩ := e
    cases v with
    | literal value => rfl
    | slot type => rfl
    | connection source output =>
      have hlink : n.link? input = some ⟨source, output⟩ :=
        link?_eq_some_iff.2 (Dict.get?_eq_some_iff.2 he)
      simp [InputValue.mapLink, h input _ hlink]
  rw [mapLinks, mapLinks, hinputs]

theorem mapLinks_of_fixes (h : ∀ input l, n.link? input = some l → f l = l) : n.mapLinks f = n := by
  have hid : n.mapLinks (fun l => l) = n := by
    have hinputs : n.inputs.map (fun _ v => v.mapLink fun l => l) = n.inputs := by
      refine Dict.ext ((List.map_congr_left fun e _ => ?_).trans (List.map_id _))
      obtain ⟨input, v⟩ := e
      cases v <;> rfl
    rw [mapLinks, hinputs]
  rw [mapLinks_congr h, hid]

theorem links_mapLinks (f : Link → Link) (n : Node) :
    (n.mapLinks f).links = n.links.map fun l => (l.1, f l.2) := by
  rw [links, links, mapLinks, Dict.map, List.filterMap_map, List.map_filterMap]
  refine List.filterMap_congr fun e _ => ?_
  obtain ⟨input, v⟩ := e
  cases v <;> rfl

end Node

namespace Graph

variable {f : Link → Link} {extra : List (String × Node)} {g h : Graph} {id : String} {n : Node}

/-- A workflow has the nodes of another with their links sent through a function, followed by
further nodes, none of them bypassed. -/
structure Relinked (f : Link → Link) (extra : List (String × Node)) (g h : Graph) : Prop where
  entries : h.nodes.entries = g.nodes.entries.map (fun e => (e.1, e.2.mapLinks f)) ++ extra
  /-- Nothing but the nodes is another. -/
  rest : h = { g with nodes := h.nodes }
  active : ∀ e ∈ extra, e.2.isBypassed = false

theorem Relinked.node?_eq (hr : g.Relinked f extra h) (hn : g.node? id = some n) :
    h.node? id = some (n.mapLinks f) := by
  refine Dict.get?_eq_some_iff.2 ?_
  rw [hr.entries]
  exact List.mem_append_left _
    (List.mem_map_of_mem (f := fun e : String × Node => (e.1, e.2.mapLinks f))
      (Dict.get?_eq_some_iff.1 hn))

theorem Relinked.inputAt?_eq (hr : g.Relinked f extra h) (hid : g.has id) (input : String) :
    h.inputAt? id input = (g.inputAt? id input).map (InputValue.mapLink f) := by
  obtain ⟨n, hn⟩ := has_iff.1 hid
  rw [inputAt?_of_node? hn, inputAt?_of_node? (hr.node?_eq hn)]
  exact Dict.get?_map _ _ _

theorem Relinked.has (hr : g.Relinked f extra h) (hid : g.has id) : h.has id := by
  obtain ⟨n, hn⟩ := has_iff.1 hid
  exact has_iff.2 ⟨_, hr.node?_eq hn⟩

theorem Relinked.keys_eq (hr : g.Relinked f extra h) :
    h.nodes.keys = g.nodes.keys ++ Entries.keys extra := by
  rw [Dict.keys, hr.entries, Entries.keys_append]
  simp [Dict.keys, Entries.keys, Function.comp_def]

theorem Relinked.wellKeyed (hr : g.Relinked f extra h) (hk : g.WellKeyed)
    (hextra : ∀ e ∈ extra, e.2.id = e.1) : h.WellKeyed := by
  intro e he
  rw [hr.entries, List.mem_append] at he
  rcases he with hold | hnew
  · obtain ⟨old, hmem, rfl⟩ := List.mem_map.1 hold
    exact hk old hmem
  · exact hextra e hnew

/-- Links changed twice are changed by both functions. -/
theorem Relinked.trans {f' : Link → Link} {extra' : List (String × Node)} {k : Graph}
    (hr : g.Relinked f extra h) (hr' : h.Relinked f' extra' k) :
    g.Relinked (fun l => f' (f l)) (extra.map (fun e => (e.1, e.2.mapLinks f')) ++ extra') k where
  entries := by
    rw [hr'.entries, hr.entries, List.map_append, List.map_map, List.append_assoc]
    simp only [Function.comp_def, Node.mapLinks_mapLinks]
  rest := by rw [hr'.rest, hr.rest]
  active e he := by
    rcases List.mem_append.1 he with hold | hnew
    · obtain ⟨old, hmem, rfl⟩ := List.mem_map.1 hold
      exact hr.active old hmem
    · exact hr'.active e hnew

/-- **The nodes of a class type** are those that were there, where every node keeps its class type
and none of the further nodes has it. -/
theorem ofType_of_entries {F : Node → Node} {classType : String}
    (hentries : h.nodes.entries = g.nodes.entries.map (fun e => (e.1, F e.2)) ++ extra)
    (hF : ∀ n, (F n).classType = n.classType) (hextra : ∀ e ∈ extra, e.2.classType ≠ classType) :
    h.ofType classType = (g.ofType classType).map F := by
  have hnew : (extra.map Prod.snd).filter (fun n => n.classType = classType) = [] := by
    refine List.filter_eq_nil_iff.2 fun n hn => ?_
    obtain ⟨e, he, rfl⟩ := List.mem_map.1 hn
    simpa using hextra e he
  have hsame : (fun n : Node => decide (n.classType = classType)) ∘ F =
      fun n => decide (n.classType = classType) := by
    funext n
    simp [hF]
  have hold : (g.nodes.entries.map fun e => (e.1, F e.2)).map Prod.snd =
      (g.nodes.entries.map Prod.snd).map F := by
    simp [Function.comp_def]
  rw [ofType, ofType, nodeList, nodeList, Dict.values, Dict.values, hentries, List.map_append,
    List.filter_append, hnew, List.append_nil, hold, List.filter_map, hsame]

end Graph

end NodeFlow
