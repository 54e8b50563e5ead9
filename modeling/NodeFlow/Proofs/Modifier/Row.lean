import NodeFlow.Proofs.Graph.Renaming
import NodeFlow.Proofs.Modifier.Injection
/-!
# What a fresh chain leaves

A chain goes in as a row of modifiers behind the nodes that are there, and
whatever the first output of its source fed is fed by the end of the row.
`Spliced` says this of the result with the number that the row starts at, so
two workflows with a chain behind the same node can be compared. The numbers
must be short enough to be written.
-/

namespace NodeFlow

variable {cfg : CompilerSettings} {chain : Chain} {source last : String} {n : Nat}

/-! ## Rows -/

/-- The nodes of a chain behind a node, with the ids from a number on. -/
def row (classType : String) : Chain → String → Nat → List (String × Node)
  | [], _, _ => []
  | s :: rest, source, n =>
    ((Json.int n).display, modifierNode classType (Json.int n).display s source 0) ::
      row classType rest (Json.int n).display (n + 1)

/-- The id of the last node of a row; an empty row ends where it starts. -/
def rowEnd : Chain → String → Nat → String
  | [], source, _ => source
  | _ :: rest, _, n => rowEnd rest (Json.int n).display (n + 1)

/-- The ids of a row. -/
def rowIds (n length : Nat) : List String :=
  (List.range' n length).map fun i : Nat => (Json.int i).display

/-- The numbers of a row are short enough to be written. -/
def NumbersFit (chain : Chain) (n : Nat) : Prop := ∀ i < chain.length, n + i < Numeral.unwritable

theorem NumbersFit.mono {n' : Nat} (h : NumbersFit chain n) (hle : n' ≤ n) :
    NumbersFit chain n' := by
  intro i hi
  have := h i hi
  omega

theorem numbersFit_cons_iff {s : Selection} {rest : Chain} :
    NumbersFit (s :: rest) n ↔ n < Numeral.unwritable ∧ NumbersFit rest (n + 1) := by
  constructor
  · intro h
    refine ⟨h 0 (by simp), fun i hi => ?_⟩
    have := h (i + 1) (by simpa using hi)
    omega
  · rintro ⟨hn, hrest⟩ i hi
    cases i with
    | zero => exact hn
    | succ i =>
      have := hrest i (by simpa using hi)
      omega

theorem lt_of_not_numbersFit (h : ¬ NumbersFit chain n) :
    Numeral.unwritable < n + chain.length := by
  simp only [NumbersFit, not_forall, Nat.not_lt] at h
  obtain ⟨i, hi, hle⟩ := h
  omega

/-- A row of nodes can be written if its last number can. -/
theorem numbersFit_iff (hne : chain ≠ []) :
    NumbersFit chain n ↔ n + chain.length ≤ Numeral.unwritable := by
  have hpos : 0 < chain.length := List.length_pos_iff.2 hne
  constructor
  · intro h
    have := h (chain.length - 1) (by omega)
    omega
  · intro h i hi
    omega

theorem keys_row (classType : String) (chain : Chain) (source : String) (n : Nat) :
    Entries.keys (row classType chain source n) = rowIds n chain.length := by
  induction chain generalizing source n with
  | nil => rfl
  | cons s rest ih =>
    rw [row, List.length_cons, rowIds, List.range'_succ, List.map_cons]
    exact congrArg _ (ih _ _)

theorem mem_rowIds_of_mem_row {classType : String} {e : String × Node}
    (he : e ∈ row classType chain source n) : e.1 ∈ rowIds n chain.length := by
  rw [← keys_row classType chain source n]
  exact Entries.mem_keys_of_mem he

theorem id_of_mem_row {classType : String} {e : String × Node}
    (he : e ∈ row classType chain source n) : e.2.id = e.1 := by
  induction chain generalizing source n with
  | nil => simp [row] at he
  | cons s rest ih =>
    rcases List.mem_cons.1 he with rfl | he
    · rfl
    · exact ih he

theorem isBypassed_of_mem_row {classType : String} {e : String × Node}
    (he : e ∈ row classType chain source n) : e.2.isBypassed = false := by
  induction chain generalizing source n with
  | nil => simp [row] at he
  | cons s rest ih =>
    rcases List.mem_cons.1 he with rfl | he
    · rfl
    · exact ih he

/-- A row is fed by its source and by its own nodes. -/
theorem source_of_mem_row {classType : String} {e : String × Node} {l : String × Link}
    (he : e ∈ row classType chain source n) (hl : l ∈ e.2.links) :
    l.2.source = source ∨ l.2.source ∈ rowIds n chain.length := by
  induction chain generalizing source n with
  | nil => simp [row] at he
  | cons s rest ih =>
    rw [List.length_cons, rowIds, List.range'_succ, List.map_cons, List.mem_cons]
    rcases List.mem_cons.1 he with rfl | he
    · have hlink := Node.mem_links_iff_link?.1 hl
      rw [Graph.link?_modifierNode] at hlink
      split at hlink
      · exact Or.inl (congrArg Link.source (Option.some.inj hlink)).symm
      · cases hlink
    · rcases ih he with hfirst | hmem
      · exact Or.inr (Or.inl hfirst)
      · exact Or.inr (Or.inr hmem)

/-- A row ends at its source or at one of its nodes. -/
theorem rowEnd_cases (chain : Chain) (source : String) (n : Nat) :
    rowEnd chain source n = source ∨ rowEnd chain source n ∈ rowIds n chain.length := by
  induction chain generalizing source n with
  | nil => exact Or.inl rfl
  | cons s rest ih =>
    rw [List.length_cons, rowIds, List.range'_succ, List.map_cons, List.mem_cons]
    exact Or.inr (ih (Json.int n).display (n + 1))

theorem rowEnd_mem_rowIds (hne : chain ≠ []) (source : String) (n : Nat) :
    rowEnd chain source n ∈ rowIds n chain.length := by
  obtain ⟨s, rest, rfl⟩ := List.exists_cons_of_ne_nil hne
  rw [rowEnd, List.length_cons, rowIds, List.range'_succ, List.map_cons, List.mem_cons]
  exact rowEnd_cases rest (Json.int n).display (n + 1)

theorem classType_of_mem_row {classType : String} {e : String × Node}
    (he : e ∈ row classType chain source n) : e.2.classType = classType := by
  induction chain generalizing source n with
  | nil => simp [row] at he
  | cons s rest ih =>
    rcases List.mem_cons.1 he with rfl | he
    · rfl
    · exact ih he

/-- The row of two chains is that of the first, and behind its end that of the second. -/
theorem row_append (classType : String) (chain chain' : Chain) (source : String) (n : Nat) :
    row classType (chain ++ chain') source n =
      row classType chain source n ++
        row classType chain' (rowEnd chain source n) (n + chain.length) := by
  induction chain generalizing source n with
  | nil => rfl
  | cons s rest ih =>
    rw [List.cons_append, row, row, ih, rowEnd, List.length_cons, List.cons_append,
      show n + 1 + rest.length = n + (rest.length + 1) by omega]

theorem rowEnd_append (chain chain' : Chain) (source : String) (n : Nat) :
    rowEnd (chain ++ chain') source n =
      rowEnd chain' (rowEnd chain source n) (n + chain.length) := by
  induction chain generalizing source n with
  | nil => rfl
  | cons s rest ih =>
    rw [List.cons_append, rowEnd, ih, rowEnd, List.length_cons,
      show n + 1 + rest.length = n + (rest.length + 1) by omega]

theorem rowIds_append (n length length' : Nat) :
    rowIds n length ++ rowIds (n + length) length' = rowIds n (length + length') := by
  rw [rowIds, rowIds, rowIds, ← List.map_append, List.range'_append_1]

/-! ## Rows under a renaming -/

section Renaming

variable {ρ : String → String} {source' : String} {n' : Nat}

theorem length_rowIds (n length : Nat) : (rowIds n length).length = length := by simp [rowIds]

theorem nodup_rowIds (n length : Nat) : (rowIds n length).Nodup :=
  (List.nodup_range' 1).map display_natCast_injective

theorem getElem?_rowIds {length i : Nat} (hi : i < length) (n : Nat) :
    (rowIds n length)[i]? = some (Json.int (n + i : Nat)).display := by
  simp [rowIds, hi]

theorem renumbering_rowIds {length i : Nat} (hi : i < length) (n n' : Nat) :
    renumbering (rowIds n length) (rowIds n' length) (Json.int (n + i : Nat)).display =
      (Json.int (n' + i : Nat)).display :=
  renumbering_of_getElem? (nodup_rowIds n length) (getElem?_rowIds hi n) (getElem?_rowIds hi n')

theorem rename_modifierNode (ρ : String → String) (classType id : String) (s : Selection)
    (source : String) :
    (modifierNode classType id s source 0).rename ρ =
      modifierNode classType (ρ id) s (ρ source) 0 := by
  simp [Node.rename, Node.mapLinks, modifierNode, Dict.ofList, Dict.insertAll, Dict.map_insert]
  rfl

/-- A renaming of the numbers takes a row to the row with these numbers, and its end to the end. -/
theorem row_rename (hρ : ∀ i < chain.length,
      ρ (Json.int (n + i : Nat)).display = (Json.int (n' + i : Nat)).display)
    (hsource : ρ source = source') (classType : String) :
    (row classType chain source n).map (fun e => (ρ e.1, e.2.rename ρ)) =
        row classType chain source' n' ∧
      ρ (rowEnd chain source n) = rowEnd chain source' n' := by
  induction chain generalizing source source' n n' with
  | nil => exact ⟨rfl, hsource⟩
  | cons s rest ih =>
    have hhead : ρ (Json.int n).display = (Json.int n').display := hρ 0 (by simp)
    have hrest : ∀ i < rest.length,
        ρ (Json.int (n + 1 + i : Nat)).display = (Json.int (n' + 1 + i : Nat)).display := by
      intro i hi
      have := hρ (i + 1) (by simpa using hi)
      rwa [show n + (i + 1) = n + 1 + i by omega, show n' + (i + 1) = n' + 1 + i by omega] at this
    obtain ⟨hnodes, hend⟩ := ih hrest hhead
    refine ⟨?_, hend⟩
    rw [row, row, List.map_cons, rename_modifierNode, hhead, hsource, hnodes]

end Renaming

namespace Graph

variable {g h : Graph} {targets : List (String × String)} {v : InputValue} {p : Node}

theorem not_has_of_mem_rowIds {id : String} {length : Nat} (hids : g.IdsBelow n)
    (hid : id ∈ rowIds n length) : ¬ g.has id := by
  obtain ⟨i, hi, rfl⟩ := List.mem_map.1 hid
  obtain ⟨hle, -⟩ := List.mem_range'_1.1 hi
  exact not_has_of_idsBelow hids (by omega)

/-- **Behind a row the ids go on** where its numbers end. -/
theorem nextId_of_keys {floor : Int} {length : Nat} (hfirst : g.nextId floor = .ok (n : Int))
    (hkeys : h.nodes.keys = g.nodes.keys ++ rowIds n length)
    (hw : ∀ i < length, n + i < Numeral.unwritable) :
    h.nextId floor = .ok ((n + length : Nat) : Int) := by
  cases length with
  | zero =>
    rw [Graph.nextId, hkeys, rowIds, List.range'_zero, List.map_nil, List.append_nil]
    exact hfirst
  | succ last =>
    obtain ⟨hfloor, hids⟩ := idsBelow_nextId hfirst
    refine nextId_of_greatest (n := n + last) (hw last (by omega)) ?_ ?_ (by omega)
    · rw [has_iff_mem_keys, hkeys]
      exact List.mem_append_right _ (List.mem_of_getElem? (getElem?_rowIds (by omega) n))
    · intro id hid hdigits
      rw [has_iff_mem_keys, hkeys, List.mem_append, ← has_iff_mem_keys] at hid
      rcases hid with hold | hnew
      · exact hids.mono (by omega) id hold hdigits
      · obtain ⟨i, hi, rfl⟩ := List.mem_map.1 hnew
        obtain ⟨hle, hlt⟩ := List.mem_range'_1.1 hi
        have hshort := hw (i - n) (by omega)
        exact ⟨i, by rw [integerOfText_display_natCast, if_pos (by omega)], by omega⟩

/-- **A row is appended** if its numbers can be written. -/
theorem appendChain_of_numbersFit (hids : g.IdsBelow n) (hw : NumbersFit chain n)
    (cfg : CompilerSettings) (source : String) :
    ∃ longer, g.appendChain cfg chain source n = .ok (longer, rowEnd chain source n) ∧
      longer.nodes.entries = g.nodes.entries ++ row cfg.modifierClassType chain source n ∧
      longer = { g with nodes := longer.nodes } := by
  -- along the chain; the id of each node is fresh for the nodes before it
  induction chain generalizing g source n with
  | nil => exact ⟨g, rfl, by simp [row], rfl⟩
  | cons s rest ih =>
    obtain ⟨hn, hrest⟩ := numbersFit_cons_iff.1 hw
    have hfresh : ¬ g.has (Json.int n).display := not_has_of_idsBelow hids (Int.le_refl _)
    have hlonger := idsBelow_put_display
      (m := modifierNode cfg.modifierClassType (Json.int n).display s source 0) hids hn rfl
    obtain ⟨longer, hrun, hentries, hsame⟩ := ih hlonger hrest (Json.int n).display
    refine ⟨longer, ?_, ?_, hsame⟩
    · rw [appendChain_cons, if_pos hn, hrun]
      rfl
    · have hput := Dict.entries_insert_of_not_mem (d := g.nodes)
        (fun hmem => hfresh (has_iff_mem_keys.2 hmem))
        (modifierNode cfg.modifierClassType (Json.int n).display s source 0)
      rw [hentries, put, id_modifierNode, hput, List.append_assoc, row, List.singleton_append]

theorem appendChain_of_not_numbersFit (hw : ¬ NumbersFit chain n) (g : Graph)
    (cfg : CompilerSettings) (source : String) :
    g.appendChain cfg chain source n = .error idTooLong := by
  induction chain generalizing g source n with
  | nil => exact absurd (fun i hi => absurd hi (Nat.not_lt_zero i)) hw
  | cons s rest ih =>
    rw [appendChain_cons]
    split
    · rename_i hn
      exact ih (fun hrest => hw (numbersFit_cons_iff.2 ⟨hn, hrest⟩)) _ _
    · rfl

/-! ## Wiring the consumers -/

theorem mem_consumers_iff (hk : g.WellKeyed) {t : String × String} :
    t ∈ g.consumers source ↔ g.linkAt? t.1 t.2 = some ⟨source, 0⟩ := by
  refine ⟨linkAt?_of_mem_consumers hk, fun hl => ?_⟩
  obtain ⟨n, hn, hlink⟩ := linkAt?_eq_some_iff.1 hl
  refine List.mem_flatMap.2 ⟨n, mem_nodeList_iff.2 ⟨_, hn⟩,
    List.mem_map.2 ⟨(t.2, ⟨source, 0⟩), ?_, ?_⟩⟩
  · exact List.mem_filter.2 ⟨Node.mem_links_iff_link?.2 hlink, by simp⟩
  · rw [hk.id_eq hn]

theorem consumers_eq_nil_iff (hk : g.WellKeyed) :
    g.consumers source = [] ↔ ∀ id input, g.linkAt? id input ≠ some ⟨source, 0⟩ := by
  rw [List.eq_nil_iff_forall_not_mem]
  constructor
  · intro h id input hl
    exact h (id, input) ((mem_consumers_iff hk).2 hl)
  · intro h t ht
    exact h t.1 t.2 ((mem_consumers_iff hk).1 ht)

/-- Each node takes the writes that are meant for it. -/
theorem foldl_setInput_eq (targets : List (String × String)) (v : InputValue) (g : Graph) :
    targets.foldl (fun h t => h.setInput t.1 t.2 v) g =
      { g with nodes := g.nodes.map fun key n =>
          (targets.filter fun t => t.1 = key).foldl (fun n t => n.setInput t.2 v) n } := by
  induction targets generalizing g with
  | nil =>
    have hid : (g.nodes.map fun _ n => n) = g.nodes :=
      Dict.ext (List.map_id g.nodes.entries)
    simp [hid]
  | cons t targets ih =>
    have hstep : g.setInput t.1 t.2 v =
        { g with nodes := g.nodes.map fun key n => if key = t.1 then n.setInput t.2 v else n } :=
      rfl
    rw [List.foldl_cons, ih, hstep]
    simp only [Dict.map_map]
    congr 2
    funext key n
    by_cases he : t.1 = key
    · simp [he]
    · simp [he, Ne.symm he]

/-- Writes to inputs that are there change these inputs and no others. -/
theorem foldl_setInput_of_mem (targets : List (String × String)) (v : InputValue)
    (h : ∀ t ∈ targets, t.2 ∈ p.inputs.keys) :
    targets.foldl (fun n t => n.setInput t.2 v) p =
      { p with inputs := p.inputs.map fun input w =>
          if input ∈ targets.map Prod.snd then v else w } := by
  induction targets generalizing p with
  | nil =>
    have hid : (p.inputs.map fun _ w => w) = p.inputs := Dict.ext (List.map_id p.inputs.entries)
    simp [hid]
  | cons t targets ih =>
    have hstep : p.setInput t.2 v =
        { p with inputs := p.inputs.map fun input w => if input = t.2 then v else w } := by
      rw [Node.setInput, Dict.insert_of_mem (h t (by simp))]
    have hkeys : ∀ t' ∈ targets, t'.2 ∈ (p.setInput t.2 v).inputs.keys := by
      intro t' ht'
      rw [hstep, Dict.keys_map]
      exact h t' (List.mem_cons_of_mem _ ht')
    rw [List.foldl_cons, ih hkeys, hstep]
    simp only [Dict.map_map, List.map_cons, List.mem_cons]
    congr 2
    funext input w
    by_cases he : input = t.2
    · simp [he]
    · simp only [he, if_false, false_or]

/-- **Wiring the consumers of a node redirects its first output.** -/
theorem foldl_setInput_consumers (targets : List (String × String))
    (h : ∀ input, input ∈ targets.map Prod.snd ↔ p.link? input = some ⟨source, 0⟩) (last : String) :
    targets.foldl (fun n t => n.setInput t.2 (.connection last 0)) p =
      p.mapLinks (Link.redirect source last) := by
  have hkeys : ∀ t ∈ targets, t.2 ∈ p.inputs.keys := by
    intro t ht
    have hlink := (h t.2).1 (List.mem_map_of_mem ht)
    exact Dict.mem_keys_iff.2 ⟨_, Node.link?_eq_some_iff.1 hlink⟩
  have hinputs : (p.inputs.map fun input w =>
      if input ∈ targets.map Prod.snd then .connection last 0 else w) =
      p.inputs.map fun _ w => w.mapLink (Link.redirect source last) := by
    refine Dict.ext (List.map_congr_left fun e he => ?_)
    obtain ⟨input, w⟩ := e
    have hw : ∀ l : Link, p.link? input = some l ↔ w = l.toInput := by
      intro l
      rw [Node.link?_eq_some_iff, Dict.get?_eq_some_iff.2 he, Option.some.injEq]
    have hmem : input ∈ targets.map Prod.snd ↔ w = .connection source 0 :=
      (h input).trans (hw ⟨source, 0⟩)
    cases w with
    | literal value => simp [hmem, InputValue.mapLink]
    | slot type => simp [hmem, InputValue.mapLink]
    | connection source' output =>
      by_cases hfed : source' = source ∧ output = 0
      · simp [hmem, hfed, InputValue.mapLink, Link.redirect, Link.toInput]
      · simp [hmem, hfed, InputValue.mapLink, Link.redirect, Link.toInput]
  rw [foldl_setInput_of_mem targets _ hkeys, hinputs, Node.mapLinks]

/-! ## Chains behind a node -/

/-- A workflow is another with a chain behind a node, numbered from a number on: what the first
output of the node fed is fed by the end of the row, which follows the nodes that were there. -/
def Spliced (g h : Graph) (cfg : CompilerSettings) (chain : Chain) (source : String)
    (n : Nat) : Prop :=
  g.Relinked (Link.redirect source (rowEnd chain source n))
    (row cfg.modifierClassType chain source n) h

theorem spliced_nil (g : Graph) (cfg : CompilerSettings) (source : String) (n : Nat) :
    g.Spliced g cfg [] source n := by
  refine ⟨?_, rfl, fun e he => isBypassed_of_mem_row he⟩
  rw [row, List.append_nil]
  refine ((List.map_congr_left fun e _ => ?_).trans (List.map_id _)).symm
  have hsame := Node.mapLinks_of_fixes (n := e.2) fun _ l _ => Link.redirect_self source l
  rw [rowEnd, hsame]
  rfl

/-- Behind the row that is appended, the consumers of its source are wired to its end. -/
theorem spliced_wire {longer : Graph} (hk : g.WellKeyed) (hids : g.IdsBelow n)
    (hentries : longer.nodes.entries =
      g.nodes.entries ++ row cfg.modifierClassType chain source n)
    (hrest : longer = { g with nodes := longer.nodes }) :
    g.Spliced ((g.consumers source).foldl
      (fun h t => h.setInput t.1 t.2 (.connection (rowEnd chain source n) 0)) longer)
      cfg chain source n := by
  rw [foldl_setInput_eq]
  refine ⟨?_, ?_, fun e he => isBypassed_of_mem_row he⟩
  · show List.map _ longer.nodes.entries = _
    rw [hentries, List.map_append]
    congr 1
    · -- what a node that was there is written are its inputs that the source feeds
      refine List.map_congr_left fun e he => ?_
      have hnode : g.node? e.1 = some e.2 := Dict.get?_eq_some_iff.2 he
      refine congrArg (Prod.mk e.1) (foldl_setInput_consumers _ (fun input => ?_) _)
      rw [← linkAt?_of_node? hnode, ← mem_consumers_iff (t := (e.1, input)) hk]
      simp
    · -- and no target is a node of the row
      refine (List.map_congr_left fun e he => ?_).trans (List.map_id _)
      have hfresh : ¬ g.has e.1 := not_has_of_mem_rowIds hids (mem_rowIds_of_mem_row he)
      have hnone : (g.consumers source).filter (fun t => t.1 = e.1) = [] := by
        refine List.filter_eq_nil_iff.2 fun t ht htarget => hfresh ?_
        have hhas := has_of_linkAt? ((mem_consumers_iff hk).1 ht)
        rwa [of_decide_eq_true htarget] at hhas
      dsimp only
      rw [hnone]
      rfl
  · rw [hrest]

/-- **A splice is a row of new nodes and the wiring of its end**, if the numbers can be written. -/
theorem splice_of_numbersFit (hfirst : g.nextId cfg.injectedIdFloor = .ok (n : Int))
    (hw : NumbersFit chain n) (source : String) (targets : List (String × String)) :
    ∃ longer, longer.nodes.entries =
        g.nodes.entries ++ row cfg.modifierClassType chain source n ∧
      longer = { g with nodes := longer.nodes } ∧
      g.splice cfg chain source targets = .ok (targets.foldl
        (fun k t => k.setInput t.1 t.2 (.connection (rowEnd chain source n) 0)) longer) := by
  obtain ⟨longer, hrun, hentries, hrest⟩ :=
    appendChain_of_numbersFit (idsBelow_nextId hfirst).2 hw cfg source
  refine ⟨longer, hentries, hrest, ?_⟩
  rw [Graph.splice, hfirst]
  simp only [bind, Except.bind, hrun, pure, Except.pure]

theorem splice_of_not_numbersFit (hfirst : g.nextId cfg.injectedIdFloor = .ok (n : Int))
    (hw : ¬ NumbersFit chain n) (source : String) (targets : List (String × String)) :
    g.splice cfg chain source targets = .error idTooLong := by
  rw [Graph.splice, hfirst]
  simp only [bind, Except.bind, appendChain_of_not_numbersFit hw]

/-- **A splice in front of all consumers of a node**, if the numbers can be written. -/
theorem splice_consumers (hk : g.WellKeyed) (hfirst : g.nextId cfg.injectedIdFloor = .ok (n : Int))
    (hw : NumbersFit chain n) (source : String) :
    ∃ h, g.splice cfg chain source (g.consumers source) = .ok h ∧
      g.Spliced h cfg chain source n := by
  obtain ⟨longer, hentries, hrest, hrun⟩ :=
    splice_of_numbersFit hfirst hw source (g.consumers source)
  exact ⟨_, hrun, spliced_wire hk (idsBelow_nextId hfirst).2 hentries hrest⟩

/-- **What comes of a fresh chain** where the model source feeds something: the chain is behind the
source, or its numbers are too long. -/
theorem inject_of_source (hk : g.WellKeyed) (hp : g.modelSource? cfg = some p)
    (hfed : ∃ id input, g.linkAt? id input = some ⟨p.id, 0⟩)
    (hfirst : g.nextId cfg.injectedIdFloor = .ok (n : Int)) (chain : Chain) :
    (NumbersFit chain n ∧ ∃ h, ((g.inject cfg chain).map fun r => r.getD g) = .ok h ∧
      g.Spliced h cfg chain p.id n) ∨
    (¬ NumbersFit chain n ∧ ((g.inject cfg chain).map fun r => r.getD g) = .error idTooLong) := by
  cases chain with
  | nil =>
    refine Or.inl ⟨fun i hi => absurd hi (Nat.not_lt_zero i), g, rfl, spliced_nil ..⟩
  | cons s rest =>
    obtain ⟨id, input, hl⟩ := hfed
    have hused : g.consumers p.id ≠ [] := fun hnone => (consumers_eq_nil_iff hk).1 hnone id input hl
    have hinject : ((g.inject cfg (s :: rest)).map fun r => r.getD g) =
        g.splice cfg (s :: rest) p.id (g.consumers p.id) := by
      rw [Graph.inject, hp]
      simp [hused, map_getD_map_some]
    rw [hinject]
    by_cases hw : NumbersFit (s :: rest) n
    · exact Or.inl ⟨hw, splice_consumers hk hfirst hw p.id⟩
    · exact Or.inr ⟨hw, splice_of_not_numbersFit hfirst hw p.id _⟩

end Graph

end NodeFlow
