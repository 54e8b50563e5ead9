import NodeFlow.Proofs.Modifier.Extension
/-!
# Extensions on two paths

Where two paths lead to different model-sampling nodes, or one of them leads
to none, the chains of both can be put in in either order: each extension
writes an input that the other one does not look at. The results have the
same nodes, but the row that is put in first is numbered first, so the ids
of the rows are others, and so is their order: `SwapsRows`. Both orders fail
where the ids of the two rows run out: `extended_comm`.
-/

namespace NodeFlow

theorem Node.rename_fedBy {ρ : String → String} {p : Node} (hid : ρ p.id = p.id)
    (sampling last : String) :
    (p.fedBy sampling last).rename ρ = (p.rename ρ).fedBy sampling (ρ last) := by
  by_cases he : p.id = sampling
  · rw [fedBy, fedBy, if_pos he, if_pos (by rw [id_rename, hid, he]), rename_setInput]
  · rw [fedBy_of_ne he, fedBy_of_ne (by rwa [id_rename, hid])]

namespace Graph

variable {g h k a b : Graph} {cfg : CompilerSettings} {chain chain' : Chain}
variable {path path' : NoisePath} {s s' m m' id : String} {n : Nat} {first : Int}
variable {ids ids' : List String}

/-- Two workflows are another one with two rows put in, in either order. They are the same up to the
order of the rows and the ids of their nodes, those of one row taken for those of the same row. -/
structure SwapsRows (g a b : Graph) (ids₁ ids₂ ids₁' ids₂' : List String) : Prop where
  /-- The ids of one order. -/
  keys : a.nodes.keys = g.nodes.keys ++ (ids₁ ++ ids₂)
  /-- The ids of the other. -/
  keys' : b.nodes.keys = g.nodes.keys ++ (ids₂' ++ ids₁')
  length₁ : ids₁.length = ids₁'.length
  length₂ : ids₂.length = ids₂'.length
  /-- A node of one is a node of the other, but for the ids. -/
  renamed : ∀ id p, a.node? id = some p →
    b.node? (renumbering (ids₁ ++ ids₂) (ids₁' ++ ids₂') id) =
      some (p.rename (renumbering (ids₁ ++ ids₂) (ids₁' ++ ids₂')))
  rest : b = { a with nodes := b.nodes }

/-! ## Where one path leads nowhere -/

/-- With one row there is nothing to swap. -/
theorem swapsRows_self (hkeys : a.nodes.keys = g.nodes.keys ++ (ids ++ ids'))
    (hkeys' : a.nodes.keys = g.nodes.keys ++ (ids' ++ ids)) :
    g.SwapsRows a a ids ids' ids ids' where
  keys := hkeys
  keys' := hkeys'
  length₁ := rfl
  length₂ := rfl
  renamed id p hp := by
    have hsame : renumbering (ids ++ ids') (ids ++ ids') = fun id => id :=
      funext (renumbering_self _)
    rw [hsame, Node.rename_id]
    exact hp
  rest := rfl

/-- An extension has nothing to do: there is nothing to put in, or no place for it. -/
def Idle (g : Graph) (cfg : CompilerSettings) (chain : Chain) (path : NoisePath) : Prop :=
  chain = [] ∨ g.place? cfg path = none

theorem Idle.extended (hidle : g.Idle cfg chain path) : g.extended cfg chain path = .ok g := by
  rcases hidle with rfl | hnone
  · rfl
  · exact extended_of_place?_none hnone chain

/-- Nor does it after another extension. -/
theorem Idle.of_extended (hidle : g.Idle cfg chain path) (hk : g.WellKeyed) (hclosed : g.Closed)
    (happ : cfg.ClassesApart) (hfirst : g.nextId cfg.injectedIdFloor = .ok (n : Int))
    (hrun : g.extended cfg chain' path' = .ok h) : h.Idle cfg chain path := by
  refine hidle.imp_right fun hnone => ?_
  by_cases hsame : g.Idle cfg chain' path'
  · rw [hsame.extended] at hrun
    obtain rfl := Except.ok.inj hrun
    exact hnone
  · obtain ⟨hne, hsome⟩ := not_or.1 hsame
    obtain ⟨⟨s, m⟩, hp⟩ := Option.ne_none_iff_exists'.1 hsome
    rcases extended_of_place? hk hfirst hp hne with ⟨-, h', hrun', he⟩ | ⟨-, hrun'⟩
    · obtain rfl := Except.ok.inj (hrun.symm.trans hrun')
      rw [he.place?_eq hk hclosed happ hne (feeds_of_place? hk hp), hnone, Option.map_none]
    · rw [hrun'] at hrun
      cases hrun

/-- So it makes no difference before or after another. -/
theorem Idle.comm (hidle : g.Idle cfg chain path) (hk : g.WellKeyed) (hclosed : g.Closed)
    (happ : cfg.ClassesApart) (hfirst : g.nextId cfg.injectedIdFloor = .ok (n : Int))
    (chain' : Chain) (path' : NoisePath) :
    (g.extended cfg chain path >>= fun h => h.extended cfg chain' path') =
        g.extended cfg chain' path' ∧
      (g.extended cfg chain' path' >>= fun h => h.extended cfg chain path) =
        g.extended cfg chain' path' := by
  refine ⟨by rw [hidle.extended]; rfl, ?_⟩
  cases hrun : g.extended cfg chain' path' with
  | ok h => exact (hidle.of_extended hk hclosed happ hfirst hrun).extended
  | error e => rfl

/-! ## Where both lead somewhere -/

/-- **Two extensions at different nodes**: each writes its own node. -/
theorem Extension.entries_of_two (he : g.Extension h cfg chain s m n)
    (he' : h.Extension a cfg chain' s' m' (n + chain.length))
    (hs' : s' ∉ rowIds n chain.length) :
    a.nodes.entries =
      g.nodes.entries.map (fun e => (e.1, (e.2.fedBy s (rowEnd chain m n)).fedBy s'
        (rowEnd chain' m' (n + chain.length)))) ++
      (row cfg.modifierClassType chain m n ++
        row cfg.modifierClassType chain' m' (n + chain.length)) := by
  rw [he'.entries, he.entries, List.map_append, Node.map_fedBy_row hs', List.map_map,
    List.append_assoc]
  rfl

/-- The renaming that takes two rows to the same rows in the other order. -/
def swapping (n length length' : Nat) : String → String :=
  renumbering (rowIds n length ++ rowIds (n + length) length')
    (rowIds (n + length') length ++ rowIds n length')

theorem nodup_rowIds_append (n length length' : Nat) :
    (rowIds n length ++ rowIds (n + length) length').Nodup := by
  rw [rowIds_append]
  exact nodup_rowIds n (length + length')

theorem swapping_of_has (hids : g.IdsBelow n) (hid : g.has id) (length length' : Nat) :
    swapping n length length' id = id := by
  refine renumbering_of_not_mem (by simp only [List.length_append, length_rowIds]) fun hmem => ?_
  rw [rowIds_append] at hmem
  exact not_has_of_mem_rowIds hids hmem hid

theorem swapping_left {length i : Nat} (hi : i < length) (n length' : Nat) :
    swapping n length length' (Json.int (n + i : Nat)).display =
      (Json.int (n + length' + i : Nat)).display := by
  refine renumbering_of_getElem? (i := i) (nodup_rowIds_append _ _ _) ?_ ?_
  · rw [List.getElem?_append_left (by rwa [length_rowIds]), getElem?_rowIds hi]
  · rw [List.getElem?_append_left (by rwa [length_rowIds]), getElem?_rowIds hi]

theorem swapping_right {length' i : Nat} (hi : i < length') (n length : Nat) :
    swapping n length length' (Json.int (n + length + i : Nat)).display =
      (Json.int (n + i : Nat)).display := by
  refine renumbering_of_getElem? (i := length + i) (nodup_rowIds_append _ _ _) ?_ ?_
  · rw [List.getElem?_append_right (by rw [length_rowIds]; omega), length_rowIds,
      Nat.add_sub_cancel_left, getElem?_rowIds hi]
  · rw [List.getElem?_append_right (by rw [length_rowIds]; omega), length_rowIds,
      Nat.add_sub_cancel_left, getElem?_rowIds hi]

/-- **The two orders of two extensions at different nodes.** -/
theorem swapsRows_of_extensions (hk : g.WellKeyed) (hclosed : g.Closed) (hids : g.IdsBelow n)
    (hne : s ≠ s') (hs : g.has s) (hs' : g.has s') (hm : g.has m) (hm' : g.has m')
    (he₁ : g.Extension h cfg chain s m n)
    (he₂ : h.Extension a cfg chain' s' m' (n + chain.length))
    (he₁' : g.Extension k cfg chain' s' m' n)
    (he₂' : k.Extension b cfg chain s m (n + chain'.length)) :
    g.SwapsRows a b (rowIds n chain.length) (rowIds (n + chain.length) chain'.length)
      (rowIds (n + chain'.length) chain.length) (rowIds n chain'.length) where
  keys := by rw [he₂.keys_eq, he₁.keys_eq, List.append_assoc]
  keys' := by rw [he₂'.keys_eq, he₁'.keys_eq, List.append_assoc]
  length₁ := by rw [length_rowIds, length_rowIds]
  length₂ := by rw [length_rowIds, length_rowIds]
  rest := by rw [he₂'.rest, he₁'.rest, he₂.rest, he₁.rest]
  renamed := by
    intro id p hp
    rw [← swapping]
    -- ids that were there stay, and each row goes to its place in the other order
    have hfix := fun {id} (hid : g.has id) => swapping_of_has hids hid chain.length chain'.length
    obtain ⟨hrow, hend⟩ := row_rename (fun i hi => swapping_left hi n chain'.length) (hfix hm)
      cfg.modifierClassType
    obtain ⟨hrow', hend'⟩ := row_rename (fun i hi => swapping_right hi n chain.length) (hfix hm')
      cfg.modifierClassType
    generalize swapping n chain.length chain'.length = ρ at *
    have hold : ∀ {id length}, g.has id → id ∉ rowIds n length := fun hhas hmem =>
      not_has_of_mem_rowIds hids hmem hhas
    have hmem := Dict.get?_eq_some_iff.1 hp
    refine Dict.get?_eq_some_iff.2 ?_
    rw [he₁.entries_of_two he₂ (hold hs')] at hmem
    rw [he₁'.entries_of_two he₂' (hold hs)]
    rcases List.mem_append.1 hmem with hmem | hmem
    · refine List.mem_append_left _ (List.mem_map.2 ?_)
      obtain ⟨⟨key, q⟩, hq, heq⟩ := List.mem_map.1 hmem
      obtain ⟨rfl, rfl⟩ := Prod.mk.inj heq
      have hnode : g.node? key = some q := Dict.get?_eq_some_iff.2 hq
      have hkey : ρ key = key := hfix (has_iff.2 ⟨q, hnode⟩)
      have hid : ρ q.id = q.id := by rw [hk.id_eq hnode, hkey]
      have hsame : q.rename ρ = q := Node.rename_of_fixes hid fun input l hl =>
        hfix (hclosed key input l (by rw [linkAt?_of_node? hnode, hl]))
      refine ⟨(key, q), hq, ?_⟩
      rw [Node.rename_fedBy (by rwa [Node.id_fedBy]), Node.rename_fedBy hid, hsame, hend, hend',
        hkey, Node.fedBy_comm hne]
    · refine List.mem_append_right _ ?_
      rcases List.mem_append.1 hmem with hmem | hmem
      · refine List.mem_append_right _ ?_
        rw [← hrow]
        exact List.mem_map_of_mem (f := fun e : String × Node => (ρ e.1, e.2.rename ρ)) hmem
      · refine List.mem_append_left _ ?_
        rw [← hrow']
        exact List.mem_map_of_mem (f := fun e : String × Node => (ρ e.1, e.2.rename ρ)) hmem

theorem ne_of_place?
    (hdiff : ∀ site ∈ g.extensionSite? cfg path (.usual cfg),
      ∀ site' ∈ g.extensionSite? cfg path' (.usual cfg), site.1.id ≠ site'.1.id)
    (hp : g.place? cfg path = some (s, m)) (hp' : g.place? cfg path' = some (s', m')) : s ≠ s' := by
  obtain ⟨site, hsite, hids⟩ := Option.map_eq_some_iff.1 hp
  obtain ⟨site', hsite', hids'⟩ := Option.map_eq_some_iff.1 hp'
  obtain ⟨rfl, -⟩ := Prod.mk.inj hids
  obtain ⟨rfl, -⟩ := Prod.mk.inj hids'
  exact hdiff site hsite site' hsite'

/-- **Extensions on two paths are independent** of each other where they are made at different
model-sampling nodes, or one of them has no place: either order leads to the same workflow up to the
order of the two rows and the ids of their nodes. Otherwise both orders fail, because an id would be
too long to be written. -/
theorem extended_comm (hk : g.WellKeyed) (hclosed : g.Closed) (happ : cfg.ClassesApart)
    (hfloor : 0 ≤ cfg.injectedIdFloor) (hfirst : g.nextId cfg.injectedIdFloor = .ok first)
    (hdiff : ∀ site ∈ g.extensionSite? cfg path (.usual cfg),
      ∀ site' ∈ g.extensionSite? cfg path' (.usual cfg), site.1.id ≠ site'.1.id)
    (chain chain' : Chain) :
    (∃ a b ids₁ ids₂ ids₁' ids₂',
      (g.extended cfg chain path >>= fun h => h.extended cfg chain' path') = .ok a ∧
      (g.extended cfg chain' path' >>= fun h => h.extended cfg chain path) = .ok b ∧
      g.SwapsRows a b ids₁ ids₂ ids₁' ids₂') ∨
    ((g.extended cfg chain path >>= fun h => h.extended cfg chain' path') = .error idTooLong ∧
      (g.extended cfg chain' path' >>= fun h => h.extended cfg chain path) = .error idTooLong ∧
      Numeral.unwritable < first + chain.length + chain'.length) := by
  obtain ⟨hge, hids⟩ := idsBelow_nextId hfirst
  obtain ⟨n, rfl⟩ := Int.eq_ofNat_of_zero_le (by omega : 0 ≤ first)
  by_cases hidle : g.Idle cfg chain path
  · obtain ⟨hrun, hrun'⟩ := hidle.comm hk hclosed happ hfirst chain' path'
    rw [hrun, hrun']
    rcases extended_cases hk hfirst chain' path' with ⟨a, ids, ha, hkeys⟩ | ⟨herror, hlong⟩
    · exact Or.inl ⟨a, a, [], ids, [], ids, ha, ha, swapsRows_self hkeys (by simpa using hkeys)⟩
    · exact Or.inr ⟨herror, herror, by omega⟩
  by_cases hidle' : g.Idle cfg chain' path'
  · obtain ⟨hrun', hrun⟩ := hidle'.comm hk hclosed happ hfirst chain path
    rw [hrun, hrun']
    rcases extended_cases hk hfirst chain path with ⟨a, ids, ha, hkeys⟩ | ⟨herror, hlong⟩
    · exact Or.inl ⟨a, a, ids, [], ids, [], ha, ha, swapsRows_self (by simpa using hkeys) hkeys⟩
    · exact Or.inr ⟨herror, herror, by omega⟩
  -- both have something to do, at different nodes
  obtain ⟨hne, hsome⟩ := not_or.1 hidle
  obtain ⟨hne', hsome'⟩ := not_or.1 hidle'
  obtain ⟨⟨s, m⟩, hp⟩ := Option.ne_none_iff_exists'.1 hsome
  obtain ⟨⟨s', m'⟩, hp'⟩ := Option.ne_none_iff_exists'.1 hsome'
  have hother : s ≠ s' := ne_of_place? hdiff hp hp'
  have hf := feeds_of_place? hk hp
  have hf' := feeds_of_place? hk hp'
  rcases extended_extended hk hclosed happ hfirst hp hp' hne hne' with
    ⟨hw, h, a, hrun, he₁, he₂⟩ | ⟨hlong, hrun⟩
  · rcases extended_extended hk hclosed happ hfirst hp' hp hne' hne with
      ⟨-, k, b, hrun', he₁', he₂'⟩ | ⟨hlong, -⟩
    · rw [if_neg hother.symm] at he₂
      rw [if_neg hother] at he₂'
      exact Or.inl ⟨a, b, _, _, _, _, hrun, hrun', swapsRows_of_extensions hk hclosed hids hother
        hf.has hf'.has (hf.has_modifier hk) (hf'.has_modifier hk) he₁ he₂ he₁' he₂'⟩
    · omega
  · rcases extended_extended hk hclosed happ hfirst hp' hp hne' hne with ⟨hw, -⟩ | ⟨-, hrun'⟩
    · omega
    · exact Or.inr ⟨hrun, hrun', by omega⟩

/-- Each path has a model-sampling node of its own, and both nodes are fed by one modifier. -/
theorem extensionSite?_sharedModifier (n : Nat) :
    (sharedModifier n).extensionSite? {} .high (.usual {}) = some (samplingNode "first" n,
        modifierNode "LoraLoaderModelOnly" (Json.int n).display lightModifier "loader" 0) ∧
      (sharedModifier n).extensionSite? {} .low (.usual {}) = some (samplingNode "second" n,
        modifierNode "LoraLoaderModelOnly" (Json.int n).display lightModifier "loader" 0) := by
  have hfed : ∀ id, (sharedModifier n).feedingModifier? {} (samplingNode id n) =
      some (modifierNode "LoraLoaderModelOnly" (Json.int n).display lightModifier "loader" 0) := by
    intro id
    refine feedingModifier?_eq_some_iff.2 ⟨⟨⟨(Json.int n).display, 0⟩, rfl, ?_⟩, rfl⟩
    exact Dict.get?_eq_some_iff.2 (by simp [sharedModifier])
  have hsampling : (sharedModifier n).ofType ({} : CompilerSettings).samplingClassType =
      [samplingNode "first" n, samplingNode "second" n] := by rfl
  have hearly : (Classifier.usual {}).classify (sharedModifier n) "first" = [.high] := by rfl
  have hlate : (Classifier.usual {}).classify (sharedModifier n) "second" = [.low] := by rfl
  have hids : (samplingNode "first" n).id = "first" ∧ (samplingNode "second" n).id = "second" :=
    ⟨rfl, rfl⟩
  constructor <;> simp [extensionSite?, hsampling, hfed, hids, hearly, hlate]

theorem sites_sharedModifier (n : Nat) :
    ∀ site ∈ (sharedModifier n).extensionSite? {} .high (.usual {}),
      ∀ site' ∈ (sharedModifier n).extensionSite? {} .low (.usual {}), site.1.id ≠ site'.1.id := by
  obtain ⟨hhigh, hlow⟩ := extensionSite?_sharedModifier n
  intro site hsite site' hsite'
  obtain rfl := Option.some.inj (hhigh.symm.trans hsite)
  obtain rfl := Option.some.inj (hlow.symm.trans hsite')
  exact (by decide : "first" ≠ "second")

/-- The hypotheses of `extended_comm` are met where both paths share a modifier: in one order the
high-noise row has the ids 251 and 252, in the other the low-noise row comes first. -/
theorem sharedModifier_swapsRows :
    let g := sharedModifier 250
    g.WellKeyed ∧ g.Closed ∧ ({} : CompilerSettings).ClassesApart ∧
      0 ≤ ({} : CompilerSettings).injectedIdFloor ∧
      g.nextId ({} : CompilerSettings).injectedIdFloor = .ok 251 ∧
      (∀ site ∈ g.extensionSite? {} .high (.usual {}),
        ∀ site' ∈ g.extensionSite? {} .low (.usual {}), site.1.id ≠ site'.1.id) ∧
      (∃ a b ids₁ ids₂ ids₁' ids₂',
        (g.extended {} [lightModifier, lightModifier] .high >>= fun h =>
          h.extended {} [lightModifier] .low) = .ok a ∧
        (g.extended {} [lightModifier] .low >>= fun h =>
          h.extended {} [lightModifier, lightModifier] .high) = .ok b ∧
        g.SwapsRows a b ids₁ ids₂ ids₁' ids₂') ∧
      (g.extended {} [lightModifier, lightModifier] .high >>= fun h =>
          h.extended {} [lightModifier] .low).toOption.map edges = some [
        ⟨"loader", 0, "250", "model"⟩, ⟨"252", 0, "first", "model"⟩,
        ⟨"253", 0, "second", "model"⟩, ⟨"first", 0, "early", "model"⟩,
        ⟨"second", 0, "late", "model"⟩, ⟨"250", 0, "251", "model"⟩, ⟨"251", 0, "252", "model"⟩,
        ⟨"250", 0, "253", "model"⟩] ∧
      (g.extended {} [lightModifier] .low >>= fun h =>
          h.extended {} [lightModifier, lightModifier] .high).toOption.map edges = some [
        ⟨"loader", 0, "250", "model"⟩, ⟨"253", 0, "first", "model"⟩,
        ⟨"251", 0, "second", "model"⟩, ⟨"first", 0, "early", "model"⟩,
        ⟨"second", 0, "late", "model"⟩, ⟨"250", 0, "251", "model"⟩, ⟨"250", 0, "252", "model"⟩,
        ⟨"252", 0, "253", "model"⟩] := by
  have hk := wellKeyed_sharedModifier 250
  have hclosed := closed_sharedModifier 250
  have hfirst : (sharedModifier 250).nextId ({} : CompilerSettings).injectedIdFloor = .ok 251 := by
    rfl
  have hsites := sites_sharedModifier 250
  refine ⟨hk, hclosed, classesApart_usual, by decide, hfirst, hsites, ?_, by decide +kernel,
    by decide +kernel⟩
  rcases extended_comm hk hclosed classesApart_usual (by decide) hfirst hsites
      [lightModifier, lightModifier] [lightModifier] with hboth | ⟨-, -, hlong⟩
  · exact hboth
  · exact absurd hlong (by decide +kernel)

/-- **Neither order need lead anywhere**: with the largest number that can be written on the
modifier that both paths share, no chain can be put in behind it. -/
theorem not_extended_sharedModifier :
    let g := sharedModifier (Numeral.unwritable - 1)
    g.WellKeyed ∧ g.Closed ∧ ({} : CompilerSettings).ClassesApart ∧
      0 ≤ ({} : CompilerSettings).injectedIdFloor ∧
      (∃ first, g.nextId ({} : CompilerSettings).injectedIdFloor = .ok first) ∧
      (∀ site ∈ g.extensionSite? {} .high (.usual {}),
        ∀ site' ∈ g.extensionSite? {} .low (.usual {}), site.1.id ≠ site'.1.id) ∧
      (g.extended {} [lightModifier] .high >>= fun h => h.extended {} [lightModifier] .low) =
        .error idTooLong ∧
      (g.extended {} [lightModifier] .low >>= fun h => h.extended {} [lightModifier] .high) =
        .error idTooLong := by
  have hlong := Numeral.thousand_le_unwritable
  obtain ⟨n, hn⟩ : ∃ n, n + 1 = Numeral.unwritable := ⟨Numeral.unwritable - 1, by omega⟩
  rw [show Numeral.unwritable - 1 = n by omega]
  have hk := wellKeyed_sharedModifier n
  have hclosed := closed_sharedModifier n
  have hfirst :=
    nextId_sharedModifier (n := n) (by omega) (show (100 : Int) ≤ (n + 1 : Nat) by omega)
  obtain ⟨hhigh, hlow⟩ := extensionSite?_sharedModifier n
  have hp : (sharedModifier n).place? {} .high = some ("first", (Json.int n).display) := by
    rw [place?, hhigh]
    rfl
  have hp' : (sharedModifier n).place? {} .low = some ("second", (Json.int n).display) := by
    rw [place?, hlow]
    rfl
  have hne : [lightModifier] ≠ [] := by simp
  have hlength : ¬ (n + 1 + ([lightModifier].length + [lightModifier].length) ≤
      Numeral.unwritable) := by
    simp only [List.length_singleton]
    omega
  refine ⟨hk, hclosed, classesApart_usual, by decide, ⟨_, hfirst⟩, sites_sharedModifier n, ?_, ?_⟩
  · rcases extended_extended hk hclosed classesApart_usual hfirst hp hp' hne hne with
      ⟨hfits, -⟩ | ⟨-, herror⟩
    · exact absurd hfits hlength
    · exact herror
  · rcases extended_extended hk hclosed classesApart_usual hfirst hp' hp hne hne with
      ⟨hfits, -⟩ | ⟨-, herror⟩
    · exact absurd hfits hlength
    · exact herror

end Graph

end NodeFlow
