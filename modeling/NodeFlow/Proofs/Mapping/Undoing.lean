import NodeFlow.Proofs.Graph.Shell
import NodeFlow.Proofs.Mapping.Selection
import NodeFlow.Proofs.Template.Filling
/-!
# Templates filled in with what was there

A mapping writes the placeholder of a field into each input that is chosen.
Where these inputs are different literals of a workflow without placeholders,
nothing is lost: filling in the values that they held, each under the name of
its placeholder, gives the workflow back (`selectAll_undoneBy`). A placeholder
stands alone in its literal, so it becomes the value whatever its type, and no
other literal has anything to fill in.
-/

namespace NodeFlow

open Template

variable {g : Graph} {schema : Schema} {category : Category} {m : Mapping}
variable {ts : List Target} {t : Target} {values : Fields} {id input name : String}

/-! ## The names of placeholders -/

namespace Mapping

theorem name_of_ofChoice? {c : Choice} (h : Target.ofChoice? c = some t) :
    t.name = placeholderOfField c.field.key.display := by
  obtain ⟨a, -, rfl⟩ := Option.map_eq_some_iff.1 h
  rfl

/-- **The placeholders of what is chosen** differ, and have proper names. -/
theorem Reselects.names (h : (analyze g category schema).Reselects m) :
    ((m.choices.filterMap Target.ofChoice?).map Target.name).Nodup ∧
      ∀ t ∈ m.choices.filterMap Target.ofChoice?, IsName t.name := by
  obtain ⟨hdistinct, hnames⟩ := category.placeholders_keys g.classTypes
  have hkeys : m.choices.map (fun c => c.field.key) = (category.keys g.classTypes).map .str :=
    h.keys_eq.trans (keys_analyze g category schema)
  have hplaceholders : m.choices.map (fun c => placeholderOfField c.field.key.display) =
      (category.keys g.classTypes).map placeholderOfField := by
    have hmap := congrArg (List.map fun key : Json => placeholderOfField key.display) hkeys
    rwa [List.map_map, List.map_map] at hmap
  constructor
  · rw [List.Nodup, List.pairwise_map, List.pairwise_filterMap]
    rw [← hplaceholders, List.Nodup, List.pairwise_map] at hdistinct
    refine hdistinct.imp fun hne t ht u hu => ?_
    rwa [name_of_ofChoice? ht, name_of_ofChoice? hu]
  · intro t ht
    obtain ⟨c, hc, hchosen⟩ := List.mem_filterMap.1 ht
    obtain ⟨key, hkey, hname⟩ := List.mem_map.1 (hplaceholders ▸ List.mem_map_of_mem hc)
    rw [name_of_ofChoice? hchosen, ← hname]
    exact hnames key hkey

end Mapping

namespace Graph

/-! ## What a template has -/

/-- The inputs are as before but for what they hold. -/
theorem outline_writePlaceholders (g : Graph) (ts : List Target) :
    (g.writePlaceholders ts).outline = g.outline := by
  rw [writePlaceholders]
  induction ts generalizing g with
  | nil => rfl
  | cons t ts ih =>
    rw [List.foldl_cons, ih, outline_modify]
    intro n
    split
    · rename_i hthere
      obtain ⟨v, hv⟩ := Option.isSome_iff_exists.1 hthere
      have hsame : (n.inputs.map fun _ _ => InputValue.literal .null).get? t.input =
          some (.literal .null) := by
        rw [Dict.get?_map, hv, Option.map_some]
      rw [Node.outline, Node.outline, Node.setInput, Dict.map_insert,
        Dict.insert_of_get?_eq hsame]
    · rfl

theorem outline_filledWith (g : Graph) (values : Fields) :
    (g.filledWith values).outline = g.outline := by
  refine outline_mapNodes (fun n => ?_) g
  rw [Node.outline, Node.outline, nodeWith, Dict.map_map]

/-- In a template of a workflow without placeholders the placeholders are those that were
written. -/
theorem mem_placeholders_writePlaceholders_iff (hnone : g.placeholders = [])
    (hthere : ∀ t ∈ ts, ∃ v, g.inputAt? t.node t.input = some v)
    (hnames : ∀ t ∈ ts, IsName t.name) (hdistinct : (ts.map fun t => (t.node, t.input)).Nodup) :
    name ∈ (g.writePlaceholders ts).placeholders ↔ ∃ t ∈ ts, t.name = name := by
  rw [mem_placeholders_iff]
  constructor
  · rintro ⟨id, input, text, hv, hname⟩
    rw [inputAt?_writePlaceholders, Option.map_eq_some_iff] at hv
    obtain ⟨w, hw, hv⟩ := hv
    cases hlast : Target.lastAt? ts id input with
    | none =>
      obtain rfl : w = .literal (.str text) := by simpa [hlast] using hv
      have hmem : name ∈ g.placeholders := mem_placeholders_iff.2 ⟨id, input, text, hw, hname⟩
      simp [hnone] at hmem
    | some t =>
      obtain ⟨ht, -, -⟩ := Target.mem_of_lastAt?_eq_some hlast
      obtain rfl : placeholderToken t.name = text := by
        simpa [hlast, Target.placeholder, Target.name] using hv
      rw [tokens_placeholderToken (hnames t ht), List.mem_singleton] at hname
      exact ⟨t, ht, hname.symm⟩
  · rintro ⟨t, ht, rfl⟩
    obtain ⟨v, hv⟩ := hthere t ht
    refine ⟨t.node, t.input, placeholderToken t.name, ?_, ?_⟩
    · rw [inputAt?_writePlaceholders, hv, Target.lastAt?_of_nodup hdistinct ht]
      rfl
    · rw [tokens_placeholderToken (hnames t ht)]
      exact List.mem_singleton_self _

/-! ## What was there before -/

/-- The values are the literals that targets hold, under the names of the placeholders that are
written into them. -/
def Recalls (g : Graph) (ts : List Target) (values : Fields) : Prop :=
  ∀ name v, Entries.get? values name = some v ↔
    ∃ t ∈ ts, t.name = name ∧ g.inputAt? t.node t.input = some (.literal v)

/-- What filling in makes of a template that was written into a workflow. -/
structure UndoneBy (g : Graph) (ts : List Target) (values : Fields) : Prop where
  /-- The workflow is back as it was. -/
  same : (g.writePlaceholders ts).fill values = .ok g
  /-- All placeholders that were written are filled in, and no other one. -/
  filled : (g.writePlaceholders ts).filledNames values = sorted (ts.map Target.name)
  /-- None is left. -/
  unresolved : (g.writePlaceholders ts).unresolvedNames values = []

/-- The literals that targets hold, each under the name of its placeholder. -/
def held (g : Graph) (ts : List Target) : Fields :=
  ts.filterMap fun t =>
    ((g.inputAt? t.node t.input).bind InputValue.literal?).map fun v => (t.name, v)

/-- Where the placeholders differ, these are such values. -/
theorem recalls_held (hdistinct : (ts.map Target.name).Nodup) : g.Recalls ts (g.held ts) := by
  have hkeys : (Entries.keys (g.held ts)).Nodup := by
    rw [Entries.keys, held, List.Nodup, List.pairwise_map, List.pairwise_filterMap]
    refine (List.pairwise_map.1 hdistinct).imp fun hne e he e' he' => ?_
    obtain ⟨-, -, rfl⟩ := Option.map_eq_some_iff.1 he
    obtain ⟨-, -, rfl⟩ := Option.map_eq_some_iff.1 he'
    exact hne
  intro name v
  rw [Entries.get?_eq_some_iff hkeys]
  simp only [held, List.mem_filterMap, Option.map_eq_some_iff, Option.bind_eq_some_iff,
    InputValue.literal?_eq_some_iff, Prod.mk.injEq]
  constructor
  · rintro ⟨t, ht, w, ⟨u, hu, rfl⟩, rfl, rfl⟩
    exact ⟨t, ht, rfl, hu⟩
  · rintro ⟨t, ht, rfl, hv⟩
    exact ⟨t, ht, v, ⟨_, hv, rfl⟩, rfl, rfl⟩

/-- A placeholder is filled in with its value. -/
theorem fillInput_placeholder {v : Json} (hname : IsName t.name) (hv : Supplies values t.name v) :
    fillInput values t.placeholder = .ok (.literal v) := by
  have hbegins : Begins (placeholderToken t.name).toList t.name.toList [] :=
    ⟨hname.1, fun c hc => isNameChar_iff.1 (hname.2 c hc), by simp [placeholderToken]⟩
  exact textFilled_iff.1 (.whole hbegins (by simpa using hv))

/-- **A workflow without placeholders is left alone** by filling in, unless it has the text that
stands for an image. -/
theorem fillInput_of_no_placeholders {v : InputValue} (hnone : g.placeholders = [])
    (himage : defaultImage ∉ textLiterals g) (hv : g.inputAt? id input = some v)
    (values : Fields) : fillInput values v = .ok v := by
  by_cases htext : ∃ text, v = .literal (.str text)
  · obtain ⟨text, rfl⟩ := htext
    have hne : text ≠ defaultImage := by
      rintro rfl
      exact himage (mem_textLiterals_iff.2 ⟨id, input, hv⟩)
    refine textFilled_iff.1 (textFilled_of_fillText (fun _ hdefault => absurd hdefault hne)
      (fillText_of_unsupplied fun name hname => ?_))
    have hmem : name ∈ g.placeholders := mem_placeholders_iff.2 ⟨id, input, text, hv, hname⟩
    simp [hnone] at hmem
  · exact fillInput_of_not_text fun text heq => htext ⟨text, heq⟩

/-- Filling in takes back what was done to each input, if it does so for each of them. -/
theorem fill_eq_ok_of_outline {h : Graph} {f : String → String → InputValue → InputValue}
    (houtline : h.outline = g.outline)
    (hinputs : ∀ id input, h.inputAt? id input = (g.inputAt? id input).map (f id input))
    (hback : ∀ id input v, g.inputAt? id input = some v → fillInput values (f id input v) = .ok v) :
    h.fill values = .ok g := by
  have hshown : ∀ id input v, g.inputAt? id input = some v →
      isInputShown values (f id input v) ∧ inputWith values (f id input v) = v := by
    intro id input v hv
    have hfill := hback id input v hv
    rw [fillInput_eq] at hfill
    exact withinLimit_eq_ok_iff.1 hfill
  rw [fill_eq]
  refine withinLimit_eq_ok_iff.2 ⟨isFillable_iff.2 fun id input w hw => ?_, ?_⟩
  · rw [hinputs] at hw
    obtain ⟨v, hv, rfl⟩ := Option.map_eq_some_iff.1 hw
    exact (hshown id input v hv).1
  · refine eq_of_outline (by rw [outline_filledWith, houtline]) fun id input => ?_
    rw [inputAt?_filledWith, hinputs]
    cases hv : g.inputAt? id input with
    | none => rfl
    | some v => rw [Option.map_some, Option.map_some, (hshown id input v hv).2]

/-- **Writing placeholders is undone** by filling in what the targets held, where these are
different literals. -/
theorem undoneBy (hnone : g.placeholders = [])
    (himage : defaultImage ∉ textLiterals g)
    (hnames : ∀ t ∈ ts, IsName t.name) (hdistinct : (ts.map fun t => (t.node, t.input)).Nodup)
    (hliteral : ∀ t ∈ ts, ∃ v, g.inputAt? t.node t.input = some (.literal v))
    (hvalues : g.Recalls ts values) : g.UndoneBy ts values := by
  have hthere : ∀ t ∈ ts, ∃ v, g.inputAt? t.node t.input = some v := by
    intro t ht
    obtain ⟨v, hv⟩ := hliteral t ht
    exact ⟨_, hv⟩
  have hplaceholders : ∀ name, name ∈ (g.writePlaceholders ts).placeholders ↔
      ∃ t ∈ ts, t.name = name := fun name =>
    mem_placeholders_writePlaceholders_iff hnone hthere hnames hdistinct
  have hsupplied : ∀ t ∈ ts, ∀ v, g.inputAt? t.node t.input = some (.literal v) →
      Supplies values t.name v := fun t ht v hv => Or.inl ((hvalues _ _).2 ⟨t, ht, rfl, hv⟩)
  constructor
  case same =>
    refine fill_eq_ok_of_outline (outline_writePlaceholders g ts)
      (fun id input => inputAt?_writePlaceholders g ts id input) fun id input v hv => ?_
    cases hlast : Target.lastAt? ts id input with
    | none => exact fillInput_of_no_placeholders hnone himage hv values
    | some t =>
      obtain ⟨ht, rfl, rfl⟩ := Target.mem_of_lastAt?_eq_some hlast
      obtain ⟨w, hw⟩ := hliteral t ht
      obtain rfl : v = .literal w := Option.some.inj (hv.symm.trans hw)
      exact fillInput_placeholder (hnames t ht) (hsupplied t ht w hw)
  case filled =>
    -- the text that stands for an image is neither a placeholder nor there
    have hno : defaultImage ∉ textLiterals (g.writePlaceholders ts) := by
      rw [mem_textLiterals_iff]
      rintro ⟨id, input, hv⟩
      rw [inputAt?_writePlaceholders, Option.map_eq_some_iff] at hv
      obtain ⟨w, hw, hv⟩ := hv
      cases hlast : Target.lastAt? ts id input with
      | none =>
        obtain rfl : w = .literal (.str defaultImage) := by simpa [hlast] using hv
        exact himage (mem_textLiterals_iff.2 ⟨id, input, hw⟩)
      | some t =>
        have htoken : placeholderToken t.name = defaultImage := by
          simpa [hlast, Target.placeholder, Target.name] using hv
        have hchars := congrArg String.toList htoken
        simp [placeholderToken, defaultImage] at hchars
    refine sorted_congr fun name => ?_
    rw [← mem_sorted_iff]
    show name ∈ (g.writePlaceholders ts).filledNames values ↔ _
    rw [mem_filledNames_iff, hplaceholders, List.mem_map]
    constructor
    · rintro ⟨-, hmem | ⟨-, himage⟩⟩
      · exact hmem
      · exact absurd himage hno
    · rintro ⟨t, ht, rfl⟩
      obtain ⟨v, hv⟩ := hliteral t ht
      exact ⟨⟨v, hsupplied t ht v hv⟩, Or.inl ⟨t, ht, rfl⟩⟩
  case unresolved =>
    refine List.eq_nil_iff_forall_not_mem.2 fun name hname => ?_
    obtain ⟨hmem, hleft⟩ := mem_unresolvedNames_iff.1 hname
    obtain ⟨t, ht, rfl⟩ := (hplaceholders name).1 hmem
    obtain ⟨v, hv⟩ := hliteral t ht
    exact hleft v (hsupplied t ht v hv)

end Graph

/-- **Writing the placeholders of what is chosen is undone by filling in what was there**, whatever
is chosen, where the inputs are different literals and the workflow had no placeholders: it is back
as it was, all its placeholders are filled in and none is left. -/
theorem Mapping.selectAll_undoneBy {edits : List (String × Int)} (hnone : g.placeholders = [])
    (himage : defaultImage ∉ textLiterals g)
    (hrun : (analyze g category schema).selectAll edits = .ok m) :
    ∃ ts, m.targets = .ok ts ∧ ((ts.map fun t => (t.node, t.input)).Nodup →
      (∀ t ∈ ts, ∃ v, g.inputAt? t.node t.input = some (.literal v)) →
      g.Recalls ts (g.held ts) ∧ ∀ values, g.Recalls ts values → g.UndoneBy ts values) := by
  have hm : (analyze g category schema).Reselects m :=
    (reselects_analyze g category schema).selectAll hrun
  obtain ⟨hnodup, hnames⟩ := hm.names
  refine ⟨_, hm.targets_eq, fun hdistinct hliteral => ⟨Graph.recalls_held hnodup, ?_⟩⟩
  intro values hvalues
  exact Graph.undoneBy hnone himage hnames hdistinct hliteral hvalues

/-- The hypotheses of `selectAll_undoneBy` are met, and so are the conditions on what is chosen: two
prompts, the image and a number, which stays one. -/
theorem Mapping.inpainting_undoneBy :
    inpainting.placeholders = [] ∧ defaultImage ∉ textLiterals inpainting ∧
      ∃ m ts, (analyze inpainting .imageInpainting .empty).selectAll
          [("image", -1), ("image", 0)] = .ok m ∧ m.targets = .ok ts ∧
        ts = [⟨.str "positive_text", "1", "text"⟩, ⟨.str "image", "4", "image"⟩,
          ⟨.str "negative_text", "2", "text"⟩, ⟨.str "steps", "3", "steps"⟩] ∧
        inpainting.held ts = [("positive_prompt", .str "a fox"), ("image_filename", .str "fox.png"),
          ("negative_prompt", .str "fog"), ("steps", .int 20)] ∧
        inpainting.UndoneBy ts (inpainting.held ts) := by
  have hnone : inpainting.placeholders = [] := by decide +kernel
  have himage : defaultImage ∉ textLiterals inpainting := by decide +kernel
  have hrun : (analyze inpainting .imageInpainting .empty).selectAll
      [("image", -1), ("image", 0)] = .ok (analyze inpainting .imageInpainting .empty) :=
    eq_ok_of_toOption (by decide +kernel)
  have htargets : (analyze inpainting .imageInpainting .empty).targets = .ok
      [⟨.str "positive_text", "1", "text"⟩, ⟨.str "image", "4", "image"⟩,
        ⟨.str "negative_text", "2", "text"⟩, ⟨.str "steps", "3", "steps"⟩] :=
    eq_ok_of_toOption (by decide +kernel)
  obtain ⟨ts, hts, hundone⟩ := selectAll_undoneBy hnone himage hrun
  obtain rfl := Except.ok.inj (htargets.symm.trans hts)
  obtain ⟨hheld, hall⟩ := hundone (by decide +kernel) (by
    intro t ht
    simp only [List.mem_cons, List.not_mem_nil, or_false] at ht
    obtain rfl | rfl | rfl | rfl := ht
    · exact ⟨.str "a fox", by decide +kernel⟩
    · exact ⟨.str "fox.png", by decide +kernel⟩
    · exact ⟨.str "fog", by decide +kernel⟩
    · exact ⟨.int 20, by decide +kernel⟩)
  exact ⟨hnone, himage, _, _, hrun, htargets, rfl, by decide +kernel, hall _ hheld⟩

end NodeFlow
