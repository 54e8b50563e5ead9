import NodeFlow.Proofs.Mapping.Placeholders
import NodeFlow.Proofs.Mapping.Prompts
import NodeFlow.Proofs.Sequence
/-!
# Selections

A user goes from one choice of candidates to another. Whatever is chosen in
turn, the fields and their candidates stay as they were analyzed and only the
indices change, within bounds: `Mapping.Reselects`. As every candidate is an
input that is there, so is every target, and writing the placeholders passes
over none.
-/

namespace NodeFlow

variable {g : Graph} {schema : Schema} {category : Category}
variable {m m' m₀ : Mapping} {key : String} {index : Int} {ts : List Target}

/-! ## What candidates tell -/

/-- A candidate tells of a node, one of its inputs and the literal that is there, if any. -/
structure Candidate.Describes (a : Candidate) (n : Node) : Prop where
  title : a.title = n.displayTitle
  classType : a.classType = n.classType
  input : ∃ v, n.inputs.get? a.input = some v ∧ a.value = v.literal?.getD .null

theorem Candidate.IsIn.exists_describes {a : Candidate} (h : a.IsIn g) (hk : g.WellKeyed) :
    ∃ n, g.node? a.node = some n ∧ a.Describes n := by
  obtain ⟨n, hn, input, hinput, rfl⟩ := h
  obtain ⟨v, hv⟩ := Option.isSome_iff_exists.1 hinput
  refine ⟨n, hk.node?_id hn, rfl, rfl, v, hv, ?_⟩
  show (n.literal? input).getD .null = _
  rw [Node.literal?, hv, Option.bind_some]

/-! ## Choosing again -/

namespace Choice

/-- The same choice, but for the index, which is that of a candidate or that of none. -/
structure Reselects (c c' : Choice) : Prop where
  same : c' = { c with selected := c'.selected }
  least : -1 ≤ c'.selected
  lt : c'.selected < c.candidates.length

variable {c c' c₀ : Choice}

theorem Reselects.candidates_eq (h : c.Reselects c') : c'.candidates = c.candidates := by
  rw [h.same]

theorem Reselects.field_eq (h : c.Reselects c') : c'.field = c.field := by
  rw [h.same]

/-- An index is accepted before and after. -/
theorem Reselects.accepts_iff (h : c.Reselects c') (index : Int) :
    c'.accepts index ↔ c.accepts index := by
  rw [accepts, accepts, h.candidates_eq]

theorem accepts_iff : c.accepts index ↔ -1 ≤ index ∧ index < c.candidates.length := by
  simp [accepts]

theorem select_eq_ok_iff :
    c.select index = .ok c' ↔ c.accepts index ∧ c' = { c with selected := index } := by
  rw [select]
  split
  case isTrue haccepts => simp [haccepts, eq_comm]
  case isFalse hnot => simp [hnot]

/-- What a selection does to a choice. -/
inductive Selects (key : String) (index : Int) : Choice → Choice → Prop where
  /-- Of the field that is meant the index changes. -/
  | chosen {c : Choice} (hkey : c.field.key = .str key) (haccepts : c.accepts index) :
      Selects key index c { c with selected := index }
  /-- Any other field stays. -/
  | other {c : Choice} (hkey : c.field.key ≠ .str key) : Selects key index c c

theorem selects_iff :
    (if c.field.key = .str key then c.select index else .ok c) = .ok c' ↔
      Selects key index c c' := by
  constructor
  · intro h
    split at h
    case isTrue hkey =>
      obtain ⟨haccepts, rfl⟩ := select_eq_ok_iff.1 h
      exact .chosen hkey haccepts
    case isFalse hkey =>
      cases h
      exact .other hkey
  · rintro (⟨hkey, haccepts⟩ | hkey)
    · rw [if_pos hkey]
      exact select_eq_ok_iff.2 ⟨haccepts, rfl⟩
    · rw [if_neg hkey]

/-- A choice can be made where the field, if it is the one that is meant, accepts the index. -/
theorem exists_selects_iff :
    (∃ c', Selects key index c c') ↔ (c.field.key = .str key → c.accepts index) := by
  constructor
  · rintro ⟨c', hselects⟩ hkey
    cases hselects with
    | chosen _ haccepts => exact haccepts
    | other hother => exact absurd hkey hother
  · intro h
    by_cases hkey : c.field.key = .str key
    · exact ⟨_, .chosen hkey (h hkey)⟩
    · exact ⟨_, .other hkey⟩

theorem Selects.reselects (h : Selects key index c c') (hc : c₀.Reselects c) :
    c₀.Reselects c' := by
  cases h with
  | chosen hkey haccepts =>
    obtain ⟨hleast, hlt⟩ := accepts_iff.1 haccepts
    exact ⟨by rw [hc.same], hleast, hc.candidates_eq ▸ hlt⟩
  | other hkey => exact hc

/-- An analysis chooses the first candidate, or none where there is none. -/
theorem reselects_ofKey (g : Graph) (schema : Schema) (required : Bool) (key : String) :
    (ofKey g schema required key).Reselects (ofKey g schema required key) := by
  constructor
  case same => rfl
  all_goals
    rw [ofKey]
    cases g.candidates schema key <;> simp

end Choice

namespace Mapping

/-- The same fields in the same order with the same candidates; only the indices may differ. -/
structure Reselects (m m' : Mapping) : Prop where
  category : m'.category = m.category
  choices : List.Forall₂ Choice.Reselects m.choices m'.choices

theorem reselects_analyze (g : Graph) (category : Category) (schema : Schema) :
    (analyze g category schema).Reselects (analyze g category schema) := by
  refine ⟨rfl, List.forall₂_same.2 fun c hc => ?_⟩
  obtain ⟨required, key, -, rfl⟩ := mem_choices_analyze.1 hc
  exact Choice.reselects_ofKey g schema required key

/-- A selection that succeeds, field by field. -/
theorem select_eq_ok_iff :
    m.select key index = .ok m' ↔
      m'.category = m.category ∧
        List.Forall₂ (Choice.Selects key index) m.choices m'.choices := by
  have hrow : ∀ choices, List.Forall₂ (Choice.Selects key index) m.choices choices ↔
      m.choices.mapM (fun c => if c.field.key = .str key then c.select index else .ok c) =
        .ok choices := by
    intro choices
    simp only [mapM_eq_ok_iff, Choice.selects_iff]
  rw [hrow]
  constructor
  · intro h
    obtain ⟨choices, hchoices, hm'⟩ := exists_of_bind_eq_ok h
    cases hm'
    exact ⟨rfl, hchoices⟩
  · rintro ⟨hcategory, hchoices⟩
    obtain ⟨category, choices⟩ := m'
    obtain rfl : category = m.category := hcategory
    rw [select, hchoices]
    rfl

/-- A selection succeeds where the fields that are meant accept the index. -/
theorem exists_select_iff :
    (∃ m', m.select key index = .ok m') ↔
      ∀ c ∈ m.choices, c.field.key = .str key → c.accepts index := by
  simp only [select_eq_ok_iff, ← Choice.exists_selects_iff, ← exists_forall₂_iff]
  constructor
  · rintro ⟨m', -, hchoices⟩
    exact ⟨m'.choices, hchoices⟩
  · rintro ⟨choices, hchoices⟩
    exact ⟨{ m with choices := choices }, rfl, hchoices⟩

/-- **Step: a selection** that succeeds changes no more than indices, within bounds. -/
theorem Reselects.select (h : m₀.Reselects m) (hselect : m.select key index = .ok m') :
    m₀.Reselects m' := by
  obtain ⟨hcategory, hchoices⟩ := select_eq_ok_iff.1 hselect
  refine ⟨hcategory.trans h.category, forall₂_trans ?_ h.choices hchoices⟩
  intro c₀ c c' hc hc'
  exact hc'.reselects hc

/-- One selection after the other; the first one that fails ends it. -/
def selectAll (m : Mapping) (edits : List (String × Int)) : Except Fault Mapping :=
  edits.foldlM (fun m e => m.select e.1 e.2) m

/-- **Run: selections in turn.** -/
theorem Reselects.selectAll {edits : List (String × Int)} (h : m₀.Reselects m)
    (hrun : m.selectAll edits = .ok m') : m₀.Reselects m' := by
  induction edits generalizing m with
  | nil =>
    cases hrun
    exact h
  | cons e edits ih =>
    rw [Mapping.selectAll, List.foldlM_cons] at hrun
    obtain ⟨next, hnext, hrest⟩ := exists_of_bind_eq_ok hrun
    exact ih (h.select hnext) hrest

/-- Whatever was chosen, the same indices are accepted. -/
theorem Reselects.exists_select_iff (h : m₀.Reselects m) :
    (∃ m', m.select key index = .ok m') ↔
      ∀ c ∈ m₀.choices, c.field.key = .str key → c.accepts index := by
  rw [Mapping.exists_select_iff]
  constructor
  · intro hall c hc hkey
    obtain ⟨c', hc', hsame⟩ := exists_of_mem_forall₂ h.choices.flip hc
    exact (hsame.accepts_iff index).1 (hall c' hc' (hsame.field_eq ▸ hkey))
  · intro hall c' hc' hkey
    obtain ⟨c, hc, hsame⟩ := exists_of_mem_forall₂ h.choices hc'
    exact (hsame.accepts_iff index).2 (hall c hc (hsame.field_eq ▸ hkey))

/-- Whatever was chosen, the fields stay the same. -/
theorem Reselects.keys_eq (h : m.Reselects m') :
    m'.choices.map (fun c => c.field.key) = m.choices.map fun c => c.field.key :=
  (map_eq_of_forall₂ h.choices fun c c' hc => by rw [hc.field_eq]).symm

end Mapping

/-! ## Writing into what was chosen -/

theorem Target.existsIn_iff {t : Target} :
    t.existsIn g ↔ ∃ v, g.inputAt? t.node t.input = some v := by
  rw [existsIn, Graph.inputAt?]
  cases g.node? t.node with
  | none => simp
  | some n => exact Option.isSome_iff_exists

namespace Graph

/-- Writing placeholders adds and removes no input. -/
theorem existsIn_writePlaceholders {t : Target} (g : Graph) (ts : List Target) :
    t.existsIn (g.writePlaceholders ts) ↔ t.existsIn g := by
  simp only [Target.existsIn_iff, inputAt?_writePlaceholders, ← Option.isSome_iff_exists,
    Option.isSome_map]

/-- No target is passed over as the placeholders are written in turn. -/
structure WritesAll (g : Graph) (ts : List Target) : Prop where
  /-- Each is an input of the workflow. -/
  exist : ∀ t ∈ ts, t.existsIn g
  /-- It is still there when its turn comes. -/
  inTurn : ∀ before t after, ts = before ++ t :: after → t.existsIn (g.writePlaceholders before)
  /-- Nothing is reported. -/
  silent : g.placeholderEvents ts = []

theorem writesAll (h : ∀ t ∈ ts, t.existsIn g) : g.WritesAll ts where
  exist := h
  inTurn := by
    rintro before t after rfl
    exact (existsIn_writePlaceholders g before).2 (h t (by simp))
  silent := by
    rw [placeholderEvents, List.filter_eq_nil_iff.2 fun t ht => by simp [h t ht], List.map_nil]

end Graph

namespace Mapping

theorem mem_of_candidate?_eq_some {c : Choice} {a : Candidate} (h : c.candidate? = some a) :
    a ∈ c.candidates := by
  rw [Choice.candidate?, Schema.itemAt?] at h
  split at h
  · cases h
  · exact List.mem_of_getElem? h

/-- What is chosen of an analysis, now or later, are inputs that are there. -/
theorem Reselects.existsIn {t : Target} (h : (analyze g category schema).Reselects m)
    (hk : g.WellKeyed) (ht : t ∈ m.choices.filterMap Target.ofChoice?) : t.existsIn g := by
  obtain ⟨c', hc', hchosen⟩ := List.mem_filterMap.1 ht
  obtain ⟨a, ha, rfl⟩ := Option.map_eq_some_iff.1 hchosen
  obtain ⟨c, hc, hsame⟩ := exists_of_mem_forall₂ h.choices hc'
  obtain ⟨required, key, -, rfl⟩ := mem_choices_analyze.1 hc
  have hmem := hsame.candidates_eq ▸ mem_of_candidate?_eq_some ha
  exact Target.existsIn_iff.2 ((Graph.isIn_of_mem_candidates hmem).exists_inputAt? hk)

theorem Reselects.targets_eq (h : (analyze g category schema).Reselects m) :
    m.targets = .ok (m.choices.filterMap Target.ofChoice?) :=
  Mapping.targets_eq (h.keys_eq.trans (keys_analyze g category schema))
    (category.nodup_keys g.classTypes)

end Mapping

/-! ## Analyses and what becomes of them -/

namespace Graph

/-- What an analysis offers, and what becomes of it. -/
structure Selectable (g : Graph) (category : Category) (schema : Schema) : Prop where
  /-- Every candidate of every field tells of a node of the workflow. -/
  sound : ∀ c ∈ (Mapping.analyze g category schema).choices, ∀ a ∈ c.candidates,
    ∃ n, g.node? a.node = some n ∧ a.Describes n
  /-- Every node with the text of a prompt is offered for a prompt. -/
  prompts : ∀ n ∈ g.nodeList, n.HoldsPrompt → g.OffersPrompt schema n
  /-- Selections that succeed change no more than indices, within bounds. -/
  fields : ∀ edits m, (Mapping.analyze g category schema).selectAll edits = .ok m →
    (Mapping.analyze g category schema).Reselects m
  /-- A field goes on to accept the indices of its candidates and that of none. -/
  selects : ∀ edits m, (Mapping.analyze g category schema).selectAll edits = .ok m →
    ∀ key index, (∃ m', m.select key index = .ok m') ↔
      ∀ c ∈ (Mapping.analyze g category schema).choices, c.field.key = .str key →
        -1 ≤ index ∧ index < c.candidates.length
  /-- The candidates that are chosen then are targets, and all of them are written into. -/
  targets : ∀ edits m, (Mapping.analyze g category schema).selectAll edits = .ok m →
    m.targets = .ok (m.choices.filterMap Target.ofChoice?) ∧
      g.WritesAll (m.choices.filterMap Target.ofChoice?)

/-- **Candidates are inputs that are there, no encoder is lost, and whatever is chosen can be
written into.** -/
theorem selectable (hk : g.WellKeyed) (category : Category) (schema : Schema) :
    g.Selectable category schema := by
  have hfields : ∀ edits m, (Mapping.analyze g category schema).selectAll edits = .ok m →
      (Mapping.analyze g category schema).Reselects m := fun edits m hrun =>
    (Mapping.reselects_analyze g category schema).selectAll hrun
  constructor
  case sound =>
    intro c hc a ha
    obtain ⟨required, key, -, rfl⟩ := Mapping.mem_choices_analyze.1 hc
    have hcandidate : a ∈ g.candidates schema key := ha
    exact (isIn_of_mem_candidates hcandidate).exists_describes hk
  case prompts => exact fun n hn h => offersPrompt hk schema hn h
  case fields => exact hfields
  case selects =>
    intro edits m hrun key index
    simp only [(hfields edits m hrun).exists_select_iff, Choice.accepts_iff]
  case targets =>
    intro edits m hrun
    have hm := hfields edits m hrun
    exact ⟨hm.targets_eq, writesAll fun t ht => hm.existsIn hk ht⟩

/-- The hypothesis of `selectable` is met, and selections succeed: the other one of two encoders of
the positive prompt is chosen, and none of those of the negative prompt, which has none. -/
theorem twoPasses_selectable :
    twoPasses.WellKeyed ∧ twoPasses.Selectable .textToImage .empty ∧
      ∃ m, (Mapping.analyze twoPasses .textToImage .empty).selectAll
          [("positive_text", 1), ("negative_text", -1)] = .ok m ∧
        m.targets = .ok [⟨.str "positive_text", "1", "text"⟩] ∧
        twoPasses.WritesAll [⟨.str "positive_text", "1", "text"⟩] := by
  have hk : twoPasses.WellKeyed := by decide +kernel
  have hselectable := selectable hk .textToImage .empty
  have hchosen : ((Mapping.analyze twoPasses .textToImage .empty).selectAll
      [("positive_text", 1), ("negative_text", -1)]).toOption.map
        (fun m => m.choices.filterMap Target.ofChoice?) =
      some [⟨.str "positive_text", "1", "text"⟩] := by
    decide +kernel
  obtain ⟨m, hm, htargets⟩ := Option.map_eq_some_iff.1 hchosen
  have hrun := eq_ok_of_toOption hm
  have hwritten := hselectable.targets _ m hrun
  rw [htargets] at hwritten
  exact ⟨hk, hselectable, m, hrun, hwritten⟩

end Graph

end NodeFlow
