import Mathlib.Data.List.Flatten
import NodeFlow.Proofs.Mapping.Candidates
import NodeFlow.Proofs.Template.Placeholder
import NodeFlow.Validation.Verdict
/-!
# Templates of complete mappings

The placeholders of the chosen fields are written one after the other, so an
input that two fields share ends up with that of the last one: `lastAt?`.
A complete mapping therefore gives a template that is valid and has the
placeholders of all its fields exactly where each field is the last one at
its input, or its placeholder stands elsewhere.
-/

namespace NodeFlow

open Template

variable {g : Graph} {schema : Schema} {category : Category}
variable {id input key : String} {t : Target} {ts us : List Target}

/-! ## The fields of a category -/

namespace Category

/-- The fields of a category in a workflow with the given class types. -/
def keys (c : Category) (types : List String) : List String :=
  c.requiredKeys ++ c.optionalKeys types

/-- The fields of a category in any workflow, whatever its loader of text encoders. -/
def allKeys (c : Category) : List String :=
  c.requiredKeys ++ c.possibleKeys.flatMap fun k =>
    if k = "clip_name" then [k, "clip_name1", "clip_name2"] else [k]

theorem keys_sublist (c : Category) (types : List String) : (c.keys types).Sublist c.allKeys := by
  refine List.Sublist.append_left ?_ _
  rw [optionalKeys]
  split
  · refine (List.filter_sublist.flatMap _).trans (List.Sublist.flatMap_right _ fun k _ => ?_)
    split <;> simp
  · -- a key that is not replaced is one of those that stand for it
    refine List.filter_sublist.trans ?_
    nth_rewrite 1 [← List.flatMap_singleton' c.possibleKeys]
    refine List.Sublist.flatMap_right _ fun k _ => ?_
    split <;> simp

theorem isName_of_mem_fieldInfo : ∀ e ∈ fieldInfo, IsName (placeholderOfField e.1) := by
  decide +kernel

/-- **The placeholders of the fields of a category** differ, and have proper names. -/
theorem placeholders_keys (c : Category) (types : List String) :
    ((c.keys types).map placeholderOfField).Nodup ∧
      ∀ k ∈ c.keys types, IsName (placeholderOfField k) := by
  have hdistinct : (c.allKeys.map placeholderOfField).Nodup := by
    cases c <;> decide +kernel
  have hknown : ∀ k ∈ c.allKeys, ∃ e ∈ fieldInfo, e.1 = k := by
    cases c <;> decide +kernel
  have hkeys := c.keys_sublist types
  refine ⟨(hkeys.map _).nodup hdistinct, fun k hk => ?_⟩
  obtain ⟨e, he, rfl⟩ := hknown k (hkeys.subset hk)
  exact isName_of_mem_fieldInfo e he

theorem nodup_keys (c : Category) (types : List String) : (c.keys types).Nodup :=
  (c.placeholders_keys types).1.of_map _

end Category

/-! ## The targets of an analysis -/

namespace Target

/-- The name of the placeholder that is written into a target. -/
def name (t : Target) : String := placeholderOfField t.field.display

/-- Targets that stand for different fields are all kept. -/
theorem foldl_put_eq (h : (ts ++ us).Pairwise fun a b => a.agrees b = false) :
    us.foldl put ts = ts ++ us := by
  induction us generalizing ts with
  | nil => simp
  | cons u us ih =>
    have hnone : (ts.any fun t => t.agrees u) = false := by
      rw [List.any_eq_false]
      intro t ht
      simp [(List.pairwise_append.1 h).2.2 t ht u (by simp)]
    rw [List.foldl_cons, put, hnone, if_neg (by simp), ih (by simpa using h)]
    simp

/-- The input that an analysis chooses for a field: the first candidate. -/
def chosen? (g : Graph) (schema : Schema) (key : String) : Option Target :=
  (g.candidates schema key).head?.map fun a => ⟨.str key, a.node, a.input⟩

theorem exists_of_chosen?_eq_some (h : chosen? g schema key = some t) :
    t.field = .str key ∧ ∃ a ∈ g.candidates schema key, t.node = a.node ∧ t.input = a.input := by
  obtain ⟨a, ha, rfl⟩ := Option.map_eq_some_iff.1 h
  exact ⟨rfl, a, List.mem_of_head? ha, rfl, rfl⟩

theorem name_of_chosen?_eq_some (h : chosen? g schema key = some t) :
    t.name = placeholderOfField key := by
  rw [name, (exists_of_chosen?_eq_some h).1]
  rfl

end Target

namespace Mapping

theorem candidate?_ofKey (g : Graph) (schema : Schema) (required : Bool) (key : String) :
    (Choice.ofKey g schema required key).candidate? = (g.candidates schema key).head? := by
  rw [Choice.candidate?, Choice.ofKey]
  cases g.candidates schema key <;> rfl

theorem ofChoice?_ofKey (g : Graph) (schema : Schema) (required : Bool) (key : String) :
    Target.ofChoice? (.ofKey g schema required key) = Target.chosen? g schema key := by
  rw [Target.ofChoice?, candidate?_ofKey]
  rfl

/-- The choices of an analysis are those for the fields of the category. -/
theorem mem_choices_analyze {c : Choice} :
    c ∈ (analyze g category schema).choices ↔
      ∃ required key, (if required then key ∈ category.requiredKeys
        else key ∈ category.optionalKeys g.classTypes) ∧ c = .ofKey g schema required key := by
  simp only [analyze, List.mem_append, List.mem_map]
  constructor
  · rintro (⟨key, hkey, rfl⟩ | ⟨key, hkey, rfl⟩)
    · exact ⟨true, key, hkey, rfl⟩
    · exact ⟨false, key, hkey, rfl⟩
  · rintro ⟨required, key, hkey, rfl⟩
    cases required with
    | true => exact Or.inl ⟨key, hkey, rfl⟩
    | false => exact Or.inr ⟨key, hkey, rfl⟩

/-- Where the fields are texts and differ, every chosen candidate is a target, in order. -/
theorem targets_eq {m : Mapping} {keys : List String}
    (hkeys : m.choices.map (fun c => c.field.key) = keys.map .str) (hnodup : keys.Nodup) :
    m.targets = .ok (m.choices.filterMap Target.ofChoice?) := by
  have htexts : (m.choices.filterMap Target.ofChoice?).any
      (fun t => (Target.keyForm? t.field).isNone) = false := by
    rw [List.any_eq_false]
    intro t ht
    obtain ⟨c, hc, hchosen⟩ := List.mem_filterMap.1 ht
    obtain ⟨_, -, rfl⟩ := Option.map_eq_some_iff.1 hchosen
    obtain ⟨key, -, hkey⟩ := List.mem_map.1 (hkeys ▸ List.mem_map_of_mem hc)
    simp [← hkey, Target.keyForm?]
  have hdiffer : m.choices.Pairwise fun c d =>
      ∃ k l, c.field.key = .str k ∧ d.field.key = .str l ∧ k ≠ l := by
    have hstrs : (keys.map Json.str).Pairwise fun x y => ∃ k l, x = .str k ∧ y = .str l ∧ k ≠ l :=
      List.pairwise_map.2 (hnodup.imp fun hne => ⟨_, _, rfl, rfl, hne⟩)
    rwa [← hkeys, List.pairwise_map] at hstrs
  have hdistinct :
      (m.choices.filterMap Target.ofChoice?).Pairwise fun t u => t.agrees u = false := by
    refine List.pairwise_filterMap.2 (hdiffer.imp fun hkeys t ht u hu => ?_)
    obtain ⟨k, l, hk, hl, hne⟩ := hkeys
    obtain ⟨_, -, rfl⟩ := Option.map_eq_some_iff.1 ht
    obtain ⟨_, -, rfl⟩ := Option.map_eq_some_iff.1 hu
    simp [Target.agrees, hk, hl, Target.keyForm?, hne]
  rw [targets, htexts, if_neg (by simp), Target.foldl_put_eq (by simpa using hdistinct),
    List.nil_append]

theorem keys_analyze (g : Graph) (category : Category) (schema : Schema) :
    (analyze g category schema).choices.map (fun c => c.field.key) =
      (category.keys g.classTypes).map .str := by
  rw [analyze, Category.keys, List.map_append, List.map_append, List.map_map, List.map_map]
  rfl

/-- **The targets of an analysis** are the inputs that are chosen for the fields, in order. -/
theorem targets_analyze (g : Graph) (category : Category) (schema : Schema) :
    (analyze g category schema).targets =
      .ok ((category.keys g.classTypes).filterMap (Target.chosen? g schema)) := by
  rw [targets_eq (keys_analyze g category schema) (category.nodup_keys g.classTypes), analyze,
    Category.keys, List.filterMap_append, List.filterMap_append, List.filterMap_map,
    List.filterMap_map]
  congr 2 <;>
    exact List.filterMap_congr fun key _ => ofChoice?_ofKey g schema _ key

end Mapping

/-! ## Writing -/

namespace Target

/-- Whether a target is the given input. -/
def isAt (t : Target) (id input : String) : Bool := t.node = id && t.input = input

/-- The last target that is the given input. -/
def lastAt? (ts : List Target) (id input : String) : Option Target :=
  (ts.filter fun t => t.isAt id input).getLast?

theorem lastAt?_concat (ts : List Target) (t : Target) (id input : String) :
    lastAt? (ts ++ [t]) id input = if t.isAt id input then some t else lastAt? ts id input := by
  rw [lastAt?, List.filter_append, List.filter_singleton, lastAt?]
  cases t.isAt id input <;> simp

theorem mem_of_lastAt?_eq_some (h : lastAt? ts id input = some t) :
    t ∈ ts ∧ t.node = id ∧ t.input = input := by
  obtain ⟨hmem, hat⟩ := List.mem_filter.1 (List.mem_of_getLast? h)
  exact ⟨hmem, by simpa [isAt] using hat⟩

/-- Where no input is a target twice, each target is the last one at its input. -/
theorem lastAt?_of_nodup (h : (ts.map fun t => (t.node, t.input)).Nodup) (ht : t ∈ ts) :
    lastAt? ts t.node t.input = some t := by
  cases hlast : lastAt? ts t.node t.input with
  | none =>
    rw [lastAt?, List.getLast?_eq_none_iff, List.filter_eq_nil_iff] at hlast
    exact absurd (by simp [isAt]) (hlast t ht)
  | some u =>
    obtain ⟨hu, hnode, hinput⟩ := mem_of_lastAt?_eq_some hlast
    have hsame : (u.node, u.input) = (t.node, t.input) := by rw [hnode, hinput]
    rw [List.inj_on_of_nodup_map h hu ht hsame]

end Target

namespace Graph

/-- **Step: one placeholder** takes the place of what its target holds. -/
theorem inputAt?_write (g : Graph) (t : Target) (id input : String) :
    (g.modify t.node fun n =>
        if n.hasInput t.input then n.setInput t.input t.placeholder else n).inputAt? id input =
      (g.inputAt? id input).map fun v => if t.isAt id input then t.placeholder else v := by
  rw [inputAt?, inputAt?, node?_modify]
  cases hn : g.node? id with
  | none => simp
  | some n =>
    by_cases hid : id = t.node
    · subst hid
      rw [if_pos rfl, Option.map_some, Option.bind_some, Option.bind_some]
      by_cases hinput : t.input = input
      · subst hinput
        cases hv : n.inputs.get? t.input with
        | none => simp [Node.hasInput, Dict.contains, hv]
        | some v =>
          simp [Node.hasInput, Dict.contains, hv, Node.setInput, Dict.get?_insert, Target.isAt]
      · split <;> simp [Node.setInput, Dict.get?_insert, hinput, Target.isAt]
    · simp [hid, Ne.symm hid, Target.isAt]

/-- **Run: all placeholders.** An input ends up with that of the last target that it is. -/
theorem inputAt?_writePlaceholders (g : Graph) (ts : List Target) (id input : String) :
    (g.writePlaceholders ts).inputAt? id input =
      (g.inputAt? id input).map fun v =>
        ((Target.lastAt? ts id input).map Target.placeholder).getD v := by
  rw [writePlaceholders]
  -- from the last target back, since it is the one that counts
  induction ts using List.reverseRecOn with
  | nil => simp [Target.lastAt?]
  | append_singleton ts t ih =>
    rw [List.foldl_append, List.foldl_cons, List.foldl_nil, inputAt?_write, ih, Option.map_map,
      Target.lastAt?_concat]
    congr 1
    funext v
    cases t.isAt id input <;> simp

/-- A placeholder stands in a literal that is no target. -/
def HasUnwritten (g : Graph) (ts : List Target) (name : String) : Prop :=
  ∃ id input text, Target.lastAt? ts id input = none ∧
    g.inputAt? id input = some (.literal (.str text)) ∧ name ∈ tokens text

/-- **A placeholder that was written is there** exactly where it was the last one at its input, or
stands elsewhere. -/
theorem name_mem_placeholders_iff (hthere : ∀ t ∈ ts, ∃ v, g.inputAt? t.node t.input = some v)
    (hnames : ∀ t ∈ ts, IsName t.name) (hdistinct : (ts.map Target.name).Nodup) (ht : t ∈ ts) :
    t.name ∈ (g.writePlaceholders ts).placeholders ↔
      Target.lastAt? ts t.node t.input = some t ∨ g.HasUnwritten ts t.name := by
  rw [mem_placeholders_iff]
  constructor
  · rintro ⟨id, input, text, hv, hname⟩
    rw [inputAt?_writePlaceholders, Option.map_eq_some_iff] at hv
    obtain ⟨w, hw, hv⟩ := hv
    cases hlast : Target.lastAt? ts id input with
    | none =>
      obtain rfl : w = .literal (.str text) := by simpa [hlast] using hv
      exact Or.inr ⟨id, input, text, hlast, hw, hname⟩
    | some u =>
      -- all that is found there is the placeholder that was written, so it is that of the target
      obtain ⟨hu, rfl, rfl⟩ := Target.mem_of_lastAt?_eq_some hlast
      obtain rfl : placeholderToken u.name = text := by
        simpa [hlast, Target.placeholder, Target.name] using hv
      rw [tokens_placeholderToken (hnames u hu), List.mem_singleton] at hname
      obtain rfl := List.inj_on_of_nodup_map hdistinct ht hu hname
      exact Or.inl hlast
  · rintro (hlast | ⟨id, input, text, hnone, hv, hname⟩)
    · obtain ⟨v, hv⟩ := hthere t ht
      refine ⟨t.node, t.input, placeholderToken t.name, ?_, ?_⟩
      · rw [inputAt?_writePlaceholders, hv, hlast]
        rfl
      · rw [tokens_placeholderToken (hnames t ht)]
        exact List.mem_singleton_self _
    · refine ⟨id, input, text, ?_, hname⟩
      rw [inputAt?_writePlaceholders, hv, hnone]
      rfl

end Graph

/-! ## Usable templates -/

namespace Mapping

/-- A usable template of a mapping: nothing that its category needs is missing, and it has the
placeholder of every field that has a chosen input. -/
structure IsTemplate (m : Mapping) (template : Graph) : Prop where
  valid : template.templateErrors m.category = []
  placeholders : ∀ c ∈ m.choices, c.isMapped →
    placeholderOfField c.field.key.display ∈ template.placeholders

/-- What a category needs are the placeholders of its required fields. -/
theorem templateErrors_eq_nil {template : Graph}
    (h : ∀ key ∈ category.requiredKeys, placeholderOfField key ∈ template.placeholders) :
    template.templateErrors category = [] := by
  have hprompt : "positive_prompt" ∈ template.placeholders :=
    h "positive_text" (by cases category <;> decide)
  have himage : category.needsImage → "image_filename" ∈ template.placeholders := by
    intro hneeds
    refine h "image" ?_
    rw [Category.requiredKeys, if_pos hneeds]
    simp
  cases hneeds : category.needsImage with
  | false => simp [Graph.templateErrors, hneeds, hprompt]
  | true => simp [Graph.templateErrors, hprompt, imageName, himage hneeds]

/-- A field of the category is chosen for by an analysis, the required ones as required. -/
theorem exists_choice (hkey : key ∈ category.keys g.classTypes)
    (ht : Target.chosen? g schema key = some t) :
    ∃ c ∈ (analyze g category schema).choices, c.isMapped ∧ c.field.key = .str key := by
  have hmapped : ∀ required, (Choice.ofKey g schema required key).isMapped := by
    intro required
    obtain ⟨a, ha, -⟩ := Option.map_eq_some_iff.1 ht
    rw [Choice.isMapped, candidate?_ofKey, ha]
    rfl
  rcases List.mem_append.1 hkey with hrequired | hoptional
  · exact ⟨_, mem_choices_analyze.2 ⟨true, key, hrequired, rfl⟩, hmapped true, rfl⟩
  · exact ⟨_, mem_choices_analyze.2 ⟨false, key, hoptional, rfl⟩, hmapped false, rfl⟩

theorem exists_chosen? {required : Bool} (h : (Choice.ofKey g schema required key).isMapped) :
    ∃ t, Target.chosen? g schema key = some t := by
  rw [Choice.isMapped, candidate?_ofKey, Option.isSome_iff_exists] at h
  obtain ⟨a, ha⟩ := h
  exact ⟨⟨.str key, a.node, a.input⟩, by rw [Target.chosen?, ha]; rfl⟩

/-- The template of a complete mapping is usable if it has the placeholders of all targets. -/
theorem isTemplate_iff (template : Graph) (hcomplete : (analyze g category schema).isComplete) :
    (analyze g category schema).IsTemplate template ↔
      ∀ t ∈ (category.keys g.classTypes).filterMap (Target.chosen? g schema),
        t.name ∈ template.placeholders := by
  constructor
  · intro htemplate t ht
    obtain ⟨key, hkey, hchosen⟩ := List.mem_filterMap.1 ht
    obtain ⟨c, hc, hmapped, hfield⟩ := exists_choice hkey hchosen
    have hthere := htemplate.placeholders c hc hmapped
    rw [hfield] at hthere
    rwa [Target.name_of_chosen?_eq_some hchosen]
  · intro hall
    have hkeys : ∀ required key, key ∈ category.keys g.classTypes →
        (Choice.ofKey g schema required key).isMapped →
        placeholderOfField key ∈ template.placeholders := by
      intro required key hkey hmapped
      obtain ⟨t, ht⟩ := exists_chosen? hmapped
      rw [← Target.name_of_chosen?_eq_some ht]
      exact hall t (List.mem_filterMap.2 ⟨key, hkey, ht⟩)
    refine ⟨templateErrors_eq_nil fun key hkey => ?_, ?_⟩
    · -- a required field is chosen for, since the mapping is complete
      refine hkeys true key (List.mem_append_left _ hkey) ?_
      have hc : Choice.ofKey g schema true key ∈ (analyze g category schema).choices :=
        mem_choices_analyze.2 ⟨true, key, hkey, rfl⟩
      simpa [Choice.ofKey] using List.all_eq_true.1 hcomplete _ hc
    · intro c hc hmapped
      obtain ⟨required, key, hkey, rfl⟩ := mem_choices_analyze.1 hc
      refine hkeys required key ?_ hmapped
      cases required with
      | true => exact List.mem_append_left _ hkey
      | false => exact List.mem_append_right _ hkey

/-- **A complete mapping gives a usable template exactly where no field is lost**: each one is the
last that is written into its input, or its placeholder stands in a literal that no field is
written into. So it does where no two fields share an input. -/
theorem isTemplate_writePlaceholders_iff (hk : g.WellKeyed)
    (hcomplete : (analyze g category schema).isComplete) :
    ∃ ts, (analyze g category schema).targets = .ok ts ∧
      ((analyze g category schema).IsTemplate (g.writePlaceholders ts) ↔
        ∀ t ∈ ts, Target.lastAt? ts t.node t.input = some t ∨ g.HasUnwritten ts t.name) ∧
      ((ts.map fun t => (t.node, t.input)).Nodup →
        (analyze g category schema).IsTemplate (g.writePlaceholders ts)) := by
  obtain ⟨hdistinct, hnames⟩ := category.placeholders_keys g.classTypes
  have hthere : ∀ t ∈ (category.keys g.classTypes).filterMap (Target.chosen? g schema),
      ∃ v, g.inputAt? t.node t.input = some v := by
    intro t ht
    obtain ⟨key, -, hchosen⟩ := List.mem_filterMap.1 ht
    obtain ⟨-, a, ha, hnode, hinput⟩ := Target.exists_of_chosen?_eq_some hchosen
    rw [hnode, hinput]
    exact (Graph.isIn_of_mem_candidates ha).exists_inputAt? hk
  have hnamed : ∀ t ∈ (category.keys g.classTypes).filterMap (Target.chosen? g schema),
      IsName t.name := by
    intro t ht
    obtain ⟨key, hkey, hchosen⟩ := List.mem_filterMap.1 ht
    rw [Target.name_of_chosen?_eq_some hchosen]
    exact hnames key hkey
  have hdiffer : (((category.keys g.classTypes).filterMap (Target.chosen? g schema)).map
      Target.name).Nodup := by
    rw [List.Nodup, List.pairwise_map, List.pairwise_filterMap]
    refine (List.pairwise_map.1 hdistinct).imp ?_
    intro k k' hne t ht u hu
    rwa [Target.name_of_chosen?_eq_some ht, Target.name_of_chosen?_eq_some hu]
  have hiff := isTemplate_iff (g.writePlaceholders
    ((category.keys g.classTypes).filterMap (Target.chosen? g schema))) hcomplete
  have hlast : ∀ t ∈ (category.keys g.classTypes).filterMap (Target.chosen? g schema), _ :=
    fun t ht => Graph.name_mem_placeholders_iff hthere hnamed hdiffer ht
  refine ⟨_, targets_analyze g category schema, ?_, fun hnodup => ?_⟩
  · rw [hiff]
    exact forall₂_congr hlast
  · rw [hiff]
    intro t ht
    exact (hlast t ht).2 (Or.inl (Target.lastAt?_of_nodup hnodup ht))

/-- Two encoders that a sampler tells apart, and a loader of the image that is painted over. -/
def inpainting : Graph where
  nodes := .ofList [
    ("1", { id := "1", classType := "CLIPTextEncode"
            inputs := .ofList [("text", .literal (.str "a fox"))] }),
    ("2", { id := "2", classType := "CLIPTextEncode"
            inputs := .ofList [("text", .literal (.str "fog"))] }),
    ("3", { id := "3", classType := "KSampler"
            inputs := .ofList [("positive", .connection "1" 0), ("negative", .connection "2" 0),
              ("steps", .literal (.int 20))] }),
    ("4", { id := "4", classType := "LoadImage"
            inputs := .ofList [("image", .literal (.str "fox.png"))] })]

/-- The targets of its fields. -/
def inpaintingTargets : List Target := [
  ⟨.str "positive_text", "1", "text"⟩, ⟨.str "image", "4", "image"⟩,
  ⟨.str "negative_text", "2", "text"⟩, ⟨.str "steps", "3", "steps"⟩]

/-- The hypotheses of `isTemplate_writePlaceholders_iff` are met, and no input is shared. -/
theorem inpainting_isTemplate :
    inpainting.WellKeyed ∧ (analyze inpainting .imageInpainting .empty).isComplete ∧
      (analyze inpainting .imageInpainting .empty).targets = .ok inpaintingTargets ∧
      (analyze inpainting .imageInpainting .empty).IsTemplate
        (inpainting.writePlaceholders inpaintingTargets) := by
  have hk : inpainting.WellKeyed := by decide +kernel
  have hcomplete : (analyze inpainting .imageInpainting .empty).isComplete := by decide +kernel
  have htargets : (analyze inpainting .imageInpainting .empty).targets = .ok inpaintingTargets :=
    eq_ok_of_toOption (by decide +kernel)
  obtain ⟨ts, hts, -, husable⟩ := isTemplate_writePlaceholders_iff hk hcomplete
  obtain rfl : ts = inpaintingTargets := Except.ok.inj (hts.symm.trans htargets)
  exact ⟨hk, hcomplete, htargets, husable (by decide +kernel)⟩

/-- An encoder whose output leads nowhere and whose title tells nothing. -/
def loneEncoder : Graph where
  nodes := .ofList [
    ("1", { id := "1", classType := "CLIPTextEncode"
            inputs := .ofList [("text", .literal (.str "a fox"))] })]

/-- **A complete mapping need not give a usable template**: an encoder that nothing tells apart is
chosen for both prompts, and the negative one is written over the positive one. -/
theorem not_isTemplate_loneEncoder :
    loneEncoder.WellKeyed ∧ (analyze loneEncoder .textToImage .empty).isComplete ∧
      ∃ ts, (analyze loneEncoder .textToImage .empty).targets = .ok ts ∧
        (loneEncoder.writePlaceholders ts).templateErrors .textToImage = [.noPrompt] ∧
        (loneEncoder.writePlaceholders ts).placeholders = ["negative_prompt"] ∧
        ¬ (analyze loneEncoder .textToImage .empty).IsTemplate
          (loneEncoder.writePlaceholders ts) := by
  have herrors : (loneEncoder.writePlaceholders [⟨.str "positive_text", "1", "text"⟩,
      ⟨.str "negative_text", "1", "text"⟩]).templateErrors .textToImage = [.noPrompt] := by
    decide +kernel
  refine ⟨by decide +kernel, by decide +kernel, _, eq_ok_of_toOption (by decide +kernel), herrors,
    by decide +kernel, ?_⟩
  intro htemplate
  cases herrors.symm.trans htemplate.valid

end Mapping

end NodeFlow
