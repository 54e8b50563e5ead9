import NodeFlow.Mapping.Saved
import NodeFlow.Proofs.Json.Reordering
import NodeFlow.Proofs.Mapping.Selection
/-!
# Mappings that are saved and restored

The object that a mapping is saved as is read as the mapping, whatever it
holds (`Mapping.ofJson_toJson`), so a mapping comes back whenever its text
is read as that object. It is if the values of the candidates can be stored;
those are the literals of the analysis whatever was chosen since, and the
fields and indices are written in a form that is always read back.
-/

namespace NodeFlow

open Json (Legible Keyed NaNFree Writable)

variable {g : Graph} {schema : Schema} {category : Category} {m m' : Mapping}

/-! ## Reading what is written -/

theorem Candidate.ofJson_toJson (a : Candidate) : ofJson a.toJson = .ok a := rfl

theorem Choice.ofJson_toJson (c : Choice) : ofJson c.toJson = .ok c := by
  have hcandidates : (c.candidates.map Candidate.toJson).mapM Candidate.ofJson = .ok c.candidates :=
    mapM_map_of_inverse Candidate.ofJson_toJson c.candidates
  have hsteps : ofJson c.toJson =
      (c.candidates.map Candidate.toJson).mapM Candidate.ofJson >>= fun candidates =>
        .ok { c with candidates := candidates } := rfl
  rw [hsteps, hcandidates]
  rfl

theorem Category.ofJson_name (c : Category) : ofJson (.str c.name) = .ok c := by
  cases c <;> rfl

/-- **The object of a mapping is read as the mapping.** -/
theorem Mapping.ofJson_toJson (m : Mapping) : ofJson m.toJson = .ok m := by
  have hchoices : (m.choices.map Choice.toJson).mapM Choice.ofJson = .ok m.choices :=
    mapM_map_of_inverse Choice.ofJson_toJson m.choices
  have hsteps : ofJson m.toJson =
      (m.choices.map Choice.toJson).mapM Choice.ofJson >>= fun choices =>
        Category.ofJson (.str m.category.name) >>= fun category => .ok ⟨category, choices⟩ := rfl
  rw [hsteps, hchoices, Category.ofJson_name]
  rfl

/-- A mapping comes back if its text is read as the object that was written. -/
theorem Mapping.restore_of_read (h : Json.read m.save = .ok m.toJson) : restore m.save = .ok m := by
  have hread : readJson m.save >>= ofJson = .ok m := by
    rw [readJson, h]
    exact m.ofJson_toJson
  rw [restore, hread]

/-! ## What can be stored -/

/-- The values of the candidates can be written and read: they have no not-a-number in them, no
key twice and no integer that is too long. And there are not so many of them that an index is. -/
structure Choice.Storable (c : Choice) : Prop where
  keyed : ∀ a ∈ c.candidates, Keyed a.value
  nanFree : ∀ a ∈ c.candidates, NaNFree a.value
  writable : ∀ a ∈ c.candidates, Writable a.value
  few : c.candidates.length < Numeral.unwritable

theorem Candidate.legible_toJson {a : Candidate} (h : Legible a.value) : Legible a.toJson :=
  ⟨by simp [Entries.keys], trivial, trivial, trivial, trivial, h, trivial⟩

/-- The text of a field is read back with whatever candidate was chosen since the analysis. -/
theorem Choice.legible_toJson {required : Bool} {key : String} {c : Choice}
    (hc : (ofKey g schema required key).Reselects c)
    (h : (ofKey g schema required key).Storable) : Legible c.toJson := by
  have hcandidates : ∀ v ∈ c.candidates.map Candidate.toJson, Legible v := by
    intro v hv
    obtain ⟨a, ha, rfl⟩ := List.mem_map.1 hv
    rw [hc.candidates_eq] at ha
    exact Candidate.legible_toJson
      (Json.legible_of_nanFree _ (h.keyed a ha) (h.nanFree a ha) (h.writable a ha))
  have hindex : c.selected.natAbs < Numeral.unwritable := by
    have := Numeral.thousand_le_unwritable
    have := h.few
    have := hc.least
    have := hc.lt
    omega
  have hfield : Legible c.field.key ∧ Legible c.field.displayName ∧
      Legible c.field.description := by
    rw [hc.field_eq]
    exact ⟨trivial, trivial, trivial⟩
  exact ⟨by simp [Entries.keys], hfield.1, hfield.2.1, hfield.2.2, trivial, hindex,
    Json.legibleItems_iff.2 hcandidates, trivial⟩

theorem Mapping.legible_toJson (hm : (analyze g category schema).Reselects m)
    (h : ∀ c ∈ (analyze g category schema).choices, c.Storable) : Legible m.toJson := by
  have hchoices : ∀ v ∈ m.choices.map Choice.toJson, Legible v := by
    intro v hv
    obtain ⟨c', hc', rfl⟩ := List.mem_map.1 hv
    obtain ⟨c, hc, hsame⟩ := exists_of_mem_forall₂ hm.choices hc'
    obtain ⟨required, key, -, rfl⟩ := mem_choices_analyze.1 hc
    exact Choice.legible_toJson hsame (h _ hc)
  exact ⟨by simp [Entries.keys], trivial, Json.legibleItems_iff.2 hchoices, trivial⟩

/-! ## Saving what was chosen -/

/-- **Whatever was chosen, the mapping survives saving**: if its text is read as what was written,
and this it is where the values that the analysis found can be stored. -/
theorem Mapping.restore_save_selectAll {edits : List (String × Int)}
    (hrun : (analyze g category schema).selectAll edits = .ok m) :
    (Json.read m.save = .ok m.toJson → restore m.save = .ok m) ∧
      ((∀ c ∈ (analyze g category schema).choices, c.Storable) → restore m.save = .ok m) := by
  have hm : (analyze g category schema).Reselects m :=
    (reselects_analyze g category schema).selectAll hrun
  refine ⟨restore_of_read, fun h => restore_of_read ?_⟩
  exact Json.read_write Json.Format.separates_saved rfl (legible_toJson hm h)

/-- The hypothesis of `restore_save_selectAll` is met, and the values of the analysis can be stored:
three texts and a number. The image is not chosen any more, and stays so. -/
theorem Mapping.inpainting_restore_save :
    ∃ m, (analyze inpainting .imageInpainting .empty).selectAll [("image", -1)] = .ok m ∧
      m ≠ analyze inpainting .imageInpainting .empty ∧
      (∀ c ∈ (analyze inpainting .imageInpainting .empty).choices, c.Storable) ∧
      restore m.save = .ok m := by
  have hselect : ((analyze inpainting .imageInpainting .empty).selectAll
      [("image", -1)]).toOption.any (· ≠ analyze inpainting .imageInpainting .empty) := by
    decide +kernel
  obtain ⟨m, hm, hne⟩ := (Option.any_eq_true _ _).1 hselect
  have hrun := eq_ok_of_toOption hm
  have hvalues : ∀ c ∈ (analyze inpainting .imageInpainting .empty).choices,
      c.candidates.length < 2 ∧ ∀ a ∈ c.candidates,
        a.value ∈ [.str "a fox", .str "fog", .int 20, .str "fox.png"] := by
    decide +kernel
  have hstorable : ∀ c ∈ (analyze inpainting .imageInpainting .empty).choices, c.Storable := by
    intro c hc
    obtain ⟨hfew, hall⟩ := hvalues c hc
    have hlegible : ∀ a ∈ c.candidates, Keyed a.value ∧ NaNFree a.value ∧ Writable a.value := by
      intro a ha
      have hvalue := hall a ha
      simp only [List.mem_cons, List.not_mem_nil, or_false] at hvalue
      obtain hv | hv | hv | hv := hvalue
      all_goals rw [hv]
      · exact ⟨trivial, nofun, nofun⟩
      · exact ⟨trivial, nofun, nofun⟩
      · refine ⟨trivial, nofun, fun i hi => ?_⟩
        obtain rfl := Json.int.inj hi
        exact lt_of_lt_of_le (by decide) Numeral.thousand_le_unwritable
      · exact ⟨trivial, nofun, nofun⟩
    exact ⟨fun a ha => (hlegible a ha).1, fun a ha => (hlegible a ha).2.1,
      fun a ha => (hlegible a ha).2.2,
      (lt_of_lt_of_le hfew (by decide)).trans_le Numeral.thousand_le_unwritable⟩
  exact ⟨m, hrun, of_decide_eq_true hne, hstorable, (restore_save_selectAll hrun).2 hstorable⟩

end NodeFlow
