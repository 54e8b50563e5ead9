import NodeFlow.Proofs.Document.RoundTrip
/-!
# Documents within the limit

A document can be written as a text if no integer in it has too many digits.
What is said here of workflows is said part by part: of the modes of nodes, of
what their inputs hold, of the ids of groups and notes, and of the other
entries (`Graph.isWritable_toJson_iff`). A document that can be written can
be read, and its errors can be worded.
-/

namespace NodeFlow

theorem Entries.mem_or_eq_of_mem_put {α : Type} {es : List (String × α)} {key : String} {value : α}
    {e : String × α} (h : e ∈ put es key value) : e ∈ es ∨ e = (key, value) := by
  induction es with
  | nil => exact Or.inr (List.mem_singleton.1 h)
  | cons head es ih =>
    rw [put] at h
    split at h
    · rename_i hkey
      rcases List.mem_cons.1 h with rfl | h
      · exact Or.inr (by rw [hkey])
      · exact Or.inl (List.mem_cons_of_mem _ h)
    · rcases List.mem_cons.1 h with rfl | h
      · exact Or.inl List.mem_cons_self
      · exact (ih h).imp_left (List.mem_cons_of_mem _)

/-! ## Nodes -/

/-- An input that can be written can be read back. -/
theorem InputValue.isRereadable_of_isWritable {v : InputValue} (h : v.toJson.isWritable) :
    v.isRereadable := by
  cases v with
  | literal w =>
    show namesShortly w = true
    unfold namesShortly
    split
    · exact Json.isWritable_arr_iff.1 h _ (by simp)
    · rfl
  | connection source output => rfl
  | slot type => rfl

/-- An open slot is left out, and nothing of it can be too long. -/
theorem Node.isWritable_inputs_iff {n : Node} :
    (Json.obj (n.inputs.filterMap fun _ v => v.written?).entries).isWritable ↔
      ∀ input v, n.inputs.get? input = some v → v.toJson.isWritable := by
  rw [Json.isWritable_obj_iff]
  constructor
  · intro h input v hv
    have hwritten : ∀ w, v.written? = some w → w.isWritable := by
      intro w hw
      exact h (input, w) (Dict.get?_eq_some_iff.1 (by rw [Dict.get?_filterMap, hv]; exact hw))
    cases v with
    | slot type => rfl
    | _ => exact hwritten _ rfl
  · intro h e he
    have hget := Dict.get?_eq_some_iff.2 he
    rw [Dict.get?_filterMap, Option.bind_eq_some_iff] at hget
    obtain ⟨v, hv, hwritten⟩ := hget
    cases v with
    | slot type => cases hwritten
    | _ => exact Option.some.inj hwritten ▸ h e.1 _ hv

/-- A node can be written if its mode and what its inputs hold can. -/
theorem Node.isWritable_toJson_iff {n : Node} : n.toJson.isWritable ↔
    (Json.int n.mode).isWritable ∧
      ∀ input v, n.inputs.get? input = some v → v.toJson.isWritable := by
  have htitle : ∀ e ∈ (n.ownTitle?.map fun t => ("_meta", Json.obj [("title", .str t)])).toList,
      e.2.isWritable = true := by
    intro e he
    obtain ⟨t, -, rfl⟩ := Option.map_eq_some_iff.1 (Option.mem_toList.1 he)
    rfl
  rw [toJson, Json.isWritable_obj_iff, toFields, ← isWritable_inputs_iff]
  simp only [List.forall_mem_append, List.forall_mem_cons]
  constructor
  · rintro ⟨⟨⟨-, hin, -⟩, hmode⟩, -⟩
    refine ⟨?_, hin⟩
    by_cases hactive : n.mode = activeMode
    · rw [hactive]
      decide +kernel
    · rw [if_pos hactive] at hmode
      exact hmode _ (List.mem_singleton_self _)
  · rintro ⟨hmode, hin⟩
    refine ⟨⟨⟨rfl, hin, List.forall_mem_nil _⟩, ?_⟩, htitle⟩
    split
    · simpa using hmode
    · exact List.forall_mem_nil _

theorem Node.isRereadable_of_isWritable {n : Node} (h : n.toJson.isWritable) : n.isRereadable := by
  rw [isRereadable, List.all_eq_true]
  exact fun e he => InputValue.isRereadable_of_isWritable
    ((isWritable_toJson_iff.1 h).2 e.1 e.2 (Dict.get?_eq_some_iff.2 he))

namespace Graph

variable {g : Graph}

/-! ## Workflows -/

/-- No integer in a workflow has too many digits to be written. -/
structure Short (g : Graph) : Prop where
  nodes : ∀ id n, g.node? id = some n → n.toJson.isWritable
  groups : ∀ gr ∈ g.groups, gr.id.isWritable
  notes : ∀ n ∈ g.notes, n.id.isWritable
  metadata : ∀ key v, g.metadata.get? key = some v → v.isWritable

theorem isWritable_groups_iff {groups : List Group} :
    (Json.arr (groups.map Group.toJson)).isWritable ↔ ∀ gr ∈ groups, gr.id.isWritable := by
  have hstr : ∀ m : String, (Json.str m).isWritable := fun _ => rfl
  rw [Json.isWritable_arr_iff, List.forall_mem_map]
  refine forall₂_congr fun gr _ => ?_
  rw [Group.toJson, Json.isWritable_obj_iff]
  simp only [List.forall_mem_cons, Json.isWritable_arr_iff, List.forall_mem_map]
  exact ⟨And.left, fun h => ⟨h, hstr _, fun m _ => hstr m, List.forall_mem_nil _⟩⟩

theorem isWritable_notes_iff {notes : List Note} :
    (Json.arr (notes.map Note.toJson)).isWritable ↔ ∀ n ∈ notes, n.id.isWritable := by
  rw [Json.isWritable_arr_iff, List.forall_mem_map]
  refine forall₂_congr fun n _ => ?_
  rw [Note.toJson, Json.isWritable_obj_iff]
  simp only [List.forall_mem_cons]
  exact ⟨And.left, fun h => ⟨h, rfl, rfl, List.forall_mem_nil _⟩⟩

theorem isWritable_headEntries_iff :
    (Json.obj g.headEntries).isWritable ↔ ∀ id n, g.node? id = some n → n.toJson.isWritable := by
  have hnodes : (Json.obj g.nodeEntries.entries).isWritable ↔
      ∀ id n, g.node? id = some n → n.toJson.isWritable := by
    rw [Json.isWritable_obj_iff, nodeEntries, Dict.map, List.forall_mem_map]
    exact ⟨fun h id n hn => h (id, n) (Dict.get?_eq_some_iff.1 hn),
      fun h e he => h e.1 e.2 (Dict.get?_eq_some_iff.2 he)⟩
  rw [headEntries]
  split
  · rw [Json.isWritable_obj_iff, List.forall_mem_singleton]
    exact hnodes
  · exact hnodes

/-- An entry for a list is left out where the list is empty. -/
theorem isWritable_listEntry_iff {α : Type} {xs : List α} {f : α → Json} {key : String} :
    (∀ e ∈ (if xs.isEmpty then [] else [(key, Json.arr (xs.map f))] : Fields), e.2.isWritable) ↔
      (Json.arr (xs.map f)).isWritable := by
  cases xs with
  | nil => exact ⟨fun _ => rfl, fun _ => List.forall_mem_nil _⟩
  | cons x xs => exact List.forall_mem_singleton

/-- **A document can be written part by part.** -/
theorem isWritable_toJson_iff (hw : g.Writable) : g.toJson.isWritable ↔
    (∀ id n, g.node? id = some n → n.toJson.isWritable) ∧ (∀ gr ∈ g.groups, gr.id.isWritable) ∧
      (∀ n ∈ g.notes, n.id.isWritable) ∧ ∀ e ∈ g.writtenMetadata.entries, e.2.isWritable := by
  have hgroups : (∀ e ∈ g.groupEntries, e.2.isWritable) ↔ ∀ gr ∈ g.groups, gr.id.isWritable :=
    isWritable_listEntry_iff.trans isWritable_groups_iff
  have hnotes : (∀ e ∈ g.noteEntries, e.2.isWritable) ↔ ∀ n ∈ g.notes, n.id.isWritable :=
    isWritable_listEntry_iff.trans isWritable_notes_iff
  rw [toJson, Json.isWritable_obj_iff, toFields_eq hw]
  simp only [List.forall_mem_append]
  rw [hgroups, hnotes, ← Json.isWritable_obj_iff, isWritable_headEntries_iff, and_assoc, and_assoc]

/-- The document of a workflow whose integers are short can be written, also where its entries
overwrite each other. -/
theorem Short.isWritable_toJson (hg : g.Short) : g.toJson.isWritable := by
  have hput : ∀ (fields : Fields) (key : String) (v : Json), (Json.obj fields).isWritable →
      v.isWritable → (Json.obj (Entries.put fields key v)).isWritable := by
    intro fields key v hfields hv
    rw [Json.isWritable_obj_iff] at hfields ⊢
    intro e he
    rcases Entries.mem_or_eq_of_mem_put he with he | rfl
    · exact hfields e he
    · exact hv
  have hhead : (Json.obj g.headEntries).isWritable := isWritable_headEntries_iff.2 hg.nodes
  have hgroups := isWritable_groups_iff.2 hg.groups
  have hnotes := isWritable_notes_iff.2 hg.notes
  rw [toJson, toFields]
  refine List.foldlRecOn (motive := fun fs : Fields => (Json.obj fs).isWritable = true) _ _ ?_ ?_
  · split <;> split
    · exact hhead
    · exact hput _ _ _ hhead hgroups
    · exact hput _ _ _ hhead hnotes
    · exact hput _ _ _ (hput _ _ _ hhead hgroups) hnotes
  · intro fs hfs e he
    split
    · exact hfs
    · exact hput _ _ _ hfs (hg.metadata e.1 e.2 (Dict.get?_eq_some_iff.2 he))

/-- A workflow that can be written can be read back. -/
theorem isRereadable_of_isWritable (hw : g.Writable) (h : g.toJson.isWritable) :
    g.isRereadable := by
  rw [isRereadable, List.all_eq_true]
  exact fun e he => Node.isRereadable_of_isWritable
    (((isWritable_toJson_iff hw).1 h).1 e.1 e.2 (Dict.get?_eq_some_iff.2 he))

end Graph

end NodeFlow
