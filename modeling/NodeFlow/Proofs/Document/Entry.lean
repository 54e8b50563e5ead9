import NodeFlow.Graph.Document
import NodeFlow.Proofs.Limit
/-!
# Reading back what is written

Inputs, nodes, groups and notes one by one. Reading fails only on integers
that are too long to be texts; `InputValue.asRead` and `Node.asRead` say what
is read where there are none. An open slot is not written, and comes back
from the schema, at the end, where it was. A literal comes back as it was
unless it has the shape of a connection, and a literal that was read has not.
-/

namespace NodeFlow

/-! ## Inputs -/

namespace InputValue

/-- Whether the integer that an input names a node with, if it does, can be written. -/
def namesShortly : Json → Bool
  | .arr [source@(.int _), .int _] => source.isWritable
  | _ => true

/-- What an input is read as, whatever the length of an integer in it. -/
def asRead (v : Json) : InputValue :=
  match v with
  | .arr [.str id, .int output] => .connection id output
  | .arr [source@(.int _), .int output] => .connection source.display output
  | _ => .literal v

/-- **An input is read** where the id that it names can be written. -/
theorem ofJson_eq (v : Json) : ofJson v = withinLimit (namesShortly v) (asRead v) := by
  unfold ofJson
  split
  · rename_i source output
    cases source with
    | int i =>
      rw [idOf?, textOfInteger, textOf, map_withinLimit, map_withinLimit]
      rfl
    | _ => rfl
  · rename_i hpair
    have hplain : namesShortly v = true ∧ asRead v = .literal v := by
      constructor
      · unfold namesShortly
        split
        · exact absurd rfl (hpair _ _)
        · rfl
      · unfold asRead
        split
        · exact absurd rfl (hpair _ _)
        · exact absurd rfl (hpair _ _)
        · rfl
    rw [hplain.1, hplain.2, withinLimit_true]

/-- What an input is read back as. An open slot is not written. -/
def reread (v : InputValue) : Option InputValue := v.written?.map .asRead

/-- What was read is a connection, or else a literal that would be read as one again. -/
theorem asRead_cases (v : Json) :
    (∃ source output, asRead v = .connection source output) ∨ asRead v = .literal v := by
  unfold asRead
  split
  · exact Or.inl ⟨_, _, rfl⟩
  · exact Or.inl ⟨_, _, rfl⟩
  · exact Or.inr rfl

/-- Whether the integer that a literal names a node with, if it is read back as a connection, can be
written. -/
def isRereadable : InputValue → Bool
  | .literal v => namesShortly v
  | _ => true

theorem namesShortly_of_written {v : InputValue} {w : Json} (h : v.written? = some w) :
    namesShortly w = v.isRereadable := by
  cases v with
  | slot type => cases h
  | literal v =>
    obtain rfl := Option.some.inj h
    rfl
  | connection source output =>
    obtain rfl := Option.some.inj h
    rfl

/-- A literal that was read names no node. -/
theorem isRereadable_asRead (v : Json) : (asRead v).isRereadable := by
  unfold asRead
  split
  · rfl
  · rfl
  · rename_i hstr hint
    show namesShortly v = true
    unfold namesShortly
    split
    · exact absurd rfl (hint _ _)
    · rfl

/-- What is read as a literal is read. -/
theorem ofJson_eq_literal_iff {v : Json} : ofJson v = .ok (.literal v) ↔ asRead v = .literal v := by
  rw [ofJson_eq, withinLimit_eq_ok_iff]
  constructor
  · exact And.right
  · intro h
    have hshort := isRereadable_asRead v
    rw [h] at hshort
    exact ⟨hshort, h⟩

/-- **An input that was read is read back as it is.** -/
theorem reread_asRead (v : Json) : (asRead v).reread = some (asRead v) := by
  rcases asRead_cases v with ⟨source, output, h⟩ | h
  · rw [h]
    rfl
  · have hliteral : (literal v).reread = some (asRead v) := rfl
    rw [h, hliteral, h]

end InputValue

/-! ## Nodes -/

namespace Node

/-- What a node is given as its class type. -/
def givenClass (fields : Fields) : Json := (Entries.get? fields "class_type").getD (.str "")

/-- Whether the integers that become texts as a node is read can be written: those in its class
type, and those that its inputs name nodes with. -/
def isReadable (fields : Fields) : Bool :=
  (givenClass fields).isWritable &&
    (givenInputs fields).entries.all fun e => InputValue.namesShortly e.2

/-- What a node is read as, whatever the length of the integers in it. -/
def asRead (id : String) (fields : Fields) (schema : Option Schema) : Node :=
  completed
    { id := id, classType := (givenClass fields).display
      inputs := (givenInputs fields).map fun _ v => .asRead v
      title := readTitle fields
      mode := readMode ((Entries.get? fields "mode").getD (.int activeMode)) } schema

/-- **A node is read** where the integers that become texts can be written. -/
theorem ofFields_eq (id : String) (fields : Fields) (schema : Option Schema) :
    ofFields id fields schema = withinLimit (isReadable fields) (asRead id fields schema) := by
  have hinputs : ((givenInputs fields).traverse fun _ v => InputValue.ofJson v) =
      withinLimit ((givenInputs fields).entries.all fun e => InputValue.namesShortly e.2)
        ((givenInputs fields).map fun _ v => .asRead v) := by
    simp only [InputValue.ofJson_eq]
    exact Dict.traverse_withinLimit _ (fun _ v => InputValue.namesShortly v)
      fun _ v => InputValue.asRead v
  have hrest : ∀ (q : Bool) (inputs : Dict InputValue) (f : Dict InputValue → Node),
      (withinLimit q inputs >>= fun ins => pure (f ins) : Except Fault Node) =
        withinLimit q (f inputs) := by
    intro q inputs f
    cases q <;> rfl
  rw [ofFields, hinputs]
  exact withinLimit_bind (hrest _ _ _)

/-- What a node is read back as, under a key. -/
def reread (n : Node) (key : String) (schema : Option Schema) : Node :=
  completed
    { id := key, classType := n.classType, inputs := n.inputs.filterMap fun _ v => v.reread
      title := n.ownTitle?, mode := n.mode } schema

/-- A node without a title that says nothing. -/
def plainTitle (n : Node) : Node := { n with title := n.title.filter (· ≠ n.classType) }

theorem nodeFields?_toJson (n : Node) : nodeFields? n.toJson = some n.toFields := rfl

theorem readTitle_toFields (n : Node) : readTitle n.toFields = n.ownTitle? := by
  have hskip : Entries.get? n.toFields "_meta" =
      Entries.get? (n.ownTitle?.map fun t => ("_meta", Json.obj [("title", .str t)])).toList
        "_meta" := by
    rw [toFields, Entries.get?_append]
    split <;> rfl
  rw [readTitle, hskip]
  cases htitle : n.ownTitle? with
  | none => rfl
  | some t =>
    obtain ⟨-, hown⟩ := Option.filter_eq_some_iff.1 htitle
    have hne : t ≠ "" := by simpa using (Bool.and_eq_true_iff.1 hown).1
    simp [Entries.get?, Json.str?, hne]

theorem readTitle_ne_empty (fields : Fields) : readTitle fields ≠ some "" := by
  rw [readTitle]
  split
  · intro h
    simpa using (Option.filter_eq_some_iff.1 h).2
  · simp

theorem readMode_toFields (n : Node) :
    readMode ((Entries.get? n.toFields "mode").getD (.int activeMode)) = n.mode := by
  by_cases hmode : n.mode = activeMode
  · cases htitle : n.ownTitle? <;> simp [toFields, hmode, htitle, Entries.get?, readMode]
  · simp [toFields, hmode, Entries.get?, readMode]

theorem givenInputs_toFields (n : Node) :
    givenInputs n.toFields = n.inputs.filterMap fun _ v => v.written? := by
  have hgiven : Entries.get? n.toFields "inputs" =
      some (.obj (n.inputs.filterMap fun _ v => v.written?).entries) := rfl
  rw [givenInputs, hgiven]
  exact Dict.ofList_entries _

/-- Whether the integers that literals name nodes with, if they are read back as connections, can be
written. -/
def isRereadable (n : Node) : Bool := n.inputs.entries.all fun e => e.2.isRereadable

theorem isReadable_toFields (n : Node) : isReadable n.toFields = n.isRereadable := by
  have hclass : (givenClass n.toFields).isWritable = true := rfl
  have hwritten : ∀ e : String × InputValue,
      (e.2.written?.map fun w => (e.1, w)).all (fun e => InputValue.namesShortly e.2) =
        e.2.isRereadable := by
    intro e
    cases hw : e.2.written? with
    | none =>
      cases hv : e.2 with
      | slot type => rfl
      | _ => cases (hv ▸ hw : InputValue.written? _ = none)
    | some w => exact InputValue.namesShortly_of_written hw
  rw [isReadable, hclass, Bool.true_and, givenInputs_toFields, Dict.filterMap, isRereadable,
    List.all_filterMap]
  exact List.all_congr rfl hwritten

/-- **A node is read back as what its inputs, its title and the schema make of it.** -/
theorem asRead_toFields (n : Node) (key : String) (schema : Option Schema) :
    asRead key n.toFields schema = n.reread key schema := by
  have hinputs : (n.inputs.filterMap fun _ v => v.written?).map
      (fun _ v => InputValue.asRead v) = n.inputs.filterMap fun _ v => v.reread :=
    Dict.map_filterMap _ _ _
  have hclass : (givenClass n.toFields).display = n.classType := rfl
  rw [asRead, readTitle_toFields, readMode_toFields, hclass, givenInputs_toFields, hinputs, reread]

/-! ## Nodes that were read -/

theorem filterMap_reread_openSlots (inputs : Dict InputValue) (specs : List InputSpec) :
    (openSlots inputs specs).filterMap (fun _ v => v.reread) =
      inputs.filterMap fun _ v => v.reread := by
  rw [openSlots]
  induction specs generalizing inputs with
  | nil => rfl
  | cons spec specs ih =>
    rw [List.foldl_cons, ih]
    split
    · -- the slot is new, stands at the end, and is not written
      rename_i hmissing
      have hnew : spec.name ∉ inputs.keys := by
        rw [← Dict.contains_iff]
        simp only [Bool.and_eq_true, Bool.not_eq_true'] at hmissing
        simp [hmissing.1]
      refine Dict.ext ?_
      rw [Dict.filterMap, Dict.filterMap]
      dsimp only
      rw [Dict.entries_insert_of_not_mem hnew, List.filterMap_append]
      simp [InputValue.reread, InputValue.written?]
    · rfl

theorem classType_completed (n : Node) (schema : Option Schema) :
    (n.completed schema).classType = n.classType := by
  rw [completed]
  split <;> rfl

theorem title_completed (n : Node) (schema : Option Schema) :
    (n.completed schema).title = n.title := by
  rw [completed]
  split <;> rfl

theorem id_completed (n : Node) (schema : Option Schema) : (n.completed schema).id = n.id := by
  rw [completed]
  split <;> rfl

theorem id_asRead (id : String) (fields : Fields) (schema : Option Schema) :
    (asRead id fields schema).id = id := by
  rw [asRead, id_completed]

theorem mode_completed (n : Node) (schema : Option Schema) :
    (n.completed schema).mode = n.mode := by
  rw [completed]
  split <;> rfl

theorem filterMap_reread_completed (n : Node) (schema : Option Schema) :
    (n.completed schema).inputs.filterMap (fun _ v => v.reread) =
      n.inputs.filterMap fun _ v => v.reread := by
  rw [completed]
  split
  · exact filterMap_reread_openSlots _ _
  · rfl

theorem plainTitle_completed (n : Node) (schema : Option Schema) :
    (n.completed schema).plainTitle = n.plainTitle.completed schema := by
  rw [completed, completed, plainTitle, plainTitle]
  dsimp only
  split <;> rfl

/-- Completing a node once more changes nothing but a title that says nothing, where its inputs are
read back as they are and only the schema tells its outputs. -/
theorem reread_completed {n : Node} (schema : Option Schema)
    (hinputs : n.inputs.filterMap (fun _ v => v.reread) = n.inputs) (htitle : n.title ≠ some "")
    (houtputs : n.outputs = []) :
    (n.completed schema).reread n.id schema = (n.completed schema).plainTitle := by
  -- no title is empty, so the one that says nothing is the class type
  have hown : n.ownTitle? = n.title.filter (· ≠ n.classType) := by
    rw [ownTitle?]
    cases ht : n.title with
    | none => rfl
    | some t =>
      have hne : t ≠ "" := fun he => htitle (by rw [ht, he])
      simp [Option.filter, hne]
  rw [plainTitle_completed, reread, classType_completed, mode_completed,
    filterMap_reread_completed, hinputs, ownTitle?, title_completed, classType_completed,
    ← ownTitle?, hown, plainTitle, houtputs]

/-- **A node that was read is read back as it is**, but for a title that says nothing. -/
theorem reread_asRead (key : String) (fields : Fields) (schema : Option Schema) :
    (asRead key fields schema).reread key schema = (asRead key fields schema).plainTitle := by
  refine reread_completed schema ?_ (readTitle_ne_empty fields) rfl
  refine Dict.ext ?_
  simp [Dict.map, Dict.filterMap, List.filterMap_map, InputValue.reread_asRead]

theorem title_asRead_ne_empty (key : String) (fields : Fields) (schema : Option Schema) :
    (asRead key fields schema).title ≠ some "" := by
  rw [asRead, title_completed]
  exact readTitle_ne_empty fields

theorem isRereadable_openSlots {inputs : Dict InputValue} (specs : List InputSpec)
    (h : inputs.entries.all fun e => e.2.isRereadable) :
    (openSlots inputs specs).entries.all fun e => e.2.isRereadable := by
  rw [openSlots]
  refine List.foldlRecOn (motive := fun ins : Dict InputValue =>
    ins.entries.all (fun e => e.2.isRereadable) = true) specs _ h ?_
  intro ins hins spec _
  split
  · rw [List.all_eq_true] at hins ⊢
    intro e he
    have hget := Dict.get?_eq_some_iff.2 he
    rw [Dict.get?_insert] at hget
    split at hget
    · rw [← Option.some.inj hget]
      rfl
    · exact hins e (Dict.get?_eq_some_iff.1 hget)
  · exact hins

/-- The literals of a node that was read name no nodes. -/
theorem isRereadable_asRead (key : String) (fields : Fields) (schema : Option Schema) :
    (asRead key fields schema).isRereadable := by
  have hgiven : ((givenInputs fields).map fun _ v => InputValue.asRead v).entries.all
      fun e => e.2.isRereadable := by
    rw [Dict.map, List.all_map, List.all_eq_true]
    exact fun e _ => InputValue.isRereadable_asRead e.2
  rw [asRead, completed]
  split
  · exact isRereadable_openSlots _ hgiven
  · exact hgiven

/-- A title that says nothing is not written. -/
theorem toJson_plainTitle (n : Node) : n.plainTitle.toJson = n.toJson := by
  have hown : n.plainTitle.ownTitle? = n.ownTitle? := by
    rw [ownTitle?, ownTitle?, plainTitle, Option.filter_filter]
    congr 1
    funext t
    by_cases he : t = n.classType <;> simp [he]
  rw [toJson, toJson, toFields, toFields, hown]
  rfl

end Node

/-! ## Groups and notes -/

theorem readMembers_map_str (members : List String) :
    readMembers (.arr (members.map .str)) = .ok members := by
  have hall : (members.map Json.str).filter isMember = members.map Json.str :=
    List.filter_eq_self.2 fun v hv => by
      obtain ⟨s, -, rfl⟩ := List.mem_map.1 hv
      rfl
  rw [readMembers, hall]
  exact mapM_map_of_inverse (f := textOf) (fun _ => rfl) members

/-- **Groups are read back as they are**, whatever number they are counted from. -/
theorem readGroups_map_toJson (groups : List Group) (n : Nat) :
    readGroups n (groups.map Group.toJson) = .ok groups := by
  induction groups generalizing n with
  | nil => rfl
  | cons g groups ih =>
    have hmembers : readMembers ((Entries.get? [("id", g.id), ("title", .str g.title),
        ("member_nodes", .arr (g.members.map .str))] "member_nodes").getD .null) =
        .ok g.members := readMembers_map_str g.members
    rw [List.map_cons, Group.toJson, readGroups, hmembers, ih]
    rfl

/-- **Notes are read back as they are.** -/
theorem readNotes_map_toJson (notes : List Note) (n : Nat) :
    readNotes n (notes.map Note.toJson) = .ok notes := by
  induction notes generalizing n with
  | nil => rfl
  | cons note notes ih =>
    rw [List.map_cons, Note.toJson, readNotes, ih]
    rfl

end NodeFlow
