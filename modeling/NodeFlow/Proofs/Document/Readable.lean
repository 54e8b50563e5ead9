import Mathlib.Data.List.Basic
import NodeFlow.Proofs.Document.RoundTrip
/-!
# Which documents can be read

Most of what is malformed in a document is passed over, but not all of it:
the members of a group must be something whose items can be gone through, or
be nothing at all. And integers that become texts must be short enough to be
written. `SucceedsIff` says of a reader when it has a result and what its
failures are, and the reader of a whole is put together from the readers of
its parts: `succeedsIff_ofEntries`.
-/

namespace NodeFlow

/-! ## When an operation succeeds -/

/-- A failure that a malformed value brings about: one of the wrong type, or a number that is too
large. -/
def Fault.IsMalformed (e : Fault) : Prop := e = .wrongType ∨ e = .tooLarge

/-- An operation has a result exactly under two conditions: that nothing it needs is malformed, and
that the integers it turns into texts can be written. Its failures tell which does not hold. -/
structure SucceedsIff {α : Type} (x : Except Fault α) (readable written : Prop) : Prop where
  ok_iff : (∃ a, x = .ok a) ↔ readable ∧ written
  fails : ∀ e, x = .error e →
    e.IsMalformed ∧ ¬ readable ∨ e = .badValue .unwritableInteger ∧ ¬ written

namespace SucceedsIff

variable {α β : Type} {x : Except Fault α} {p p' q q' r t : Prop}

theorem ok (a : α) (hp : p) (hq : q) : SucceedsIff (.ok a : Except Fault α) p q := by
  refine ⟨⟨fun _ => ⟨hp, hq⟩, fun _ => ⟨a, rfl⟩⟩, ?_⟩
  intro e he
  cases he

/-- An error that tells which of the conditions does not hold. -/
theorem error {e : Fault}
    (h : e.IsMalformed ∧ ¬ p ∨ e = .badValue .unwritableInteger ∧ ¬ q) :
    SucceedsIff (.error e : Except Fault α) p q := by
  refine ⟨⟨?_, ?_⟩, ?_⟩
  · rintro ⟨a, ha⟩
    cases ha
  · rintro ⟨hp, hq⟩
    rcases h with ⟨-, hnot⟩ | ⟨-, hnot⟩
    · exact absurd hp hnot
    · exact absurd hq hnot
  · rintro e' he'
    obtain rfl := Except.error.inj he'
    exact h

theorem malformed {e : Fault} (he : e.IsMalformed) (hp : ¬ p) :
    SucceedsIff (.error e : Except Fault α) p q := .error (Or.inl ⟨he, hp⟩)

theorem of_iff (h : SucceedsIff x p q) (hp : p ↔ p') (hq : q ↔ q') : SucceedsIff x p' q' := by
  rwa [← propext hp, ← propext hq]

theorem of_ok {a : α} (h : SucceedsIff x p q) (ha : x = .ok a) : p ∧ q := h.ok_iff.1 ⟨a, ha⟩

/-- Where no integer becomes a text, only malformed values are a failure. -/
theorem malformed_of_error {e : Fault} (h : SucceedsIff x p True) (he : x = .error e) :
    e.IsMalformed ∧ ¬ p :=
  (h.fails e he).resolve_right fun hnot => hnot.2 trivial

theorem map (h : SucceedsIff x p q) (f : α → β) : SucceedsIff (x.map f) p q := by
  cases x with
  | ok a => exact .ok _ (h.of_ok rfl).1 (h.of_ok rfl).2
  | error e => exact .error (h.fails e rfl)

/-- The conditions of the second of two operations must not depend on the result of the first. -/
theorem bind {f : α → Except Fault β} (h : SucceedsIff x p q)
    (hf : ∀ a, x = .ok a → SucceedsIff (f a) r t) :
    SucceedsIff (x >>= f) (p ∧ r) (q ∧ t) := by
  cases x with
  | ok a =>
    obtain ⟨hp, hq⟩ := h.of_ok rfl
    exact (hf a rfl).of_iff (and_iff_right hp).symm (and_iff_right hq).symm
  | error e =>
    refine .error ((h.fails e rfl).imp ?_ ?_)
    · exact fun hnot => ⟨hnot.1, fun hall => hnot.2 hall.1⟩
    · exact fun hnot => ⟨hnot.1, fun hall => hnot.2 hall.1⟩

theorem mapM {f : α → Except Fault β} {p q : α → Prop} {xs : List α}
    (h : ∀ x ∈ xs, SucceedsIff (f x) (p x) (q x)) :
    SucceedsIff (xs.mapM f) (∀ x ∈ xs, p x) (∀ x ∈ xs, q x) := by
  induction xs with
  | nil => exact .ok _ (by simp) (by simp)
  | cons x xs ih =>
    have hrest := ih fun y hy => h y (List.mem_cons_of_mem _ hy)
    rw [List.mapM_cons]
    refine ((h x (by simp)).bind fun y _ => hrest.bind fun ys _ =>
      .ok (y :: ys) trivial trivial).of_iff ?_ ?_
    · rw [List.forall_mem_cons, and_true]
    · rw [List.forall_mem_cons, and_true]

/-- What is only held to the limit of integers. -/
theorem withinLimit (isWritable : Bool) (a : α) :
    SucceedsIff (withinLimit isWritable a) True isWritable := by
  cases isWritable with
  | true => exact .ok a trivial rfl
  | false => exact .error (Or.inr ⟨rfl, Bool.false_ne_true⟩)

theorem textOf (v : Json) : SucceedsIff (textOf v) True v.isWritable := .withinLimit _ _

end SucceedsIff

/-! ## Readers of single values -/

/-- What stands under a name, or null. -/
def entryOf (fs : Fields) (name : String) : Json := (Entries.get? fs name).getD .null

/-- Whether the items of a value can be gone through, or it is nothing at all. -/
def isListable : Json → Bool
  | .arr _ => true
  | .str _ => true
  | .obj _ => true
  | v => !v.isTruthy

/-- What is something and cannot be gone through is of the wrong type. -/
theorem SucceedsIff.ite_wrongType {α : Type} {q : Prop} (truthy : Bool) (a : α) (hq : q) :
    SucceedsIff (if truthy then .error .wrongType else .ok a) ((!truthy) = true) q := by
  cases truthy with
  | true => exact .malformed (Or.inl rfl) (by decide)
  | false => exact .ok a rfl hq

/-- The integers among the items of a value can be written. -/
def ListsShort (v : Json) : Prop := ∀ i, .int i ∈ v.items?.getD [] → (Json.int i).isWritable

theorem listsShort_of_items?_eq_none {v : Json} (h : v.items? = none) : ListsShort v := by
  intro i hi
  rw [h] at hi
  cases hi

theorem all_isWritable_members_iff {items : List Json} :
    (items.filter isMember).all Json.isWritable ↔ ListsShort (.arr items) := by
  rw [List.all_eq_true]
  constructor
  · exact fun hall i hi => hall _ (List.mem_filter.2 ⟨hi, rfl⟩)
  · intro hints v hv
    obtain ⟨hv, hmember⟩ := List.mem_filter.1 hv
    cases v with
    | int i => exact hints i hv
    | str s => rfl
    | bool b => rfl
    | _ => cases hmember

/-- **The members of a group** can be read where its items can be gone through. -/
theorem succeedsIff_readMembers (v : Json) :
    SucceedsIff (readMembers v) (isListable v) (ListsShort v) := by
  cases v with
  | arr items =>
    rw [readMembers]
    have hrow : (items.filter isMember).mapM textOf = withinLimit _ _ :=
      mapM_withinLimit Json.isWritable Json.display _
    rw [hrow]
    exact (SucceedsIff.withinLimit _ _).of_iff ⟨fun _ => rfl, fun _ => trivial⟩
      all_isWritable_members_iff
  | str s => exact .ok _ rfl (listsShort_of_items?_eq_none rfl)
  | obj fields => exact .ok _ rfl (listsShort_of_items?_eq_none rfl)
  | null => exact .ok _ rfl (listsShort_of_items?_eq_none rfl)
  | bool b => exact .ite_wrongType _ _ (listsShort_of_items?_eq_none rfl)
  | int i => exact .ite_wrongType _ _ (listsShort_of_items?_eq_none rfl)
  | float x => exact .ite_wrongType _ _ (listsShort_of_items?_eq_none rfl)

/-! ## Groups and notes -/

/-- What is given under a name as a text, or a usual text. -/
def givenText (fs : Fields) (name usual : String) : Json := (Entries.get? fs name).getD (.str usual)

/-- The integers that become texts as a group is read can be written. -/
structure GroupShort (fs : Fields) : Prop where
  title : (givenText fs "title" "Group").isWritable
  members : ListsShort (entryOf fs "member_nodes")

/-- The integers that become texts as a note is read can be written. -/
structure NoteShort (fs : Fields) : Prop where
  title : (givenText fs "title" "Note").isWritable
  content : (givenText fs "content" "").isWritable

/-- A group is read from its title and its members, and then the groups behind it are. -/
theorem readGroups_obj (n : Nat) (fs : Fields) (rest : List Json) :
    readGroups n (.obj fs :: rest) =
      textOf (givenText fs "title" "Group") >>= fun title =>
        readMembers (entryOf fs "member_nodes") >>= fun members =>
          (readGroups (n + 1) rest).map
            (⟨(Entries.get? fs "id").getD (.int n), title, members⟩ :: ·) := by
  rw [readGroups, entryOf, givenText]
  cases textOf ((Entries.get? fs "title").getD (.str "Group")) with
  | error e => rfl
  | ok title =>
    cases readMembers ((Entries.get? fs "member_nodes").getD .null) with
    | error e => rfl
    | ok members => cases readGroups (n + 1) rest <;> rfl

/-- **The groups of a document** can be read where the members of each can be gone through. -/
theorem succeedsIff_readGroups (n : Nat) (vs : List Json) :
    SucceedsIff (readGroups n vs)
      (∀ fs, .obj fs ∈ vs → isListable (entryOf fs "member_nodes"))
      (∀ fs, .obj fs ∈ vs → GroupShort fs) := by
  induction vs generalizing n with
  | nil => exact .ok _ (by simp) (by simp)
  | cons v rest ih =>
    cases v with
    | obj fs =>
      rw [readGroups_obj]
      refine ((SucceedsIff.textOf _).bind fun title _ => (succeedsIff_readMembers _).bind
        fun members _ => (ih (n + 1)).map _).of_iff ?_ ?_
      · simp only [List.mem_cons, Json.obj.injEq, forall_eq_or_imp, true_and]
      · simp only [List.mem_cons, Json.obj.injEq, forall_eq_or_imp, ← and_assoc]
        exact and_congr_left' ⟨fun h => ⟨h.1, h.2⟩, fun h => ⟨h.1, h.2⟩⟩
    | _ => exact (ih (n + 1)).of_iff (by simp) (by simp)

/-- A note is read from its title and its content, and then the notes behind it are. -/
theorem readNotes_obj (n : Nat) (fs : Fields) (rest : List Json) :
    readNotes n (.obj fs :: rest) =
      textOf (givenText fs "title" "Note") >>= fun title =>
        textOf (givenText fs "content" "") >>= fun content =>
          (readNotes (n + 1) rest).map
            (⟨(Entries.get? fs "id").getD (.int n), title, content⟩ :: ·) := by
  rw [readNotes, givenText, givenText]
  cases textOf ((Entries.get? fs "title").getD (.str "Note")) with
  | error e => rfl
  | ok title =>
    cases textOf ((Entries.get? fs "content").getD (.str "")) with
    | error e => rfl
    | ok members => cases readNotes (n + 1) rest <;> rfl

/-- **The notes of a document** can always be read, but for integers that are too long. -/
theorem succeedsIff_readNotes (n : Nat) (vs : List Json) :
    SucceedsIff (readNotes n vs) True (∀ fs, .obj fs ∈ vs → NoteShort fs) := by
  induction vs generalizing n with
  | nil => exact .ok _ trivial (by simp)
  | cons v rest ih =>
    cases v with
    | obj fs =>
      rw [readNotes_obj]
      refine ((SucceedsIff.textOf _).bind fun title _ => (SucceedsIff.textOf _).bind
        fun content _ => (ih (n + 1)).map _).of_iff (by simp) ?_
      simp only [List.mem_cons, Json.obj.injEq, forall_eq_or_imp, ← and_assoc]
      exact and_congr_left' ⟨fun h => ⟨h.1, h.2⟩, fun h => ⟨h.1, h.2⟩⟩
    | _ => exact (ih (n + 1)).of_iff Iff.rfl (by simp)

/-! ## Documents -/

/-- The members of all groups of a document can be gone through. -/
def GroupsListable (document : Fields) : Prop :=
  ∀ fs, .obj fs ∈ itemsOf (Entries.get? document "groups") →
    isListable (entryOf fs "member_nodes")

/-- The integers that become texts as a document is read can be written. -/
structure EntriesShort (document : Fields) : Prop where
  nodes : ∀ key v fs, (Graph.possibleNodes document).get? key = some v → nodeFields? v = some fs →
    Node.isReadable fs
  groups : ∀ fs, .obj fs ∈ itemsOf (Entries.get? document "groups") → GroupShort fs
  notes : ∀ fs, .obj fs ∈ itemsOf (Entries.get? document "notes") → NoteShort fs

/-- **A document that keeps its nodes in no list is read** where the members of each group can be
gone through, and integers that become texts can be written. -/
theorem succeedsIff_ofEntries (document : Fields) (schema : Option Schema) :
    SucceedsIff (Graph.ofEntries document schema) (GroupsListable document)
      (EntriesShort document) := by
  obtain ⟨wrapped, metadata, hparts⟩ := Graph.exists_ofEntries_eq document schema
  rw [hparts, Graph.readParts]
  refine ((SucceedsIff.withinLimit _ _).bind fun nodes _ => (succeedsIff_readGroups 1 _).bind
    fun groups _ => (succeedsIff_readNotes 1 _).map _).of_iff ?_ ?_
  · rw [true_and, and_true, GroupsListable]
  · rw [Graph.areReadable_iff]
    exact ⟨fun h => ⟨h.1, h.2.1, h.2.2⟩, fun h => ⟨h.nodes, h.groups, h.notes⟩⟩

end NodeFlow
