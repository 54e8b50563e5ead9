import NodeFlow.Proofs.Sequence
/-!
# Results within the limit

Where integers are turned into text, a result is there exactly if all of them
are short enough (`withinLimit`). Operations in a row, on the elements of a
list or on the values of a dictionary, that have a result each under such a
condition have one together where all of the conditions hold.
-/

namespace NodeFlow

section

variable {α β : Type} {p : Bool} {a : α} {b : α}

@[simp] theorem withinLimit_true (a : α) : withinLimit true a = .ok a := rfl

theorem withinLimit_eq_ok_iff : withinLimit p a = .ok b ↔ p ∧ a = b := by
  cases p <;> simp [withinLimit]

/-- What is not within the limit fails, and that is the only failure. -/
theorem withinLimit_eq_error_iff {e : Fault} :
    withinLimit p a = .error e ↔ p = false ∧ e = .badValue .unwritableInteger := by
  cases p <;> simp [withinLimit, eq_comm]

@[simp] theorem map_withinLimit (f : α → β) : (withinLimit p a).map f = withinLimit p (f a) := by
  cases p <;> rfl

/-- One condition behind the other: both must hold. -/
theorem withinLimit_bind {f : α → Except Fault β} {q : Bool} {c : β}
    (hf : f a = withinLimit q c) : withinLimit p a >>= f = withinLimit (p && q) c := by
  cases p with
  | true => exact hf
  | false => rfl

/-- **A row of operations** has its results where each is within the limit. -/
theorem mapM_withinLimit (p : α → Bool) (f : α → β) (xs : List α) :
    (xs.mapM fun x => withinLimit (p x) (f x)) = withinLimit (xs.all p) (xs.map f) := by
  induction xs with
  | nil => rfl
  | cons x xs ih =>
    rw [List.mapM_cons, ih, List.all_cons, List.map_cons]
    exact withinLimit_bind (map_withinLimit (f x :: ·))

end

namespace Json

/-- A list can be written if its items can. -/
theorem isWritable_arr_iff {items : List Json} :
    (arr items).isWritable ↔ ∀ v ∈ items, v.isWritable := by
  rw [isWritable]
  induction items with
  | nil => simp [areWritable]
  | cons v items ih => rw [areWritable, Bool.and_eq_true, ih, List.forall_mem_cons]

/-- An object can be written if its values can. -/
theorem isWritable_obj_iff {fields : Fields} :
    (obj fields).isWritable ↔ ∀ e ∈ fields, e.2.isWritable := by
  rw [isWritable]
  induction fields with
  | nil => simp [areFieldsWritable]
  | cons e fields ih =>
    obtain ⟨key, v⟩ := e
    rw [areFieldsWritable, Bool.and_eq_true, ih, List.forall_mem_cons]

end Json

namespace Dict

variable {α β : Type}

/-- The same for the values of a dictionary. -/
theorem traverse_withinLimit (d : Dict α) (p : String → α → Bool) (f : String → α → β) :
    (d.traverse fun key v => withinLimit (p key v) (f key v)) =
      withinLimit (d.entries.all fun e => p e.1 e.2) (d.map f) := by
  have hrow :
      (d.entries.mapM fun e => (withinLimit (p e.1 e.2) (f e.1 e.2)).map fun v => (e.1, v)) =
        withinLimit (d.entries.all fun e => p e.1 e.2) (d.map f).entries := by
    simp only [map_withinLimit]
    exact mapM_withinLimit (fun e => p e.1 e.2) (fun e => (e.1, f e.1 e.2)) d.entries
  rw [traverse, hrow, map_withinLimit, ofList_entries]

end Dict

end NodeFlow
