import Mathlib.Data.List.Sort
import Mathlib.Data.String.Basic
import NodeFlow.Json.Display
import NodeFlow.Proofs.Json.Doubles
/-!
# Values up to the order of their entries

Two values are the same up to the order of entries when objects in them,
at any depth, can be permuted to make one the other (`Reorders`). Sorting the
keys of all objects picks one value of each class (`reorders_iff`), and
keeps what does not depend on the order: that no key comes twice, and what
holds of all scalars.
-/

namespace NodeFlow.Json

/-- The second value is the first one with the entries of objects in it, at any depth, in another
order. -/
inductive Reorders : Json → Json → Prop
  | refl (v : Json) : Reorders v v
  | trans {u v w : Json} : Reorders u v → Reorders v w → Reorders u w
  | item {v w : Json} (before after : List Json) : Reorders v w →
      Reorders (.arr (before ++ v :: after)) (.arr (before ++ w :: after))
  | value {v w : Json} (before after : Fields) (key : String) : Reorders v w →
      Reorders (.obj (before ++ (key, v) :: after)) (.obj (before ++ (key, w) :: after))
  | entries {xs ys : Fields} : xs.Perm ys → Reorders (.obj xs) (.obj ys)

variable {v w : Json} {xs ys : Fields} {p : Json → Prop}

theorem Reorders.symm (h : Reorders v w) : Reorders w v := by
  induction h with
  | refl v => exact .refl v
  | trans _ _ ih ih' => exact ih'.trans ih
  | item before after _ ih => exact .item before after ih
  | value before after key _ ih => exact .value before after key ih
  | entries h => exact .entries h.symm

/-! ## What does not depend on the order -/

theorem allScalarsItems_iff {items : List Json} :
    AllScalarsItems p items ↔ ∀ v ∈ items, AllScalars p v := by
  induction items with
  | nil => exact ⟨nofun, fun _ => trivial⟩
  | cons v items ih => rw [AllScalarsItems, ih, List.forall_mem_cons]

theorem allScalarsFields_iff : AllScalarsFields p xs ↔ ∀ e ∈ xs, AllScalars p e.2 := by
  induction xs with
  | nil => exact ⟨nofun, fun _ => trivial⟩
  | cons e xs ih =>
    obtain ⟨key, v⟩ := e
    rw [AllScalarsFields, ih, List.forall_mem_cons]

mutual

/-- Whether a value can be written is decided. -/
theorem isWritable_iff_writable : ∀ v : Json, v.isWritable ↔ Writable v
  | .null | .bool _ | .float _ | .str _ => ⟨fun _ => nofun, fun _ => rfl⟩
  | .int i => by
    rw [isWritable, decide_eq_true_eq]
    exact ⟨fun h _ he => Json.int.inj he ▸ h, fun h => h i rfl⟩
  | .arr items => areWritable_iff_writable items
  | .obj fields => areFieldsWritable_iff_writable fields

theorem areWritable_iff_writable : ∀ items : List Json, areWritable items ↔ Writable (.arr items)
  | [] => ⟨fun _ => trivial, fun _ => rfl⟩
  | v :: rest => by
    rw [areWritable, Bool.and_eq_true, isWritable_iff_writable v, areWritable_iff_writable rest]
    rfl

theorem areFieldsWritable_iff_writable :
    ∀ fields : Fields, areFieldsWritable fields ↔ Writable (.obj fields)
  | [] => ⟨fun _ => trivial, fun _ => rfl⟩
  | (_, v) :: rest => by
    rw [areFieldsWritable, Bool.and_eq_true, isWritable_iff_writable v,
      areFieldsWritable_iff_writable rest]
    rfl

end

theorem keyedItems_iff {items : List Json} : KeyedItems items ↔ ∀ v ∈ items, Keyed v := by
  induction items with
  | nil => exact ⟨nofun, fun _ => trivial⟩
  | cons v items ih => rw [KeyedItems, ih, List.forall_mem_cons]

theorem keyedFields_iff : KeyedFields xs ↔ ∀ e ∈ xs, Keyed e.2 := by
  induction xs with
  | nil => exact ⟨nofun, fun _ => trivial⟩
  | cons e xs ih =>
    obtain ⟨key, v⟩ := e
    rw [KeyedFields, ih, List.forall_mem_cons]

/-- What holds of all scalars still does. -/
theorem Reorders.allScalars (h : Reorders v w) (hv : AllScalars p v) : AllScalars p w := by
  induction h with
  | refl v => exact hv
  | trans _ _ ih ih' => exact ih' (ih hv)
  | item before after _ ih =>
    rw [AllScalars, allScalarsItems_iff, List.forall_mem_append, List.forall_mem_cons] at hv ⊢
    exact ⟨hv.1, ih hv.2.1, hv.2.2⟩
  | value before after key _ ih =>
    rw [AllScalars, allScalarsFields_iff, List.forall_mem_append, List.forall_mem_cons] at hv ⊢
    exact ⟨hv.1, ih hv.2.1, hv.2.2⟩
  | entries h =>
    rw [AllScalars, allScalarsFields_iff] at hv ⊢
    exact fun e he => hv e (h.mem_iff.2 he)

/-- No key comes twice still. -/
theorem Reorders.keyed (h : Reorders v w) (hv : Keyed v) : Keyed w := by
  induction h with
  | refl v => exact hv
  | trans _ _ ih ih' => exact ih' (ih hv)
  | item before after _ ih =>
    rw [Keyed, keyedItems_iff, List.forall_mem_append, List.forall_mem_cons] at hv ⊢
    exact ⟨hv.1, ih hv.2.1, hv.2.2⟩
  | value before after key _ ih =>
    rw [Keyed, keyedFields_iff, List.forall_mem_append, List.forall_mem_cons, Entries.keys_append]
      at hv ⊢
    exact ⟨hv.1, hv.2.1, ih hv.2.2.1, hv.2.2.2⟩
  | entries h =>
    rw [Keyed, keyedFields_iff] at hv ⊢
    exact ⟨(h.map Prod.fst).nodup_iff.1 hv.1, fun e he => hv.2 e (h.mem_iff.2 he)⟩

/-- A document that is empty stays so. -/
theorem Reorders.isTruthy_eq {v w : Json} (h : Reorders v w) : v.isTruthy = w.isTruthy := by
  have hitems (v : Json) (before after : List Json) :
      (arr (before ++ v :: after)).isTruthy = true := by
    cases before <;> rfl
  have hentries (e : String × Json) (before after : Fields) :
      (obj (before ++ e :: after)).isTruthy = true := by
    cases before <;> rfl
  induction h with
  | refl v => rfl
  | trans _ _ ih ih' => exact ih.trans ih'
  | item before after _ _ => rw [hitems, hitems]
  | value before after key _ _ => rw [hentries, hentries]
  | entries h => rw [isTruthy, isTruthy, h.isEmpty_eq]

/-! ## Sorted keys -/

theorem sortItems_eq (items : List Json) : sortItems items = items.map sortKeys := by
  induction items with
  | nil => rfl
  | cons v items ih => rw [sortItems, ih, List.map_cons]

theorem sortFields_eq (xs : Fields) : sortFields xs = xs.map fun e => (e.1, sortKeys e.2) := by
  induction xs with
  | nil => rfl
  | cons e xs ih =>
    obtain ⟨key, v⟩ := e
    rw [sortFields, ih, List.map_cons]

theorem keys_sortFields (xs : Fields) : Entries.keys (sortFields xs) = Entries.keys xs := by
  rw [sortFields_eq, Entries.keys, Entries.keys, List.map_map]
  rfl

theorem keyLe_iff {a b : String × Json} : keyLe a b ↔ a.1 ≤ b.1 := by
  rw [keyLe, Bool.not_eq_true', decide_eq_false_iff_not, not_lt]

theorem pairwise_mergeSort_keyLe (xs : Fields) :
    (xs.mergeSort keyLe).Pairwise fun a b => keyLe a b := by
  refine List.pairwise_mergeSort (fun a b c hab hbc => ?_) (fun a b => ?_) xs
  · rw [keyLe_iff] at *
    exact hab.trans hbc
  · rw [Bool.or_eq_true, keyLe_iff, keyLe_iff]
    exact le_total a.1 b.1

/-- Entries with different keys are sorted in one way only. -/
theorem mergeSort_keyLe_of_perm (h : xs.Perm ys) (hkeys : (Entries.keys xs).Nodup) :
    xs.mergeSort keyLe = ys.mergeSort keyLe := by
  have hperm : (xs.mergeSort keyLe).Perm (ys.mergeSort keyLe) :=
    (List.mergeSort_perm xs keyLe).trans (h.trans (List.mergeSort_perm ys keyLe).symm)
  refine List.Perm.eq_of_pairwise (fun a b ha hb hab hba => ?_) (pairwise_mergeSort_keyLe xs)
    (pairwise_mergeSort_keyLe ys) hperm
  rw [keyLe_iff] at hab hba
  rw [List.mem_mergeSort] at ha hb
  exact List.inj_on_of_nodup_map hkeys ha (h.mem_iff.2 hb) (hab.antisymm hba)

mutual

/-- Sorting keys reorders entries and does nothing else. -/
theorem reorders_sortKeys : ∀ v : Json, Reorders v (sortKeys v)
  | .null | .bool _ | .int _ | .float _ | .str _ => .refl _
  | .arr items => reorders_sortItems items []
  | .obj xs => (reorders_sortFields xs []).trans (.entries (List.mergeSort_perm _ _).symm)

theorem reorders_sortItems : ∀ items before : List Json,
    Reorders (.arr (before ++ items)) (.arr (before ++ sortItems items))
  | [], _ => .refl _
  | v :: items, before => by
    have hrest := reorders_sortItems items (before ++ [sortKeys v])
    rw [List.append_assoc, List.append_assoc] at hrest
    exact (Reorders.item before items (reorders_sortKeys v)).trans hrest

theorem reorders_sortFields : ∀ xs before : Fields,
    Reorders (.obj (before ++ xs)) (.obj (before ++ sortFields xs))
  | [], _ => .refl _
  | (key, v) :: xs, before => by
    have hrest := reorders_sortFields xs (before ++ [(key, sortKeys v)])
    rw [List.append_assoc, List.append_assoc] at hrest
    exact (Reorders.value before xs key (reorders_sortKeys v)).trans hrest

end

/-- Values that are the same up to order have the same form with sorted keys. -/
theorem Reorders.sortKeys_eq (h : Reorders v w) (hv : Keyed v) : sortKeys v = sortKeys w := by
  induction h with
  | refl v => rfl
  | trans h _ ih ih' => exact (ih hv).trans (ih' (h.keyed hv))
  | item before after _ ih =>
    rw [Keyed, keyedItems_iff, List.forall_mem_append, List.forall_mem_cons] at hv
    simp only [sortKeys, sortItems_eq, List.map_append, List.map_cons, ih hv.2.1]
  | value before after key _ ih =>
    rw [Keyed, keyedFields_iff, List.forall_mem_append, List.forall_mem_cons] at hv
    simp only [sortKeys, sortFields_eq, List.map_append, List.map_cons, ih hv.2.2.1]
  | entries h =>
    rw [sortKeys, sortKeys]
    congr 1
    refine mergeSort_keyLe_of_perm ?_ (by rw [keys_sortFields]; exact hv.1)
    rw [sortFields_eq, sortFields_eq]
    exact h.map _

/-- **Sorted keys are a canonical form**: of values without a key twice, those that are the same
up to order, and no others, have the same one. -/
theorem reorders_iff (hv : Keyed v) : Reorders v w ↔ sortKeys v = sortKeys w := by
  constructor
  · exact fun h => h.sortKeys_eq hv
  · intro h
    exact (reorders_sortKeys v).trans (h ▸ (reorders_sortKeys w).symm)

end NodeFlow.Json
