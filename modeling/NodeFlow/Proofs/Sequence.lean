import Mathlib.Data.List.Forall2
import NodeFlow.Fault
/-!
# Operations in a row

An operation on each element of a list, the first failure being that of the
row. A row has a result where its elements and the results are related one by
one (`mapM_eq_ok_iff`), and what is known of related elements is carried over
to the lists.
-/

namespace NodeFlow

/-! ## Related lists -/

/-- What related elements have in common, lists of them have in common. -/
theorem map_eq_of_forall₂ {α β γ : Type} {R : α → β → Prop} {f : α → γ} {f' : β → γ} {xs : List α}
    {ys : List β} (h : List.Forall₂ R xs ys) (hf : ∀ x y, R x y → f x = f' y) :
    xs.map f = ys.map f' := by
  induction h with
  | nil => rfl
  | cons hxy _ ih => rw [List.map_cons, List.map_cons, hf _ _ hxy, ih]

theorem exists_of_mem_forall₂ {α β : Type} {R : α → β → Prop} {xs : List α} {ys : List β} {y : β}
    (h : List.Forall₂ R xs ys) (hy : y ∈ ys) : ∃ x ∈ xs, R x y := by
  induction h with
  | nil => cases hy
  | cons hxy _ ih =>
    rcases List.mem_cons.1 hy with rfl | hy
    · exact ⟨_, List.mem_cons_self, hxy⟩
    · obtain ⟨x, hx, hr⟩ := ih hy
      exact ⟨x, List.mem_cons_of_mem _ hx, hr⟩

/-- Where each element is related to one, the list is related to one. -/
theorem exists_forall₂_iff {α β : Type} {R : α → β → Prop} {xs : List α} :
    (∃ ys, List.Forall₂ R xs ys) ↔ ∀ x ∈ xs, ∃ y, R x y := by
  constructor
  · rintro ⟨ys, h⟩ x hx
    obtain ⟨y, -, hy⟩ := exists_of_mem_forall₂ h.flip hx
    exact ⟨y, hy⟩
  · intro h
    induction xs with
    | nil => exact ⟨[], .nil⟩
    | cons x xs ih =>
      obtain ⟨y, hy⟩ := h x List.mem_cons_self
      obtain ⟨ys, hys⟩ := ih fun x' hx' => h x' (List.mem_cons_of_mem _ hx')
      exact ⟨y :: ys, .cons hy hys⟩

theorem forall₂_trans {α β γ : Type} {R : α → β → Prop} {S : β → γ → Prop} {T : α → γ → Prop}
    (hT : ∀ x y z, R x y → S y z → T x z) {xs : List α} {ys : List β} {zs : List γ}
    (h : List.Forall₂ R xs ys) (h' : List.Forall₂ S ys zs) : List.Forall₂ T xs zs := by
  induction h generalizing zs with
  | nil =>
    cases h'
    exact .nil
  | cons hxy _ ih =>
    cases h' with
    | cons hyz hrest => exact .cons (hT _ _ _ hxy hyz) (ih hrest)

/-! ## Rows of operations -/

/-- The results of a row of operations are those of the operations. -/
theorem mapM_eq_ok_iff {α β ε : Type} {f : α → Except ε β} {xs : List α} {ys : List β} :
    xs.mapM f = .ok ys ↔ List.Forall₂ (fun x y => f x = .ok y) xs ys := by
  constructor
  · intro h
    induction xs generalizing ys with
    | nil =>
      rw [List.mapM_nil] at h
      cases h
      exact .nil
    | cons x xs ih =>
      rw [List.mapM_cons] at h
      obtain ⟨y, hy, h⟩ := exists_of_bind_eq_ok h
      obtain ⟨zs, hzs, h⟩ := exists_of_bind_eq_ok h
      cases h
      exact .cons hy (ih hzs)
  · intro h
    induction h with
    | nil => exact List.mapM_nil
    | cons hxy _ ih =>
      rw [List.mapM_cons, hxy, ih]
      rfl

/-- What holds of related elements, sequences of operations on them keep. -/
theorem mapM_of_forall₂ {α γ ε : Type} {Q : α → α → Prop} {S : γ → γ → Prop}
    {f f' : α → Except ε γ} {xs xs' : List α} {ys : List γ} (h : List.Forall₂ Q xs xs')
    (hf : ∀ x x' y, Q x x' → f x = .ok y → ∃ y', f' x' = .ok y' ∧ S y y')
    (hrun : xs.mapM f = .ok ys) : ∃ ys', xs'.mapM f' = .ok ys' ∧ List.Forall₂ S ys ys' := by
  induction h generalizing ys with
  | nil =>
    rw [List.mapM_nil] at hrun
    cases hrun
    exact ⟨[], rfl, .nil⟩
  | cons hx _ ih =>
    rw [List.mapM_cons] at hrun
    obtain ⟨y, hy, hrun⟩ := exists_of_bind_eq_ok hrun
    obtain ⟨zs, hzs, hrun⟩ := exists_of_bind_eq_ok hrun
    cases hrun
    obtain ⟨y', hy', hS⟩ := hf _ _ y hx hy
    obtain ⟨zs', hzs', hrest⟩ := ih hzs
    rw [List.mapM_cons, hy', hzs']
    exact ⟨y' :: zs', rfl, .cons hS hrest⟩

/-- A row over images has the result that the row over the elements has. -/
theorem mapM_map_eq_ok {α β γ ε : Type} {f : α → Except ε γ} {f' : β → Except ε γ} {t : α → β}
    (hstep : ∀ x y, f x = .ok y → f' (t x) = .ok y) {xs : List α} {ys : List γ}
    (h : xs.mapM f = .ok ys) : (xs.map t).mapM f' = .ok ys := by
  induction xs generalizing ys with
  | nil => exact h
  | cons x xs ih =>
    rw [List.mapM_cons] at h
    obtain ⟨y, hy, h⟩ := exists_of_bind_eq_ok h
    obtain ⟨zs, hzs, h⟩ := exists_of_bind_eq_ok h
    rw [List.map_cons, List.mapM_cons, hstep x y hy, ih hzs]
    exact h

/-- A row of two kinds of operations, of which the elements tell the kind, is a row of either. -/
theorem mapM_ite_eq_ok {α β γ ε : Type} {c : α → Bool} {f : α → Except ε β} {f' : α → Except ε γ}
    {xs : List α} {ys : List (β ⊕ γ)}
    (h : (xs.mapM fun x => if c x then (f x).map .inl else (f' x).map .inr) = .ok ys) :
    (xs.filter c).mapM f = .ok (ys.filterMap Sum.getLeft?) ∧
      (xs.filter fun x => !c x).mapM f' = .ok (ys.filterMap Sum.getRight?) := by
  induction xs generalizing ys with
  | nil =>
    cases h
    exact ⟨rfl, rfl⟩
  | cons x xs ih =>
    rw [List.mapM_cons] at h
    obtain ⟨y, hy, h⟩ := exists_of_bind_eq_ok h
    obtain ⟨zs, hzs, h⟩ := exists_of_bind_eq_ok h
    cases h
    obtain ⟨hleft, hright⟩ := ih hzs
    cases hc : c x with
    | true =>
      rw [hc] at hy
      obtain ⟨b, hb, rfl⟩ := exists_of_map_eq_ok hy
      rw [List.filter_cons, List.filter_cons, hc, if_pos rfl, List.mapM_cons, hb, hleft]
      exact ⟨rfl, hright⟩
    | false =>
      rw [hc] at hy
      obtain ⟨b, hb, rfl⟩ := exists_of_map_eq_ok hy
      rw [List.filter_cons, List.filter_cons, hc, if_neg Bool.false_ne_true, Bool.not_false,
        if_pos rfl, List.mapM_cons, hb, hright]
      exact ⟨hleft, rfl⟩

/-- A row that undoes what was done to each element. -/
theorem mapM_map_of_inverse {α β ε : Type} {f : β → Except ε α} {t : α → β}
    (h : ∀ x, f (t x) = .ok x) (xs : List α) : (xs.map t).mapM f = .ok xs := by
  rw [mapM_eq_ok_iff, List.forall₂_map_left_iff, List.forall₂_same]
  exact fun x _ => h x

end NodeFlow
