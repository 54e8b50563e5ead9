import NodeFlow.Graph.Document
import NodeFlow.Proofs.Graph.Dependency
import NodeFlow.Proofs.Numeral.Decimal
/-!
# Fresh ids

`IdsBelow` says of a bound that every id made of digits spells a number
below it. The next id of a workflow is such a bound, and the least one from
the floor on; no node stands under the text of a number from the bound on,
so these texts are fresh.
-/

namespace NodeFlow

/-! ## The numbers that ids spell -/

variable {ids : List String} {ns : List Int} {id : String}

theorem exists_of_numericIds (h : numericIds ids = .ok ns) (hid : id ∈ ids)
    (hdigits : Text.isDigits id) : ∃ n ∈ ns, integerOfText id = .ok n := by
  induction ids generalizing ns with
  | nil => simp at hid
  | cons x ids ih =>
    rw [numericIds] at h
    by_cases hx : Text.isDigits x
    · rw [if_pos hx] at h
      cases hn : integerOfText x with
      | error e => simp [hn] at h
      | ok n =>
        rw [hn] at h
        obtain ⟨ns', hrest, rfl⟩ := exists_of_map_eq_ok h
        rcases List.mem_cons.1 hid with rfl | hmem
        · exact ⟨n, by simp, hn⟩
        · obtain ⟨m, hm, hid'⟩ := ih hrest hmem
          exact ⟨m, List.mem_cons_of_mem _ hm, hid'⟩
    · rw [if_neg hx] at h
      rcases List.mem_cons.1 hid with rfl | hmem
      · exact absurd hdigits hx
      · exact ih h hmem

/-- Where every id made of digits spells a number below a bound, the numbers are found, and all of
them are below the bound. -/
theorem numericIds_ok_of_below {bound : Int}
    (h : ∀ id ∈ ids, Text.isDigits id → ∃ n, integerOfText id = .ok n ∧ n < bound) :
    ∃ ns, numericIds ids = .ok ns ∧ ∀ n ∈ ns, n < bound := by
  induction ids with
  | nil => exact ⟨[], rfl, by simp⟩
  | cons x ids ih =>
    obtain ⟨ns, hns, hlt⟩ := ih fun id hid => h id (List.mem_cons_of_mem _ hid)
    by_cases hx : Text.isDigits x
    · obtain ⟨n, hn, hnlt⟩ := h x (by simp) hx
      refine ⟨n :: ns, by simp [numericIds, hx, hn, hns, Except.map], ?_⟩
      intro m hm
      rcases List.mem_cons.1 hm with rfl | hm
      · exact hnlt
      · exact hlt m hm
    · exact ⟨ns, by simp [numericIds, hx, hns], hlt⟩

theorem foldl_max_lt_iff {a b : Int} : ns.foldl max a < b ↔ a < b ∧ ∀ n ∈ ns, n < b := by
  induction ns generalizing a with
  | nil => simp
  | cons n ns ih =>
    rw [List.foldl_cons, ih, Int.max_lt]
    simp [and_assoc]

namespace Graph

variable {g : Graph} {bound floor first : Int}

/-- Every id made of digits spells a number below a bound. -/
def IdsBelow (g : Graph) (bound : Int) : Prop :=
  ∀ id, g.has id → Text.isDigits id → ∃ n, integerOfText id = .ok n ∧ n < bound

theorem IdsBelow.mono {bound' : Int} (h : g.IdsBelow bound) (hle : bound ≤ bound') :
    g.IdsBelow bound' := by
  intro id hid hdigits
  obtain ⟨n, hn, hlt⟩ := h id hid hdigits
  exact ⟨n, hn, by omega⟩

/-- **The next id is a bound of the ids, and not below the floor.** -/
theorem idsBelow_nextId (h : g.nextId floor = .ok first) : floor ≤ first ∧ g.IdsBelow first := by
  rw [nextId] at h
  obtain ⟨ns, hns, hfirst⟩ := exists_of_map_eq_ok h
  have hlt : ns.foldl max (floor - 1) < first := by omega
  obtain ⟨hfloor, hall⟩ := foldl_max_lt_iff.1 hlt
  refine ⟨by omega, ?_⟩
  intro id hid hdigits
  obtain ⟨n, hn, hid'⟩ := exists_of_numericIds hns (has_iff_mem_keys.1 hid) hdigits
  exact ⟨n, hid', hall n hn⟩

/-- **And it is the least such bound.** -/
theorem nextId_le_of_idsBelow (h : g.IdsBelow bound) (hfloor : floor ≤ bound) :
    ∃ first, g.nextId floor = .ok first ∧ first ≤ bound := by
  obtain ⟨ns, hns, hlt⟩ : ∃ ns, numericIds g.nodes.keys = .ok ns ∧ ∀ n ∈ ns, n < bound :=
    numericIds_ok_of_below fun id hid => h id (has_iff_mem_keys.2 hid)
  refine ⟨ns.foldl max (floor - 1) + 1, by simp [nextId, hns, Except.map], ?_⟩
  have := foldl_max_lt_iff.2 ⟨show floor - 1 < bound by omega, hlt⟩
  omega

/-- **The next id comes after the greatest**, even where it is too long to be written. -/
theorem nextId_of_greatest {n : Nat} (hn : n < Numeral.unwritable)
    (hhas : g.has (Json.int n).display) (hids : g.IdsBelow (n + 1 : Nat))
    (hfloor : floor ≤ (n + 1 : Nat)) : g.nextId floor = .ok ((n + 1 : Nat) : Int) := by
  -- it is not above the bound, and above the number
  obtain ⟨first, hfirst, hle⟩ := nextId_le_of_idsBelow hids hfloor
  obtain ⟨m, hm, hlt⟩ := (idsBelow_nextId hfirst).2 _ hhas (isDigits_display_natCast n)
  rw [integerOfText_display_natCast, if_pos hn] at hm
  obtain rfl : (n : Int) = m := Except.ok.inj hm
  rw [hfirst, show first = ((n + 1 : Nat) : Int) by omega]

/-- **Texts of numbers from the bound on are fresh.** -/
theorem not_has_of_idsBelow {n : Nat} (h : g.IdsBelow bound) (hn : bound ≤ n) :
    ¬ g.has (Json.int n).display := by
  intro hhas
  obtain ⟨m, hm, hlt⟩ := h _ hhas (isDigits_display_natCast n)
  rw [integerOfText_display_natCast] at hm
  split at hm
  · -- the text spells the number itself, which is not below the bound
    obtain rfl : (n : Int) = m := by simpa using hm
    omega
  · -- and a text too long to be read spells none
    cases hm

end Graph

/-- The text of a number is no key with a meaning of its own. -/
theorem display_int_not_reserved (i : Int) : (Json.int i).display ∉ reservedKeys := by
  have hplain : reservedKeys.all (fun key => !key.toList.any Char.isDigit) = true := by
    decide +kernel
  intro hkey
  have hany : (Json.int i).display.toList.any Char.isDigit = true :=
    List.any_eq_true.2 (exists_isDigit_mem_display i)
  simpa [hany] using List.all_eq_true.1 hplain _ hkey

end NodeFlow
