import Mathlib.Data.List.Induction
import NodeFlow.Layout
import NodeFlow.Proofs.Numeral.Decimal
/-!
# The nodes that a layout document lists

A document may list several nodes with one id, nodes without an id, and ids
spelled as texts or fractions. Of the nodes with an id the last one counts
(`lastNode?`), and the number that stands for no node is passed over. What is
read of a document is therefore a function of `lastNode?` alone, as
`get?_items_eq_some_iff` says.
-/

namespace NodeFlow

theorem idText_injective : Function.Injective idText := display_int_injective

namespace Layout

variable {document : Fields} {l : Layout} {key : String} {item : Item} {i : Int}

/-! ## Raw nodes -/

/-- The entries of the nodes of a document, in order; what is no object is passed over. -/
def rawNodes (document : Fields) : List Fields := (listed document "nodes").filterMap Json.fields?

/-- The id that a node carries, if there is an integer to be read. -/
def carriedId? (fs : Fields) : Option Int := (Entries.get? fs "id").bind wholeNumber?

/-- The last node of a document with an id. -/
def lastNode? (document : Fields) (i : Int) : Option Fields :=
  ((rawNodes document).filter fun fs => carriedId? fs = some i).getLast?

/-- The type of a node; what is no text is no type. -/
def typeOf (fs : Fields) : String := ((Entries.get? fs "type").bind Json.str?).getD ""

/-- Some node with an id is the last one. -/
theorem exists_lastNode? {fs : Fields} (hmem : fs ∈ rawNodes document)
    (hid : carriedId? fs = some i) : ∃ last, lastNode? document i = some last := by
  have hne : (rawNodes document).filter (fun fs => carriedId? fs = some i) ≠ [] :=
    List.ne_nil_of_mem (List.mem_filter.2 ⟨hmem, by simpa using hid⟩)
  exact ⟨_, List.getLast?_eq_some_getLast hne⟩

theorem typeOf_eq (i : Int) (fs : Fields) : (readItem i fs).type = typeOf fs := by
  show ((Entries.get? fs "type").getD .null).str?.getD "" = _
  rw [typeOf]
  cases Entries.get? fs "type" <;> rfl

/-! ## What is read -/

/-- **The last node with an id counts**, however many there are. -/
theorem get?_readItems (vs : List Json) (i : Int) :
    (readItems vs).get? (idText i) =
      if i = noNumber then none
      else (((vs.filterMap Json.fields?).filter fun fs => carriedId? fs = some i).getLast?).map
        (readItem i) := by
  rw [readItems]
  -- from the end, since a later node takes the place of an earlier one
  induction vs.filterMap Json.fields? using List.reverseRecOn with
  | nil => simp
  | append_singleton raws fs ih =>
    rw [List.foldl_append, List.foldl_cons, List.foldl_nil, List.filter_append,
      List.getLast?_append]
    cases hid : carriedId? fs with
    | none =>
      rw [carriedId?] at hid
      simp only [hid, ih]
      simp [carriedId?, hid]
    | some j =>
      rw [carriedId?] at hid
      simp only [hid]
      by_cases hj : j = noNumber
      · rw [if_pos hj, ih]
        by_cases hi : i = noNumber
        · rw [if_pos hi, if_pos hi]
        · have hne : j ≠ i := fun he => hi (he ▸ hj)
          simp [carriedId?, hid, hne]
      · rw [if_neg hj, Dict.get?_insert, ih]
        by_cases he : j = i
        · subst he
          simp [carriedId?, hid, hj]
        · have hkey : idText j ≠ idText i := fun hk => he (idText_injective hk)
          simp [carriedId?, hid, he, hkey]

/-- Nodes stand under the texts of numbers. -/
theorem exists_of_mem_keys_readItems {vs : List Json} (h : key ∈ (readItems vs).keys) :
    ∃ i, key = idText i := by
  rw [readItems] at h
  generalize vs.filterMap Json.fields? = raws at h
  induction raws using List.reverseRecOn with
  | nil => simp [Dict.keys, Dict.empty, Entries.keys] at h
  | append_singleton raws fs ih =>
    rw [List.foldl_append, List.foldl_cons, List.foldl_nil] at h
    cases hid : (Entries.get? fs "id").bind wholeNumber? with
    | none =>
      simp only [hid] at h
      exact ih h
    | some j =>
      simp only [hid] at h
      by_cases hj : j = noNumber
      · rw [if_pos hj] at h
        exact ih h
      · rw [if_neg hj, Dict.keys_insert] at h
        split at h
        · exact ih h
        · rcases List.mem_append.1 h with h | h
          · exact ih h
          · exact ⟨j, List.mem_singleton.1 h⟩

/-- What is no list has no nodes. -/
theorem items_of_ofFields (h : ofFields document = .ok l) :
    l.items = readItems (listed document "nodes") := by
  rw [ofFields] at h
  obtain ⟨vs, hvs, rfl⟩ := exists_of_map_eq_ok h
  suffices hlisted : vs = listed document "nodes" by rw [hlisted]
  rw [listed]
  cases hnodes : Entries.get? document "nodes" with
  | none =>
    rw [hnodes] at hvs
    exact (Except.ok.inj hvs).symm
  | some v =>
    rw [hnodes, Option.getD_some] at hvs
    cases v <;> dsimp only at hvs
    case arr | str | obj => exact (Except.ok.inj hvs).symm
    all_goals
      split at hvs
      · cases hvs
      · exact (Except.ok.inj hvs).symm

/-- **What is read of a document** are the last nodes with their ids, under the texts of these. -/
theorem get?_items_eq_some_iff (h : ofFields document = .ok l) :
    l.items.get? key = some item ↔
      ∃ i fs, i ≠ noNumber ∧ lastNode? document i = some fs ∧ key = idText i ∧
        item = readItem i fs := by
  rw [items_of_ofFields h]
  constructor
  · intro hitem
    obtain ⟨i, rfl⟩ := exists_of_mem_keys_readItems (Dict.mem_keys_iff.2 ⟨item, hitem⟩)
    rw [get?_readItems] at hitem
    split at hitem
    · cases hitem
    · rename_i hi
      obtain ⟨fs, hfs, rfl⟩ := Option.map_eq_some_iff.1 hitem
      exact ⟨i, fs, hi, hfs, rfl, rfl⟩
  · rintro ⟨i, fs, hi, hfs, rfl, rfl⟩
    rw [lastNode?, rawNodes] at hfs
    rw [get?_readItems, if_neg hi, hfs, Option.map_some]

/-- What is read of a document is the last node that carries its id. -/
theorem exists_lastNode?_of_mem (h : ofFields document = .ok l) (hitem : item ∈ l.items.values) :
    item.id ≠ noNumber ∧
      ∃ fs, lastNode? document item.id = some fs ∧ item = readItem item.id fs := by
  obtain ⟨key, hkey⟩ := Dict.mem_values_iff.1 hitem
  obtain ⟨i, fs, hi, hfs, -, rfl⟩ := (get?_items_eq_some_iff h).1 hkey
  exact ⟨hi, fs, hfs, rfl⟩

/-- Each node stands under the text of its id. -/
theorem key_of_get?_items (h : ofFields document = .ok l) (hitem : l.items.get? key = some item) :
    idText item.id = key := by
  obtain ⟨i, fs, -, -, rfl, rfl⟩ := (get?_items_eq_some_iff h).1 hitem
  rfl

end Layout

end NodeFlow
