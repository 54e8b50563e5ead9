import NodeFlow.Mapping.Candidate
import NodeFlow.Proofs.Graph.Input
import NodeFlow.Template.Substitution
/-!
# Placeholders that are written and found

A placeholder that is written for a proper name is found again, and nothing
else is found in it. The placeholders of a workflow are those that are found
in the text literals of its inputs.
-/

namespace NodeFlow

open Template

namespace Template

/-- A name that a placeholder can have: it is not empty, and made of characters of names. -/
def IsName (name : String) : Prop := name.toList ≠ [] ∧ ∀ c ∈ name.toList, isNameChar c

instance (name : String) : Decidable (IsName name) :=
  -- the characters of the name are tested, not all characters there are
  decidable_of_iff (name.toList ≠ [] ∧ name.toList.all isNameChar) (by simp [IsName])

/-- A placeholder is found at the beginning of a text, whatever follows it. -/
theorem token?_append {name : List Char} (hne : name ≠ []) (hname : ∀ c ∈ name, isNameChar c)
    (rest : List Char) : token? ((Part.token name).chars ++ rest) = some (name, rest) := by
  -- a brace is no character of a name, so the name ends where the closing braces begin
  have htake : (name ++ '\x7d' :: '\x7d' :: rest).takeWhile isNameChar = name := by
    rw [List.takeWhile_append_of_pos hname, List.takeWhile_cons_of_neg (by decide), List.append_nil]
  have hdrop : (name ++ '\x7d' :: '\x7d' :: rest).dropWhile isNameChar =
      '\x7d' :: '\x7d' :: rest := by
    rw [List.dropWhile_append_of_pos hname, List.dropWhile_cons_of_neg (by decide)]
  have hempty : name.isEmpty = false := List.isEmpty_eq_false_iff.2 hne
  have hchars : (Part.token name).chars ++ rest =
      '\x7b' :: '\x7b' :: (name ++ '\x7d' :: '\x7d' :: rest) := by
    simp [Part.chars]
  rw [hchars, token?, hdrop, htake, hempty]
  rfl

/-- A placeholder at the beginning of a text is its first part. -/
theorem parts_of_token? {cs name rest : List Char} (h : token? cs = some (name, rest)) :
    parts cs = .token name :: parts rest := by
  rw [parts]
  split
  · rename_i hsome
    obtain ⟨rfl, rfl⟩ : name = _ ∧ rest = _ := by simpa using h.symm.trans hsome
    rfl
  · rename_i hnone
    cases h.symm.trans hnone

/-- **What is found in a placeholder is its name**, and nothing else. -/
theorem tokens_placeholderToken {name : String} (h : IsName name) :
    tokens (placeholderToken name) = [name] := by
  have hchars : (placeholderToken name).toList = (Part.token name.toList).chars ++ [] := by
    simp [placeholderToken, Part.chars]
  have hend : parts [] = [] := by
    rw [parts]
    rfl
  rw [tokens, hchars, parts_of_token? (token?_append h.1 h.2 []), hend]
  simp

/-- Sorting keeps the names. -/
theorem mem_sorted_iff {names : List String} {name : String} :
    name ∈ sorted names ↔ name ∈ names := by
  rw [sorted, List.mem_mergeSort, List.mem_eraseDups]

end Template

namespace Graph

variable {g : Graph}

theorem mem_textLiterals_iff {text : String} :
    text ∈ textLiterals g ↔ ∃ id input, g.inputAt? id input = some (.literal (.str text)) := by
  simp only [textLiterals, List.mem_flatMap, List.mem_filterMap, mem_nodeList_iff,
    Dict.mem_values_iff, inputAt?_eq_some_iff]
  constructor
  · rintro ⟨n, ⟨id, hn⟩, v, ⟨input, hv⟩, htext⟩
    refine ⟨id, input, n, hn, ?_⟩
    obtain ⟨w, hw, hstr⟩ := Option.bind_eq_some_iff.1 htext
    obtain rfl := InputValue.literal?_eq_some_iff.1 hw
    cases w with
    | str s =>
      obtain rfl : s = text := by simpa [Json.str?] using hstr
      exact hv
    | _ => simp [Json.str?] at hstr
  · rintro ⟨id, input, n, hn, hv⟩
    exact ⟨n, ⟨id, hn⟩, _, ⟨input, hv⟩, rfl⟩

/-- **The placeholders of a workflow** are those that are found in a text literal. -/
theorem mem_placeholders_iff {name : String} :
    name ∈ g.placeholders ↔
      ∃ id input text, g.inputAt? id input = some (.literal (.str text)) ∧ name ∈ tokens text := by
  rw [placeholders, mem_sorted_iff, List.mem_flatMap]
  constructor
  · rintro ⟨text, htext, hname⟩
    obtain ⟨id, input, hv⟩ := mem_textLiterals_iff.1 htext
    exact ⟨id, input, text, hv, hname⟩
  · rintro ⟨id, input, text, hv, hname⟩
    exact ⟨text, mem_textLiterals_iff.2 ⟨id, input, hv⟩, hname⟩

end Graph

end NodeFlow
