import NodeFlow.Mapping.Choice
import NodeFlow.Proofs.Graph.Input
/-!
# Candidates are inputs that are there

Prompts are found by tracing, by titles and by types, the other fields by the
names of inputs, and images by types as well; whichever way a candidate is
found, it is an input of a node of the workflow.
-/

namespace NodeFlow

variable {g : Graph} {schema : Schema} {key type : String} {n : Node} {a : Candidate}

/-- A candidate is an input of a node of the workflow. -/
def Candidate.IsIn (a : Candidate) (g : Graph) : Prop :=
  ∃ n ∈ g.nodeList, ∃ input, n.hasInput input ∧ a = .ofInput n input

theorem hasInput_of_mem_inputsOfType {input : String} (h : input ∈ inputsOfType schema n type) :
    n.hasInput input := by
  rw [inputsOfType] at h
  split at h
  · obtain ⟨i, hi, rfl⟩ := List.mem_map.1 h
    exact (Bool.and_eq_true_iff.1 (List.mem_filter.1 hi).2).2
  · cases h

namespace Graph

theorem mem_encoders {e : Node × String} (h : e ∈ g.encoders schema) :
    e.1 ∈ g.nodeList ∧ e.1.hasInput e.2 := by
  rw [encoders] at h
  split at h
  · obtain ⟨n, hn, he⟩ := List.mem_flatMap.1 h
    obtain ⟨input, hinput, rfl⟩ := List.mem_map.1 he
    exact ⟨(List.mem_filter.1 hn).1, hasInput_of_mem_inputsOfType hinput⟩
  · obtain ⟨n, hn, he⟩ := List.mem_filterMap.1 h
    obtain ⟨input, hfind, rfl⟩ := Option.map_eq_some_iff.1 he
    exact ⟨hn, List.find?_some hfind⟩

theorem isIn_of_mem_promptCandidates {p : Polarity} (h : a ∈ g.promptCandidates schema p) :
    a.IsIn g := by
  obtain ⟨e, he, rfl⟩ := List.mem_map.1 h
  have hmem : e ∈ g.encoders schema := by
    rcases List.mem_append.1 he with htraced | huntraced
    · exact (List.mem_filter.1 (List.mem_reverse.1 htraced)).1
    · exact (List.mem_filter.1 huntraced).1
  obtain ⟨hn, hinput⟩ := mem_encoders hmem
  exact ⟨e.1, hn, e.2, hinput, rfl⟩

theorem isIn_of_mem_namedCandidates (h : a ∈ g.namedCandidates key) : a.IsIn g := by
  obtain ⟨n, hn, ha⟩ := List.mem_flatMap.1 h
  obtain ⟨input, hinput, rfl⟩ := List.mem_map.1 ha
  exact ⟨n, hn, input, (Dict.contains_iff _ _).2 (List.mem_filter.1 hinput).1, rfl⟩

theorem isIn_of_mem_imageCandidates (h : a ∈ g.imageCandidates schema) : a.IsIn g := by
  obtain ⟨n, hn, ha⟩ := List.mem_flatMap.1 h
  obtain ⟨input, hinput, rfl⟩ := List.mem_map.1 ha
  exact ⟨n, (List.mem_filter.1 hn).1, input, hasInput_of_mem_inputsOfType hinput, rfl⟩

/-- **Every candidate for a field is an input of a node of the workflow.** -/
theorem isIn_of_mem_candidates (h : a ∈ g.candidates schema key) : a.IsIn g := by
  -- one case for each way a field is found
  rw [candidates] at h
  split at h
  · exact isIn_of_mem_promptCandidates h
  split at h
  · exact isIn_of_mem_promptCandidates h
  dsimp only at h
  split at h
  · exact isIn_of_mem_imageCandidates h
  · exact isIn_of_mem_namedCandidates h

end Graph

/-- Where nodes stand under their ids, a candidate names an input that holds something. -/
theorem Candidate.IsIn.exists_inputAt? (h : a.IsIn g) (hk : g.WellKeyed) :
    ∃ v, g.inputAt? a.node a.input = some v := by
  obtain ⟨n, hn, input, hinput, rfl⟩ := h
  exact Graph.exists_inputAt? (hk.node?_id hn) hinput

end NodeFlow
