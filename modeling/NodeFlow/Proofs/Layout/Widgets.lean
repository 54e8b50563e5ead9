import Mathlib.Data.List.Chain
import NodeFlow.Layout.Import
/-!
# Values of widgets

An editor saves the values of the widgets of a node one after the other, and
behind the value of a seed it may save a token of its own. Whoever matches
such a list with the widgets gets every value back at its own widget, also
where the list was cut short, as long as no value looks like a token that was
not saved (`placeValues_written`). The values of widgets that belong to the
editor, and nulls, set no input.
-/

namespace NodeFlow.Layout

/-- Whether a widget holds a seed. -/
def isSeed (w : InputSpec) : Bool := seedInputs.contains w.name

theorem not_isControl_of_isSeed {w : InputSpec} (h : isSeed w) : isControl w.name = false := by
  have hall : ∀ name ∈ seedInputs, isControl name = false := by decide +kernel
  exact hall w.name (List.contains_iff_mem.1 h)

/-- A widget with its value, and with the token that is saved behind it, if there is one. -/
structure Kept where
  widget : InputSpec
  value : Json
  token : Option String := none

namespace Kept

/-- What is saved of a widget. -/
def saved (k : Kept) : List Json := k.value :: (k.token.map Json.str).toList

/-- The input that a widget sets: none if it belongs to the editor or holds null. -/
def input? (k : Kept) : Option (String × InputValue) :=
  if isControl k.widget.name ∨ k.value = .null then none
  else some (k.widget.name, .literal k.value)

end Kept

/-- The list that is saved of widgets, one after the other. -/
def written (ks : List Kept) : List Json := ks.flatMap Kept.saved

/-- The widgets with the places of their values in the list, which begins at a given place. -/
def placed : Nat → List Kept → List (Nat × Kept)
  | _, [] => []
  | start, k :: ks => (start, k) :: placed (start + k.saved.length) ks

/-- Tokens are saved behind seeds only, and a seed without one is not followed by a value that could
be taken for one. -/
structure Unambiguous (ks : List Kept) : Prop where
  tokens : ∀ k ∈ ks, ∀ token, k.token = some token → isSeed k.widget ∧ token ∈ controlTokens
  apart : ks.IsChain fun k next => isSeed k.widget → k.token = none → ¬ isControlToken next.value

/-- The inputs whose values stand in front of a place, in the order of their widgets. -/
def recovered (n : Nat) (ks : List (Nat × Kept)) : List (String × InputValue) :=
  ks.filterMap fun k => if k.1 < n then k.2.input? else none

variable {ks : List Kept} {k : Kept} {vs : List Json} {start n : Nat}

/-! ## Places -/

theorem le_of_mem_placed {e : Nat × Kept} (h : e ∈ placed start ks) : start ≤ e.1 := by
  induction ks generalizing start with
  | nil => cases h
  | cons k ks ih =>
    rw [placed] at h
    rcases List.mem_cons.1 h with rfl | h
    · exact Nat.le_refl start
    · exact Nat.le_of_add_right_le (ih h)

/-- At the place of a widget stands its value. -/
theorem getElem?_written {e : Nat × Kept} (h : e ∈ placed start ks) :
    (written ks)[e.1 - start]? = some e.2.value := by
  induction ks generalizing start with
  | nil => cases h
  | cons k ks ih =>
    rw [placed] at h
    rcases List.mem_cons.1 h with rfl | h
    · simp [written, Kept.saved]
    · have hle := le_of_mem_placed h
      rw [written, List.flatMap_cons, List.getElem?_append_right (by omega), ← written, ← ih h]
      congr 1
      omega

/-- In front of the place where a list begins there is no value. -/
theorem recovered_placed_of_le (h : n ≤ start) : recovered n (placed start ks) = [] := by
  refine List.filterMap_eq_nil_iff.2 fun e he => if_neg ?_
  have := le_of_mem_placed he
  omega

theorem recovered_placed_cons (h : start < n) :
    recovered n (placed start (k :: ks)) =
      k.input?.toList ++ recovered n (placed (start + k.saved.length) ks) := by
  rw [placed, recovered, List.filterMap_cons, if_pos h]
  cases k.input? <;> rfl

/-- Widgets have one input each, so where their names are distinct, those of the inputs are. -/
theorem keys_recovered_sublist (n start : Nat) (ks : List Kept) :
    (Entries.keys (recovered n (placed start ks))).Sublist (ks.map fun k => k.widget.name) := by
  induction ks generalizing start with
  | nil => exact List.Sublist.refl []
  | cons k ks ih =>
    rw [placed, recovered, List.filterMap_cons]
    by_cases hn : start < n
    · rw [if_pos hn]
      cases hinput : k.input? with
      | none => exact (ih _).cons _
      | some e =>
        have hname : e.1 = k.widget.name := by
          rw [Kept.input?] at hinput
          split at hinput
          · cases hinput
          · rw [← Option.some.inj hinput]
        rw [List.map_cons, ← hname]
        exact (ih _).cons_cons _
    · rw [if_neg hn]
      exact (ih _).cons _

/-! ## Matching -/

theorem Unambiguous.tail (h : Unambiguous (k :: ks)) : Unambiguous ks :=
  ⟨fun k' hk' => h.tokens k' (List.mem_cons_of_mem _ hk'), h.apart.tail⟩

theorem isControlToken_str {token : String} : isControlToken (.str token) ↔ token ∈ controlTokens :=
  List.contains_iff_mem

/-- A widget that is no seed has no token. -/
theorem Unambiguous.token_eq_none (h : Unambiguous (k :: ks)) (hk : isSeed k.widget = false) :
    k.token = none := by
  cases htoken : k.token with
  | none => rfl
  | some token =>
    obtain ⟨hseed, -⟩ := h.tokens k List.mem_cons_self token htoken
    rw [hk] at hseed
    cases hseed

theorem writeValue_eq (inputs : Dict InputValue) (hk : isControl k.widget.name = false) :
    writeValue inputs k.widget.name k.value = inputs.insertAll k.input?.toList := by
  rw [writeValue, Kept.input?]
  by_cases hnull : k.value = .null <;> simp [hk, hnull, Dict.insertAll]

/-- **A token that was saved behind a value is passed over, and nothing else is.** -/
theorem Unambiguous.exists_rest (h : Unambiguous (k :: ks))
    (hvs : vs <+: (k.token.map Json.str).toList ++ written ks) :
    ∃ rest, (if isSeed k.widget then dropToken vs else vs) = rest ∧ rest <+: written ks ∧
      rest.length = vs.length - (k.token.map Json.str).toList.length := by
  cases hseed : isSeed k.widget with
  | false =>
    rw [h.token_eq_none hseed] at hvs ⊢
    exact ⟨vs, rfl, hvs, rfl⟩
  | true =>
    cases vs with
    | nil => exact ⟨[], rfl, List.nil_prefix, (Nat.zero_sub _).symm⟩
    | cons v vs =>
      rw [if_pos rfl, dropToken]
      cases htoken : k.token with
      | some token =>
        obtain ⟨-, hcontrol⟩ := h.tokens k List.mem_cons_self token htoken
        rw [htoken] at hvs
        obtain ⟨rfl, hprefix⟩ := List.cons_prefix_cons.1 hvs
        exact ⟨vs, if_pos (isControlToken_str.2 hcontrol), hprefix, rfl⟩
      | none =>
        -- the value at hand is that of the next widget, and does not look like a token
        rw [htoken] at hvs
        cases ks with
        | nil => simp [written] at hvs
        | cons next ks =>
          have hvalue : v = next.value := by
            rw [written, List.flatMap_cons, Kept.saved] at hvs
            exact (List.cons_prefix_cons.1 hvs).1
          have hplain : ¬ isControlToken v := by
            rw [hvalue]
            exact (List.isChain_cons_cons.1 h.apart).1 hseed htoken
          exact ⟨v :: vs, if_neg hplain, hvs, rfl⟩

/-- Along the widgets, each of which takes a value; `n` is the place behind the last value. -/
theorem Unambiguous.placeValues_eq (h : Unambiguous ks) (hvs : vs <+: written ks)
    (hn : vs.length = n - start) (inputs : Dict InputValue) :
    placeValues (ks.map Kept.widget) vs inputs =
      inputs.insertAll (recovered n (placed start ks)) := by
  induction ks generalizing vs start inputs with
  | nil => rfl
  | cons k ks ih =>
    cases vs with
    | nil =>
      rw [recovered_placed_of_le (by rw [List.length_nil] at hn; omega)]
      rfl
    | cons v vs =>
      rw [List.length_cons] at hn
      rw [written, List.flatMap_cons, Kept.saved, List.cons_append, List.cons_prefix_cons] at hvs
      obtain ⟨rfl, hvs⟩ := hvs
      obtain ⟨rest, hrest, hprefix, hlength⟩ := h.exists_rest hvs
      have hn' : rest.length = n - (start + k.saved.length) := by
        rw [hlength, Kept.saved, List.length_cons]
        omega
      rw [recovered_placed_cons (by omega), List.map_cons, placeValues]
      cases hcontrol : isControl k.widget.name with
      | true =>
        have hseed : isSeed k.widget = false := by
          cases hs : isSeed k.widget with
          | false => rfl
          | true => exact absurd hcontrol (by simp [not_isControl_of_isSeed hs])
        rw [hseed] at hrest
        obtain rfl : vs = rest := hrest
        rw [if_pos rfl, ih h.tail hprefix hn' inputs, Kept.input?, if_pos (Or.inl hcontrol)]
        rfl
      | false =>
        have hrest' : (if seedInputs.contains k.widget.name then dropToken vs else vs) = rest :=
          hrest
        rw [if_neg Bool.false_ne_true, hrest', writeValue_eq inputs hcontrol,
          ih h.tail hprefix hn', Dict.insertAll, Dict.insertAll, Dict.insertAll, List.foldl_append]

/-- **The values of widgets are recovered** from any part of the list that was saved of them, if
this is unambiguous: the inputs are those of the widgets that do not belong to the editor and whose
values lie in the part and are not null, each with its own value, in the order of the widgets. -/
theorem placeValues_written (h : Unambiguous ks)
    (hdistinct : (ks.map fun k => k.widget.name).Nodup) (hvs : vs <+: written ks) :
    (placeValues (ks.map Kept.widget) vs .empty).entries = recovered vs.length (placed 0 ks) ∧
      ∀ e ∈ placed 0 ks, (written ks)[e.1]? = some e.2.value := by
  refine ⟨?_, fun e he => getElem?_written he⟩
  rw [h.placeValues_eq hvs (Nat.sub_zero _).symm]
  exact Dict.entries_ofList ((keys_recovered_sublist _ _ _).nodup hdistinct)

/-- A seed with a token, a widget of the editor that holds something like a token, a seed without a
token, and a null. -/
def keptSampler : List Kept :=
  let widget (name : String) : InputSpec := { name := name, type := "INT" }
  [⟨widget "seed", .int 42, some "randomize"⟩, ⟨widget "steps", .int 20, none⟩,
    ⟨widget "control_before", .str "fixed", none⟩, ⟨widget "noise_seed", .int 7, none⟩,
    ⟨widget "scheduler", .null, none⟩, ⟨widget "start", .str "fixed", none⟩,
    ⟨widget "end", .int 9, none⟩]

/-- The hypotheses of `placeValues_written` are met; the list is cut short by its last value. -/
theorem placeValues_keptSampler :
    Unambiguous keptSampler ∧ (keptSampler.map fun k => k.widget.name).Nodup ∧
      (written keptSampler).take 7 <+: written keptSampler ∧
      (placeValues (keptSampler.map Kept.widget) ((written keptSampler).take 7) .empty).entries =
        [("seed", .literal (.int 42)), ("steps", .literal (.int 20)),
          ("noise_seed", .literal (.int 7)), ("start", .literal (.str "fixed"))] := by
  have hkept : Unambiguous keptSampler := ⟨by decide +kernel, by decide +kernel⟩
  have hdistinct : (keptSampler.map fun k => k.widget.name).Nodup := by decide +kernel
  have hcut := List.take_prefix 7 (written keptSampler)
  refine ⟨hkept, hdistinct, hcut, ?_⟩
  rw [(placeValues_written hkept hdistinct hcut).1]
  decide +kernel

end NodeFlow.Layout
