import NodeFlow.Proofs.Layout.Conversion
import NodeFlow.Proofs.Layout.Widgets
/-!
# Widgets of the editor that are declared

Behind the value of a seed an editor saves a token of its own. Where the class
declares a widget for it, the token is passed over all the same, and the
declared widget takes the value behind it, which is lost for the widget that it
belongs to. So such widgets change what the others get, exactly where one of
them stands in front of another widget and the values go on behind the token
(`placeValues_declared`).
-/

namespace NodeFlow.Layout

/-- A widget of a node, with the widget of the editor that is declared behind it, if it is a seed
with one. -/
structure Steered where
  widget : InputSpec
  control : Option InputSpec := none
  isOwn : isControl widget.name = false := by decide +kernel
  ofSeed : ∀ c ∈ control, isSeed widget ∧ isControl c.name := by decide +kernel

/-- The widgets without those of the editor. -/
def owned (ws : List Steered) : List InputSpec := ws.map Steered.widget

/-- The widgets with those of the editor. -/
def declared (ws : List Steered) : List InputSpec :=
  ws.flatMap fun w => w.widget :: w.control.toList

/-- How many tokens are saved behind the value of a widget. -/
def tokens (w : InputSpec) : Nat := if isSeed w then 1 else 0

/-- Behind the value of each seed stands a token. -/
def Tokened : List InputSpec → List Json → Prop
  | [], _ => True
  | _ :: _, [] => True
  | w :: ws, _ :: vs =>
    tokens w ≤ vs.length ∧ (∀ t ∈ vs.take (tokens w), isControlToken t) ∧
      Tokened ws (vs.drop (tokens w))

instance Tokened.decidable : ∀ ws vs, Decidable (Tokened ws vs)
  | [], _ => isTrue trivial
  | _ :: _, [] => isTrue trivial
  | w :: ws, _ :: vs =>
    have := Tokened.decidable ws (vs.drop (tokens w))
    inferInstanceAs (Decidable (_ ≤ vs.length ∧ (∀ t ∈ vs.take _, _) ∧ _))

/-- How many values are saved of widgets, with their tokens. -/
def extent : List InputSpec → Nat
  | [] => 0
  | w :: ws => tokens w + 1 + extent ws

/-- Behind a seed with a widget of the editor another widget is declared, and the values, of which
there is a number, go on behind its token. -/
def Shifts (ws : List Steered) (n : Nat) : Prop :=
  ∃ before s after, ws = before ++ s :: after ∧ s.control.isSome ∧ after ≠ [] ∧
    extent (owned before) + 2 < n

variable {ws : List Steered} {w : Steered} {specs : List InputSpec} {spec c : InputSpec}
variable {vs : List Json} {v t : Json} {inputs : Dict InputValue} {n : Nat}

/-! ## Taking values -/

theorem placeValues_nil (specs : List InputSpec) (inputs : Dict InputValue) :
    placeValues specs [] inputs = inputs := by
  cases specs <;> rfl

/-- A widget of the editor takes a value, and sets nothing. -/
theorem placeValues_control (hc : isControl c.name) :
    placeValues (c :: specs) vs inputs = placeValues specs vs.tail inputs := by
  cases vs with
  | nil => rw [placeValues_nil, List.tail_nil, placeValues_nil]
  | cons v vs => rw [placeValues, if_pos hc, List.tail_cons]

theorem dropToken_eq (hlength : tokens spec ≤ vs.length)
    (htokens : ∀ t ∈ vs.take (tokens spec), isControlToken t) :
    (if isSeed spec then dropToken vs else vs) = vs.drop (tokens spec) := by
  unfold tokens at *
  cases hseed : isSeed spec with
  | false => rfl
  | true =>
    rw [hseed] at hlength htokens
    cases vs with
    | nil => cases hlength
    | cons t rest =>
      have ht : isControlToken t := htokens t List.mem_cons_self
      exact if_pos ht

/-- Any other widget takes a value and the tokens behind it. -/
theorem Tokened.placeValues_cons (h : Tokened (spec :: specs) (v :: vs))
    (hown : isControl spec.name = false) (after : List InputSpec) :
    placeValues (spec :: after) (v :: vs) inputs =
      placeValues after (vs.drop (tokens spec)) (writeValue inputs spec.name v) := by
  have hdrop := dropToken_eq h.1 h.2.1
  unfold isSeed at hdrop
  rw [placeValues, hown, if_neg Bool.false_ne_true, hdrop]

theorem declared_cons_of_none (h : w.control = none) :
    declared (w :: ws) = w.widget :: declared ws := by
  simp [declared, h]

/-- **The value behind the token of a seed is lost** where a widget of the editor is declared. -/
theorem Tokened.placeValues_declared_cons (h : Tokened (w.widget :: specs) (v :: vs))
    (hcontrol : w.control = some c) :
    placeValues (declared (w :: ws)) (v :: vs) inputs =
      placeValues (declared ws) (vs.drop 2) (writeValue inputs w.widget.name v) := by
  obtain ⟨hseed, hc⟩ := w.ofSeed c hcontrol
  have hdeclared : declared (w :: ws) = w.widget :: c :: declared ws := by
    simp [declared, hcontrol]
  have hone : tokens w.widget = 1 := if_pos hseed
  rw [hdeclared, h.placeValues_cons w.isOwn, placeValues_control hc, hone, List.tail_drop]

/-! ## Where nothing shifts -/

theorem shifts_cons_iff : Shifts (w :: ws) n ↔
    (w.control.isSome ∧ ws ≠ [] ∧ 2 < n) ∨ Shifts ws (n - (tokens w.widget + 1)) := by
  have hextent : ∀ before : List Steered,
      extent (owned (w :: before)) = tokens w.widget + 1 + extent (owned before) := fun _ => rfl
  constructor
  · rintro ⟨before, s, after, heq, hs, hafter, hn⟩
    cases before with
    | nil =>
      obtain ⟨rfl, rfl⟩ := List.cons.inj heq
      exact Or.inl ⟨hs, hafter, by simpa [extent, owned] using hn⟩
    | cons w' before =>
      obtain ⟨rfl, rfl⟩ := List.cons.inj heq
      rw [hextent] at hn
      exact Or.inr ⟨before, s, after, rfl, hs, hafter, by omega⟩
  · rintro (⟨hs, hafter, hn⟩ | ⟨before, s, after, rfl, hs, hafter, hn⟩)
    · exact ⟨[], w, ws, rfl, hs, hafter, by simpa [extent, owned] using hn⟩
    · refine ⟨w :: before, s, after, rfl, hs, hafter, ?_⟩
      rw [hextent]
      omega

/-- **Where nothing shifts, the widgets of the editor change nothing.** -/
theorem placeValues_declared_eq (ht : Tokened (owned ws) vs) (h : ¬ Shifts ws vs.length) :
    placeValues (declared ws) vs inputs = placeValues (owned ws) vs inputs := by
  induction ws generalizing vs inputs with
  | nil => rfl
  | cons w ws ih =>
    cases vs with
    | nil => rw [placeValues_nil, placeValues_nil]
    | cons v vs =>
      rw [shifts_cons_iff, not_or, List.length_cons, Nat.add_sub_add_right,
        ← List.length_drop] at h
      obtain ⟨hhere, hrest⟩ := h
      have hown : placeValues (owned (w :: ws)) (v :: vs) inputs =
          placeValues (owned ws) (vs.drop (tokens w.widget)) (writeValue inputs w.widget.name v) :=
        ht.placeValues_cons w.isOwn _
      rw [hown]
      cases hcontrol : w.control with
      | none =>
        rw [declared_cons_of_none hcontrol, ht.placeValues_cons w.isOwn]
        exact ih ht.2.2 hrest
      | some c =>
        have hone : tokens w.widget = 1 := if_pos (w.ofSeed c hcontrol).1
        rw [ht.placeValues_declared_cons hcontrol, hone]
        by_cases hlast : ws = []
        · rw [hlast]
          rfl
        · -- there is no value behind the token
          have hshort : vs.length ≤ 1 := by
            by_contra hlong
            exact hhere ⟨by rw [hcontrol]; rfl, hlast, by omega⟩
          rw [List.drop_eq_nil_of_le (by omega), List.drop_eq_nil_of_le hshort, placeValues_nil,
            placeValues_nil]

/-! ## Where values shift -/

/-- Nulls in place of values, and the tokens as they are. -/
def blanked : List InputSpec → List Json → List Json
  | [], vs => vs.map fun _ => .null
  | _ :: _, [] => []
  | w :: ws, _ :: vs => .null :: (vs.take (tokens w) ++ blanked ws (vs.drop (tokens w)))

theorem Tokened.length_blanked (h : Tokened specs vs) : (blanked specs vs).length = vs.length := by
  induction specs generalizing vs with
  | nil => exact List.length_map _
  | cons spec specs ih =>
    cases vs with
    | nil => rfl
    | cons v vs =>
      have hlength := h.1
      rw [blanked, List.length_cons, List.length_append, ih h.2.2, List.length_take,
        List.length_drop, List.length_cons]
      omega

/-- Only the values of seeds are seen to be followed by tokens. -/
theorem Tokened.of_rest {rest : List Json} (h : Tokened (spec :: specs) (v :: vs))
    (hrest : Tokened specs rest) (u : Json) :
    Tokened (spec :: specs) (u :: (vs.take (tokens spec) ++ rest)) := by
  have hlength : (vs.take (tokens spec)).length = tokens spec := List.length_take_of_le h.1
  refine ⟨?_, ?_, ?_⟩
  · rw [List.length_append]
    omega
  · rw [List.take_left' hlength]
    exact h.2.1
  · rw [List.drop_left' hlength]
    exact hrest

theorem tokened_blanked (h : Tokened specs vs) : Tokened specs (blanked specs vs) := by
  induction specs generalizing vs with
  | nil => trivial
  | cons spec specs ih =>
    cases vs with
    | nil => trivial
    | cons v vs => exact h.of_rest (ih h.2.2) .null

theorem mem_blanked (h : Tokened specs vs) (hv : v ∈ blanked specs vs) :
    v = .null ∨ isControlToken v := by
  induction specs generalizing vs with
  | nil =>
    obtain ⟨_, -, rfl⟩ := List.mem_map.1 hv
    exact Or.inl rfl
  | cons spec specs ih =>
    cases vs with
    | nil => cases hv
    | cons u vs =>
      rcases List.mem_cons.1 hv with rfl | hv
      · exact Or.inl rfl
      · rcases List.mem_append.1 hv with hv | hv
        · exact Or.inr (h.2.1 v hv)
        · exact ih h.2.2 hv

/-- Nulls set no input. -/
theorem placeValues_blanked (h : Tokened (owned ws) vs) :
    placeValues (owned ws) (blanked (owned ws) vs) inputs = inputs := by
  induction ws generalizing vs inputs with
  | nil => rfl
  | cons w ws ih =>
    cases vs with
    | nil => rfl
    | cons v vs =>
      have hlength : (vs.take (tokens w.widget)).length = tokens w.widget :=
        List.length_take_of_le h.1
      have hown : placeValues (owned (w :: ws)) (blanked (owned (w :: ws)) (v :: vs)) inputs =
          placeValues (owned ws) _ (writeValue inputs w.widget.name .null) :=
        (tokened_blanked h).placeValues_cons w.isOwn _
      rw [hown, List.drop_left' hlength]
      exact ih h.2.2

theorem not_mem_blanked (h : Tokened specs vs) : Json.int 0 ∉ blanked specs vs := by
  intro hmem
  rcases mem_blanked h hmem with hnull | htoken
  · cases hnull
  · cases htoken

/-- A value that is not saved is not set. -/
theorem placeValues_ne_of_not_mem {name : String} (hv : v ∉ vs) :
    (placeValues specs vs .empty).get? name ≠ some (.literal v) := by
  intro hset
  have hfilled : FilledFrom vs (placeValues specs vs .empty) :=
    placeValues_induction (fun _ name _ hv h => h.writeValue name hv) _ (fun _ hv => hv)
      (filledFrom_empty vs)
  rcases hfilled _ _ hset with ⟨u, hu, heq⟩ | ⟨source, output, heq⟩
  · cases heq
    exact hv hu
  · cases heq

/-- Nulls in place of values, but for a number in place of the first. -/
def numbered (specs : List InputSpec) (vs : List Json) : List Json :=
  .int 0 :: (blanked specs vs).tail

theorem tokened_numbered (h : Tokened (spec :: specs) (v :: vs)) :
    Tokened (spec :: specs) (numbered (spec :: specs) (v :: vs)) :=
  h.of_rest (tokened_blanked h.2.2) (.int 0)

/-- The first widget gets the number. -/
theorem Tokened.placeValues_numbered (h : Tokened (owned (w :: ws)) (v :: vs)) :
    (placeValues (owned (w :: ws)) (numbered (owned (w :: ws)) (v :: vs)) .empty).get?
      w.widget.name = some (.literal (.int 0)) := by
  have hlength : (vs.take (tokens w.widget)).length = tokens w.widget :=
    List.length_take_of_le h.1
  have hown : placeValues (owned (w :: ws)) (numbered (owned (w :: ws)) (v :: vs)) .empty =
      placeValues (owned ws) (List.drop (tokens w.widget)
        (vs.take (tokens w.widget) ++ blanked (owned ws) (vs.drop (tokens w.widget))))
        (writeValue .empty w.widget.name (.int 0)) :=
    (tokened_numbered h).placeValues_cons w.isOwn _
  rw [hown, List.drop_left' hlength, placeValues_blanked h.2.2]
  simp [writeValue, Dict.get?_insert]

/-- **A number behind the token of a seed**, among nulls: it is set where no widget of the editor is
declared, and lost where one is. -/
theorem Tokened.exists_lost {next : Steered} {u : Json}
    (h : Tokened (owned (w :: next :: ws)) (v :: t :: u :: vs)) (hcontrol : w.control = some c) :
    ∃ rest, rest.length = vs.length ∧
      Tokened (owned (w :: next :: ws)) (.null :: t :: .int 0 :: rest) ∧
      (placeValues (owned (w :: next :: ws)) (.null :: t :: .int 0 :: rest) .empty).get?
        next.widget.name = some (.literal (.int 0)) ∧
      (placeValues (declared (w :: next :: ws)) (.null :: t :: .int 0 :: rest) .empty).get?
        next.widget.name ≠ some (.literal (.int 0)) := by
  have hone : tokens w.widget = 1 := if_pos (w.ofSeed c hcontrol).1
  have hnext : Tokened (owned (next :: ws)) (u :: vs) := by
    have := h.2.2
    rwa [hone] at this
  obtain ⟨rest, hrest⟩ : ∃ rest, blanked (owned (next :: ws)) (u :: vs) = .null :: rest := ⟨_, rfl⟩
  have hnumbered : numbered (owned (next :: ws)) (u :: vs) = .int 0 :: rest := by
    rw [numbered, hrest, List.tail_cons]
  have hnumber : Tokened (owned (next :: ws)) (.int 0 :: rest) := by
    rw [← hnumbered]
    exact tokened_numbered hnext
  have hall : Tokened (owned (w :: next :: ws)) (.null :: t :: .int 0 :: rest) := by
    have := h.of_rest hnumber .null
    rwa [hone] at this
  refine ⟨rest, ?_, hall, ?_, ?_⟩
  · have hlength := hnext.length_blanked
    rw [hrest] at hlength
    simpa using hlength
  · have hfirst : placeValues (owned (w :: next :: ws)) (.null :: t :: .int 0 :: rest) .empty =
        placeValues (owned (next :: ws)) (List.drop (tokens w.widget) (t :: .int 0 :: rest))
          .empty :=
      hall.placeValues_cons w.isOwn _
    rw [hfirst, hone, List.drop_one, List.tail_cons, ← hnumbered]
    exact hnext.placeValues_numbered
  · have hdeclared :
        placeValues (declared (w :: next :: ws)) (.null :: t :: .int 0 :: rest) .empty =
          placeValues (declared (next :: ws)) rest .empty :=
      hall.placeValues_declared_cons hcontrol
    have hnot := not_mem_blanked hnext
    rw [hrest] at hnot
    rw [hdeclared]
    exact placeValues_ne_of_not_mem fun hmem => hnot (List.mem_cons_of_mem _ hmem)

/-- What is lost behind a widget is lost with the widget in front. -/
theorem Tokened.exists_behind {vs' : List Json} {name : String}
    (h : Tokened (owned (w :: ws)) (v :: vs)) (hcontrol : w.control = none)
    (ht' : Tokened (owned ws) vs') (hlength : vs'.length = (vs.drop (tokens w.widget)).length)
    (hne : (placeValues (declared ws) vs' .empty).get? name ≠
      (placeValues (owned ws) vs' .empty).get? name) :
    ∃ all, all.length = (v :: vs).length ∧ Tokened (owned (w :: ws)) all ∧
      (placeValues (declared (w :: ws)) all .empty).get? name ≠
        (placeValues (owned (w :: ws)) all .empty).get? name := by
  have htaken : (vs.take (tokens w.widget)).length = tokens w.widget := List.length_take_of_le h.1
  have hall : Tokened (owned (w :: ws)) (.null :: (vs.take (tokens w.widget) ++ vs')) :=
    h.of_rest ht' .null
  refine ⟨.null :: (vs.take (tokens w.widget) ++ vs'), ?_, hall, ?_⟩
  · have hfits := h.1
    rw [List.length_drop] at hlength
    rw [List.length_cons, List.length_cons, List.length_append]
    omega
  · have hown : placeValues (owned (w :: ws)) (.null :: _) .empty = _ :=
      hall.placeValues_cons w.isOwn (owned ws)
    rw [declared_cons_of_none hcontrol, hall.placeValues_cons w.isOwn, hown,
      List.drop_left' htaken]
    exact hne

/-- **Where values shift, some of them may be lost.** -/
theorem Tokened.exists_shifted (ht : Tokened (owned ws) vs) (h : Shifts ws vs.length) :
    ∃ vs', vs'.length = vs.length ∧ Tokened (owned ws) vs' ∧
      ∃ name, (placeValues (declared ws) vs' .empty).get? name ≠
        (placeValues (owned ws) vs' .empty).get? name := by
  -- up to the first seed with a widget of the editor
  induction ws generalizing vs with
  | nil =>
    obtain ⟨before, s, after, heq, -⟩ := h
    cases before <;> cases heq
  | cons w ws ih =>
    have hlong : ws ≠ [] ∧ 2 < vs.length := by
      rcases shifts_cons_iff.1 h with ⟨-, hnext, hlong⟩ | ⟨before, s, after, rfl, -, -, hlong⟩
      · exact ⟨hnext, hlong⟩
      · exact ⟨by simp, by omega⟩
    obtain ⟨v, t, u, rest, rfl⟩ : ∃ v t u rest, vs = v :: t :: u :: rest := by
      rcases vs with _ | ⟨v, _ | ⟨t, _ | ⟨u, rest⟩⟩⟩
      case cons.cons.cons => exact ⟨v, t, u, rest, rfl⟩
      all_goals simp at hlong
    cases hcontrol : w.control with
    | none =>
      have hrest : Shifts ws ((t :: u :: rest).drop (tokens w.widget)).length := by
        rw [shifts_cons_iff, hcontrol, List.length_cons, Nat.add_sub_add_right,
          ← List.length_drop] at h
        exact h.resolve_left fun hhere => Bool.false_ne_true hhere.1
      obtain ⟨vs', hlength, ht', name, hne⟩ := ih ht.2.2 hrest
      obtain ⟨all, hall⟩ := ht.exists_behind hcontrol ht' hlength hne
      exact ⟨all, hall.1, hall.2.1, name, hall.2.2⟩
    | some c =>
      obtain ⟨next, after, rfl⟩ := List.exists_cons_of_ne_nil hlong.1
      obtain ⟨vs', hlength, hall, hset, hlost⟩ := ht.exists_lost hcontrol
      refine ⟨.null :: t :: .int 0 :: vs', ?_, hall, next.widget.name, ?_⟩
      · rw [List.length_cons, List.length_cons, List.length_cons, hlength]
        rfl
      · rw [hset]
        exact hlost

/-- **Widgets of the editor that are declared** change nothing, unless values shift; and where they
do, there are as many values with which another widget loses its own. -/
theorem placeValues_declared (ht : Tokened (owned ws) vs) :
    (¬ Shifts ws vs.length →
      ∀ inputs, placeValues (declared ws) vs inputs = placeValues (owned ws) vs inputs) ∧
    (Shifts ws vs.length → ∃ vs', vs'.length = vs.length ∧ Tokened (owned ws) vs' ∧
      ∃ name, (placeValues (declared ws) vs' .empty).get? name ≠
        (placeValues (owned ws) vs' .empty).get? name) :=
  ⟨fun h _ => placeValues_declared_eq ht h, ht.exists_shifted⟩

/-- A seed with its widget of the editor. -/
def steeredSeed : Steered where
  widget := { name := "seed", type := "INT" }
  control := some { name := "control_after_generate", type := "STRING" }

/-- A widget that is no seed. -/
def plainSteps : Steered where
  widget := { name := "steps", type := "INT" }

/-- Nothing shifts where the seed is the last of the widgets. -/
theorem placeValues_stepsThenSeed :
    Tokened (owned [plainSteps, steeredSeed]) [.int 20, .int 5, .str "fixed"] ∧
      (placeValues (declared [plainSteps, steeredSeed])
        [.int 20, .int 5, .str "fixed"] .empty).entries =
        [("steps", .literal (.int 20)), ("seed", .literal (.int 5))] := by
  have ht : Tokened (owned [plainSteps, steeredSeed]) [.int 20, .int 5, .str "fixed"] := by
    decide +kernel
  have hstill : ¬ Shifts [plainSteps, steeredSeed] 3 := by
    rw [shifts_cons_iff, shifts_cons_iff]
    rintro (⟨hsome, -⟩ | ⟨-, hlast, -⟩ | ⟨before, s, after, heq, -⟩)
    · cases hsome
    · exact hlast rfl
    · cases before <;> cases heq
  refine ⟨ht, ?_⟩
  rw [(placeValues_declared ht).1 hstill]
  decide +kernel

/-- The value of the widget behind a seed with a widget of the editor is lost. -/
theorem lost_seedThenSteps :
    Tokened (owned [steeredSeed, plainSteps]) [.int 5, .str "randomize", .int 20] ∧
      (placeValues (owned [steeredSeed, plainSteps])
        [.int 5, .str "randomize", .int 20] .empty).entries =
        [("seed", .literal (.int 5)), ("steps", .literal (.int 20))] ∧
      (placeValues (declared [steeredSeed, plainSteps])
        [.int 5, .str "randomize", .int 20] .empty).entries = [("seed", .literal (.int 5))] := by
  decide +kernel

end NodeFlow.Layout
