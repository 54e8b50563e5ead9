import Mathlib.Order.Bounds.Basic
import NodeFlow.Proofs.Modifier.Hygiene
import NodeFlow.Proofs.Modifier.Placement
import NodeFlow.Proofs.Numeral.Script
/-!
# How new nodes are numbered

The next id of a workflow is the least number from the floor on that is above
whatever its ids denote, in the digits of any script. An id that consists of
digits but denotes no number is not passed over: it is refused, and with it the
numbering. `NumbersIds` says when the next id is found, what it is and how
finding it fails, and that a chain cannot be put in for no other reason than
this, or an id with too many digits.
-/

namespace NodeFlow

namespace Numeral

variable {s : String} {e : Fault} {i : Int}

/-- How a text is refused as an id: one of digits that is too long to be read, or that denotes no
number. -/
def refusal? (s : String) : Option Fault :=
  if Text.isDigits s = false then none
  else if digitLimit < headLength s then some (.badValue (.longInteger (headLength s)))
  else if (decimalValue? s).isNone then some (.badValue (.notInteger s))
  else none

theorem refusal?_of_not_isDigits (h : Text.isDigits s = false) : refusal? s = none := by
  rw [refusal?, if_pos h]

theorem refusal?_of_isDigits (h : Text.isDigits s) :
    refusal? s =
      if digitLimit < headLength s then some (.badValue (.longInteger (headLength s)))
      else if (decimalValue? s).isNone then some (.badValue (.notInteger s))
      else none := by
  have hdigits : ¬ Text.isDigits s = false := by simp [h]
  rw [refusal?, if_neg hdigits]

theorem integerOfText_eq_error_iff (h : Text.isDigits s) :
    integerOfText s = .error e ↔ refusal? s = some e := by
  rw [integerOfText_of_isDigits h, refusal?_of_isDigits h]
  by_cases hlong : digitLimit < headLength s
  · rw [if_pos hlong, if_pos hlong]
    simp
  · rw [if_neg hlong, if_neg hlong]
    cases decimalValue? s <;> simp

theorem refusal?_eq_none_iff :
    refusal? s = none ↔
      (Text.isDigits s → (decimalValue? s).isSome ∧ s.length ≤ digitLimit) := by
  by_cases h : Text.isDigits s
  · rw [refusal?_of_isDigits h]
    cases hv : decimalValue? s with
    | none => split <;> simp [h]
    | some v =>
      rw [headLength_of_decimalValue? hv]
      simp [h]
  · simp [h, refusal?_of_not_isDigits]

theorem decimalValue?_of_integerOfText (h : Text.isDigits s) (hi : integerOfText s = .ok i) :
    ∃ v : Nat, decimalValue? s = some v ∧ i = v := by
  rw [integerOfText_of_isDigits h] at hi
  split at hi
  · cases hi
  · cases hv : decimalValue? s with
    | none => simp [hv] at hi
    | some v => exact ⟨v, rfl, by simpa [hv] using hi.symm⟩

end Numeral

open Numeral (decimalValue? refusal? digitLimit)

/-! ## The numbers of ids -/

/-- **The first id that is refused decides how numbering fails.** -/
theorem numericIds_eq_error_iff {ids : List String} {e : Fault} :
    numericIds ids = .error e ↔ ids.findSome? refusal? = some e := by
  induction ids with
  | nil => simp [numericIds]
  | cons id ids ih =>
    rw [numericIds, List.findSome?_cons]
    by_cases hdigits : Text.isDigits id
    · rw [if_pos hdigits]
      cases hid : integerOfText id with
      | error e' =>
        rw [(Numeral.integerOfText_eq_error_iff hdigits).1 hid]
        simp
      | ok n =>
        have hnone : refusal? id = none := by
          rw [Option.eq_none_iff_forall_ne_some]
          intro e' he'
          rw [(Numeral.integerOfText_eq_error_iff hdigits).2 he'] at hid
          cases hid
        rw [hnone, ← ih]
        cases numericIds ids <;> simp [Except.map]
    · rw [if_neg hdigits, Numeral.refusal?_of_not_isDigits (by simpa using hdigits), ih]

namespace Graph

variable {g : Graph} {cfg : CompilerSettings} {chain : Chain} {source : String}
variable {floor bound number : Int} {e : Fault} {targets : List (String × String)}

theorem nextId_eq_error_iff :
    g.nextId floor = .error e ↔ g.nodes.keys.findSome? refusal? = some e := by
  rw [← numericIds_eq_error_iff, nextId]
  cases numericIds g.nodes.keys <;> simp [Except.map]

theorem exists_nextId_iff :
    (∃ n, g.nextId floor = .ok n) ↔
      ∀ id, g.has id → Text.isDigits id → (decimalValue? id).isSome ∧ id.length ≤ digitLimit := by
  have hok : (∃ n, g.nextId floor = .ok n) ↔ g.nodes.keys.findSome? refusal? = none := by
    constructor
    · rintro ⟨n, hn⟩
      rw [Option.eq_none_iff_forall_ne_some]
      intro e he
      rw [nextId_eq_error_iff.2 he] at hn
      cases hn
    · intro hnone
      cases hn : g.nextId floor with
      | ok n => exact ⟨n, rfl⟩
      | error e =>
        rw [nextId_eq_error_iff, hnone] at hn
        cases hn
  rw [hok, List.findSome?_eq_none_iff]
  simp only [Numeral.refusal?_eq_none_iff, has_iff_mem_keys]

/-- A number is above all that ids denote. -/
def AboveIds (g : Graph) (bound : Int) : Prop :=
  ∀ id v, g.has id → decimalValue? id = some v → (v : Int) < bound

/-- Where the next id is found, bounds of the ids are just the numbers above all that they
denote. -/
theorem idsBelow_iff_aboveIds {n : Int} (hn : g.nextId floor = .ok n) :
    g.IdsBelow bound ↔ g.AboveIds bound := by
  have hread := (idsBelow_nextId hn).2
  constructor
  · intro h id v hid hv
    obtain ⟨i, hi, hlt⟩ := h id hid (Numeral.isDigits_of_decimalValue? hv)
    obtain ⟨v', hv', rfl⟩ :=
      Numeral.decimalValue?_of_integerOfText (Numeral.isDigits_of_decimalValue? hv) hi
    rwa [← Option.some.inj (hv'.symm.trans hv)]
  · intro h id hid hdigits
    obtain ⟨i, hi, -⟩ := hread id hid hdigits
    obtain ⟨v, hv, rfl⟩ := Numeral.decimalValue?_of_integerOfText hdigits hi
    exact ⟨v, hi, h id v hid hv⟩

theorem isLeast_nextId {n : Int} (hn : g.nextId floor = .ok n) :
    IsLeast {bound | floor ≤ bound ∧ g.AboveIds bound} n := by
  obtain ⟨hfloor, hbelow⟩ := idsBelow_nextId hn
  refine ⟨⟨hfloor, (idsBelow_iff_aboveIds hn).1 hbelow⟩, ?_⟩
  rintro bound ⟨hle, habove⟩
  obtain ⟨first, hfirst, hlow⟩ := nextId_le_of_idsBelow ((idsBelow_iff_aboveIds hn).2 habove) hle
  rw [hn] at hfirst
  rwa [Except.ok.inj hfirst]

/-! ## Failures of a chain -/

/-- An id that a row needs from a number on has too many digits. -/
def Unwritable (number : Int) (chain : Chain) : Prop :=
  ∃ i < chain.length, Numeral.unwritable ≤ (number + (i : Int)).natAbs

theorem unwritable_cons_iff {s : Selection} {rest : Chain} :
    Unwritable number (s :: rest) ↔
      Numeral.unwritable ≤ number.natAbs ∨ Unwritable (number + 1) rest := by
  constructor
  · rintro ⟨i, hi, hle⟩
    cases i with
    | zero => exact Or.inl (by simpa using hle)
    | succ i =>
      refine Or.inr ⟨i, by simpa using hi, ?_⟩
      rwa [show number + 1 + (i : Int) = number + ((i + 1 : Nat) : Int) by omega]
  · rintro (hle | ⟨i, hi, hle⟩)
    · exact ⟨0, by simp, by simpa using hle⟩
    · refine ⟨i + 1, by simpa using hi, ?_⟩
      rwa [show number + ((i + 1 : Nat) : Int) = number + 1 + (i : Int) by omega]

theorem appendChain_eq_error_iff :
    g.appendChain cfg chain source number = .error e ↔ e = idTooLong ∧ Unwritable number chain := by
  -- along the chain: each selection takes the next number
  induction chain generalizing g source number with
  | nil => simp [appendChain, Unwritable]
  | cons s rest ih =>
    rw [appendChain, unwritable_cons_iff, textOfInteger_eq]
    by_cases hfit : number.natAbs < Numeral.unwritable
    · rw [if_pos hfit, or_iff_right (Nat.not_le.2 hfit)]
      exact ih
    · rw [if_neg hfit]
      simp only [bind, Except.bind, Except.error.injEq, Nat.not_lt.1 hfit, true_or, and_true]
      exact eq_comm

/-- The ids for a chain run out: the next one is not found, or the row needs one with too many
digits. -/
def RunsOut (cfg : CompilerSettings) (g : Graph) (chain : Chain) (e : Fault) : Prop :=
  g.nextId cfg.injectedIdFloor = .error e ∨
    ∃ first, g.nextId cfg.injectedIdFloor = .ok first ∧ e = idTooLong ∧ Unwritable first chain

theorem splice_eq_error_iff :
    g.splice cfg chain source targets = .error e ↔ g.RunsOut cfg chain e := by
  rw [splice, RunsOut]
  cases hfirst : g.nextId cfg.injectedIdFloor with
  | error e' => simp [bind, Except.bind]
  | ok first =>
    have hrow : g.appendChain cfg chain source first = .error e ↔
        e = idTooLong ∧ Unwritable first chain := appendChain_eq_error_iff
    cases hrun : g.appendChain cfg chain source first with
    | error e' =>
      rw [hrun] at hrow
      simpa [bind, Except.bind, hrun] using hrow
    | ok r =>
      rw [hrun] at hrow
      simpa [bind, Except.bind, hrun, pure, Except.pure] using hrow

theorem spliceAt_eq_error_iff {site : Option Site} :
    g.spliceAt cfg chain site = .error e ↔ site.isSome ∧ g.RunsOut cfg chain e := by
  cases site with
  | none => simp [spliceAt]
  | some site =>
    obtain ⟨source, targets⟩ := site
    have hsplice : g.splice cfg chain source targets = .error e ↔ g.RunsOut cfg chain e :=
      splice_eq_error_iff
    rw [← hsplice, spliceAt]
    cases g.splice cfg chain source targets <;> simp [Except.map]

/-- An input is fed by the first output of a node. -/
def Consumed (g : Graph) (id : String) : Prop :=
  ∃ n ∈ g.nodeList, ∃ input, (input, (⟨id, 0⟩ : Link)) ∈ n.links

theorem consumers_ne_nil_iff : g.consumers source ≠ [] ↔ g.Consumed source := by
  constructor
  · intro hne
    obtain ⟨t, ht⟩ := List.exists_mem_of_ne_nil _ hne
    obtain ⟨n, hn, ht⟩ := List.mem_flatMap.1 ht
    obtain ⟨⟨input, l⟩, hl, -⟩ := List.mem_map.1 ht
    obtain ⟨hmem, hfed⟩ := List.mem_filter.1 hl
    obtain ⟨hsource, houtput⟩ : l.source = source ∧ l.output = 0 := by simpa using hfed
    exact ⟨n, hn, input, by rwa [← hsource, ← houtput]⟩
  · rintro ⟨n, hn, input, hl⟩
    have hkept : (input, (⟨source, 0⟩ : Link)) ∈
        n.links.filter fun l => l.2.source = source && l.2.output = 0 :=
      List.mem_filter.2 ⟨hl, by simp⟩
    exact List.ne_nil_of_mem (List.mem_flatMap.2 ⟨n, hn, List.mem_map.2 ⟨_, hkept, rfl⟩⟩)

theorem isSome_injectionSite?_iff :
    (g.injectionSite? cfg chain).isSome ↔
      chain ≠ [] ∧ ∃ p, g.IsModelSource cfg p ∧ g.Consumed p.id := by
  simp only [← modelSource?_eq_some_iff, ← consumers_ne_nil_iff]
  cases chain with
  | nil => simp [injectionSite?]
  | cons s rest =>
    cases hp : g.modelSource? cfg with
    | none => simp [injectionSite?, hp]
    | some p => simp [injectionSite?, hp]

theorem isSome_extendingSite?_iff {path : NoisePath} {c : Classifier} :
    (g.extendingSite? cfg chain path c).isSome ↔
      chain ≠ [] ∧ ∃ n ∈ g.nodeList, ∃ m, g.Samples cfg path c n m := by
  have hsite : (g.extensionSite? cfg path c).isSome ↔
      ∃ n ∈ g.nodeList, ∃ m, g.Samples cfg path c n m := by
    rw [← Option.ne_none_iff_isSome, Ne, extensionSite?_eq_none_iff]
    push Not
    rfl
  rw [← hsite]
  cases chain <;> simp [extendingSite?]

/-! ## Numbering -/

/-- How a workflow numbers new nodes. -/
structure NumbersIds (g : Graph) : Prop where
  /-- The next id is found just where every id of digits denotes a number and is not too long. -/
  found (floor : Int) : (∃ n, g.nextId floor = .ok n) ↔
    ∀ id, g.has id → Text.isDigits id → (decimalValue? id).isSome ∧ id.length ≤ digitLimit
  /-- It is the least number from the floor on that is above all that ids denote. -/
  least (floor n : Int) : g.nextId floor = .ok n →
    IsLeast {bound | floor ≤ bound ∧ g.AboveIds bound} n
  /-- Otherwise the first id that is refused is the failure. -/
  refused (floor : Int) (e : Fault) :
    g.nextId floor = .error e ↔ g.nodes.keys.findSome? refusal? = some e
  /-- A fresh chain fails just where it has a place and its ids run out. -/
  injections (cfg : CompilerSettings) (chain : Chain) (e : Fault) : g.inject cfg chain = .error e ↔
    (chain ≠ [] ∧ ∃ p, g.IsModelSource cfg p ∧ g.Consumed p.id) ∧ g.RunsOut cfg chain e
  /-- And so does an extension. -/
  extensions (cfg : CompilerSettings) (chain : Chain) (path : NoisePath) (c : Classifier)
    (e : Fault) : g.extend cfg chain path c = .error e ↔
      (chain ≠ [] ∧ ∃ n ∈ g.nodeList, ∃ m, g.Samples cfg path c n m) ∧ g.RunsOut cfg chain e

/-- **Numbering of new nodes**, whatever the ids of a workflow are. -/
theorem numbersIds (g : Graph) : g.NumbersIds where
  found _ := exists_nextId_iff
  least _ _ := isLeast_nextId
  refused _ _ := nextId_eq_error_iff
  injections cfg chain e := by
    rw [inject_eq_spliceAt, spliceAt_eq_error_iff, isSome_injectionSite?_iff]
  extensions cfg chain path c e := by
    rw [extend_eq_spliceAt, spliceAt_eq_error_iff, isSome_extendingSite?_iff]

/-- A loader that feeds a sampler, and a third node under a given id. -/
def fedSampler (id : String) : Graph where
  nodes := .ofList [("1", { id := "1", classType := "UNETLoader" }),
    ("2", { id := "2", classType := "KSampler", inputs := .ofList [("model", .connection "1" 0)] }),
    (id, { id := id, classType := "A" })]

-- the digits of any script count
example : (fedSampler "٠٤２").nextId 0 = .ok 43 := by rfl

/-- **An id that denotes no number is not passed over**: a superscript is a digit that is not
decimal. The least number above the other two ids is there, but it is not found, and a chain
cannot be put in. -/
theorem not_numbered_superscript :
    decimalValue? "²" = none ∧
      IsLeast {bound | 0 ≤ bound ∧ (fedSampler "²").AboveIds bound} 3 ∧
      (fedSampler "²").nextId 0 = .error (.badValue (.notInteger "²")) ∧
      (fedSampler "²").inject {} [lightModifier] = .error (.badValue (.notInteger "²")) := by
  have hvalues : ∀ id ∈ (fedSampler "²").nodes.keys, ∀ v ∈ decimalValue? id, (v : Int) < 3 := by
    decide +kernel
  refine ⟨by decide +kernel, ⟨⟨by omega, ?_⟩, ?_⟩, by rfl, by rfl⟩
  · intro id v hid hv
    exact hvalues id (has_iff_mem_keys.1 hid) v hv
  · rintro bound ⟨-, habove⟩
    have htwo : ((2 : Nat) : Int) < bound :=
      habove "2" 2 (by decide +kernel) (by decide +kernel)
    omega

end Graph

end NodeFlow
