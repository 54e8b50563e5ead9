import NodeFlow.Proofs.Bypass.Simulation
/-!
# Hops through bypassed nodes

Where a walk through bypassed nodes ends, said without the walk. A hop goes
from a bypassed node on to the link of the first of its connected inputs
whose name tells a fitting type; `Leads` counts the hops from a link to
another. A walk reaches a link exactly where fewer hops than it has steps
lead there and the link starts at a live node (`walk_eq_reached_iff`), so the
hop limit is the number of hops and not one more or less.
-/

namespace NodeFlow

open Bypass

/-- The name of an input tells a type that agrees with the one that is wanted. -/
def NameFits (type input : String) : Prop :=
  ∃ told, typeOfName? input = some told ∧ isCompatible (some told) (some type) = true

namespace Graph

variable {g : Graph} {limit : Int} {id input type : String} {l l' next : Link} {hops steps : Nat}

/-- **One hop** from a link that starts at a bypassed node, to the link of the first connected input
of this node that fits. -/
def Hop (g : Graph) (type : String) (l next : Link) : Prop :=
  ∃ n before input after, g.node? l.source = some n ∧ n.isBypassed = true ∧
    n.links = before ++ (input, next) :: after ∧ NameFits type input ∧
    ∀ e ∈ before, ¬ NameFits type e.1

/-- A number of hops leads from one link to another. -/
inductive Leads (g : Graph) (type : String) : Nat → Link → Link → Prop
  /-- No hop leads anywhere else. -/
  | here (l : Link) : Leads g type 0 l l
  /-- A hop comes before the others. -/
  | hop {hops : Nat} {l next l' : Link} : g.Hop type l next → Leads g type hops next l' →
      Leads g type (hops + 1) l l'

/-- A link starts at a node that is there and is not bypassed. -/
def IsLive (g : Graph) (l : Link) : Prop :=
  g.has l.source ∧ g.isBypassedAt l.source = false

/-! ## One hop -/

/-- The test that the walk makes on the name of an input. -/
theorem nameFits_iff :
    (match typeOfName? input with
      | some told => isCompatible (some told) (some type)
      | none => false) = true ↔ NameFits type input := by
  rw [NameFits]
  cases typeOfName? input with
  | none => simp
  | some told => simp

/-- **What a bypassed node passes on is a hop.** -/
theorem hop_iff :
    g.Hop type l next ↔ g.isBypassedAt l.source = true ∧ g.passedOn? l.source type = some next := by
  rw [Hop, passedOn?, Option.bind_eq_some_iff]
  constructor
  · rintro ⟨n, before, input, after, hn, hby, hlinks, hfits, hbefore⟩
    refine ⟨by rw [isBypassedAt_of_node? hn, hby], n, hn, Option.map_eq_some_iff.2 ?_⟩
    refine ⟨(input, next), List.find?_eq_some_iff_append.2 ?_, rfl⟩
    refine ⟨nameFits_iff.2 hfits, before, after, hlinks, fun e he => ?_⟩
    rw [Bool.not_eq_true', ← Bool.not_eq_true]
    exact fun hfit => hbefore e he (nameFits_iff.1 hfit)
  · rintro ⟨hby, n, hn, hfound⟩
    obtain ⟨⟨input, l₀⟩, hfind, rfl⟩ := Option.map_eq_some_iff.1 hfound
    obtain ⟨hfits, before, after, hlinks, hbefore⟩ := List.find?_eq_some_iff_append.1 hfind
    rw [isBypassedAt_of_node? hn] at hby
    refine ⟨n, before, input, after, hn, hby, hlinks, nameFits_iff.1 hfits, fun e he => ?_⟩
    have hnot := hbefore e he
    rw [Bool.not_eq_true', ← Bool.not_eq_true] at hnot
    exact fun hfit => hnot (nameFits_iff.2 hfit)

/-- A hop goes on in one way only. -/
theorem Hop.unique {next' : Link} (h : g.Hop type l next) (h' : g.Hop type l next') :
    next = next' :=
  Option.some.inj ((hop_iff.1 h).2.symm.trans (hop_iff.1 h').2)

/-- No hop leaves a live node. -/
theorem Leads.eq_of_live (h : g.Leads type hops l l') (hlive : g.isBypassedAt l.source = false) :
    hops = 0 ∧ l = l' := by
  cases h with
  | here => exact ⟨rfl, rfl⟩
  | hop hhop _ =>
    have hby := (hop_iff.1 hhop).1
    rw [hlive] at hby
    cases hby

/-! ## Walks -/

/-- **A walk ends at the link that the hops lead to**, if they are fewer than its steps: the link it
ends at takes a step as well. -/
theorem walk_eq_reached_iff :
    g.walk type steps l = .reached l' ↔ ∃ hops < steps, g.Leads type hops l l' ∧ g.IsLive l' := by
  -- on the steps that are left; each is spent on one hop, and the last on the live node
  induction steps generalizing l with
  | zero => simp [walk]
  | succ steps ih =>
    rw [walk]
    by_cases hby : g.isBypassedAt l.source = true
    · have hstay : ¬ (l = l' ∧ g.IsLive l') := by
        rintro ⟨rfl, -, hlive⟩
        rw [hby] at hlive
        cases hlive
      rw [if_pos hby]
      cases hnext : g.passedOn? l.source type with
      | none =>
        constructor
        · intro h
          cases h
        · rintro ⟨hops, -, hleads, hlive⟩
          cases hleads with
          | here => exact absurd ⟨rfl, hlive⟩ hstay
          | hop hhop _ =>
            cases hnext.symm.trans (hop_iff.1 hhop).2
      | some next =>
        have hhop : g.Hop type l next := hop_iff.2 ⟨hby, hnext⟩
        refine ih.trans ⟨?_, ?_⟩
        · rintro ⟨hops, hlt, hleads, hlive⟩
          exact ⟨hops + 1, by omega, .hop hhop hleads, hlive⟩
        · rintro ⟨hops, hlt, hleads, hlive⟩
          cases hleads with
          | here => exact absurd ⟨rfl, hlive⟩ hstay
          | hop hhop' hrest =>
            obtain rfl := hhop.unique hhop'
            exact ⟨_, by omega, hrest, hlive⟩
    · have hnot : g.isBypassedAt l.source = false := by simpa using hby
      rw [if_neg hby]
      constructor
      · intro h
        split at h
        · rename_i hhas
          obtain rfl : l = l' := WalkEnd.reached.inj h
          exact ⟨0, by omega, .here l, hhas, hnot⟩
        · cases h
      · rintro ⟨hops, -, hleads, hhas, -⟩
        obtain ⟨-, rfl⟩ := hleads.eq_of_live hnot
        rw [if_pos hhas]

/-! ## Inputs -/

/-- **Where an input that a bypassed node feeds is wired to**: its name tells a type, and within the
limit, hops of that type lead from its link to one that starts at a live node. -/
def RewiresTo (g : Graph) (limit : Int) (input : String) (l l' : Link) : Prop :=
  ∃ type, typeOfName? input = some type ∧
    ∃ hops : Nat, (hops : Int) ≤ limit ∧ g.Leads type hops l l' ∧ g.IsLive l'

theorem link?_resolution_eq_some_iff :
    (g.resolution limit input l).link? = some l' ↔ g.RewiresTo limit input l l' := by
  rw [Resolution.link?_eq, RewiresTo, Option.bind_eq_some_iff]
  refine exists_congr fun type => and_congr_right fun _ => ?_
  have hwalk : (g.walk type (limit + 1).toNat l).link? = some l' ↔
      g.walk type (limit + 1).toNat l = .reached l' := by
    cases g.walk type (limit + 1).toNat l <;> simp [WalkEnd.link?]
  rw [hwalk, walk_eq_reached_iff]
  refine exists_congr fun hops => and_congr_left fun _ => ?_
  omega

end Graph

end NodeFlow
