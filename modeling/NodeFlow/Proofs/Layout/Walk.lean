import Mathlib.Logic.Relation
import NodeFlow.Layout.Import
/-!
# Walks along links

The search for the output that a link starts at remembers the links that it
followed, so that it does not follow one twice. A walk that does not remember
them finds the same (`sourceOf_eq_walk`): whoever comes to a link again has
gone round in a circle, and a circle has no end. A walk is a sequence of
steps, each of them decided by a single link, and the number of steps is
limited either way.
-/

namespace NodeFlow.Layout

variable {l : Layout} {link next : Int}

/-! ## Steps -/

/-- The link that a reroute passes on, by its slots. -/
def passedLink? (slots : List Slot) : Option Int := slots.head?.bind Slot.link

/-- What a link leads to: an end of the walk, or a further link. -/
inductive Step where
  | ends (wire : Option Wire)
  | goes (next : Int)

/-- A walk behind a step: at its end, or on from the further link. -/
def Step.andThen : Step → (Int → Except Fault (Option Wire)) → Except Fault (Option Wire)
  | .ends wire, _ => .ok wire
  | .goes next, walk => walk next

/-- What a link leads to through a reroute with the given slots. -/
def Step.through (slots : List Slot) : Step :=
  match passedLink? slots with
  | some next => .goes next
  | none => .ends none

/-- One step of a walk. -/
def step (l : Layout) (link : Int) : Except Fault Step :=
  match l.wires.get? (idText link) with
  | none => .ok (.ends none)
  | some wire =>
    match l.items.get? wire.source with
    | none => .ok (.ends none)
    | some item =>
      if item.isReroute then item.slots.map Step.through else .ok (.ends (some wire))

/-- A walk along links, at most a number of them, that does not remember them. -/
def walk (l : Layout) : Nat → Int → Except Fault (Option Wire)
  | 0, _ => .ok none
  | hops + 1, link => l.step link >>= fun s => s.andThen (l.walk hops)

/-- **The search takes one step after the other**, unless the link was followed before. -/
theorem follow_succ (l : Layout) (hops : Nat) (seen : List Int) (link : Int) :
    l.follow (hops + 1) seen link =
      if seen.contains link then .ok none
      else l.step link >>= fun s => s.andThen (l.follow hops (link :: seen)) := by
  rw [follow, step]
  cases l.wires.get? (idText link) with
  | none =>
    dsimp only
    split <;> rfl
  | some wire =>
    dsimp only
    by_cases hseen : seen.contains link
    · rw [if_pos hseen, if_pos hseen]
    rw [if_neg hseen, if_neg hseen]
    cases l.items.get? wire.source with
    | none => rfl
    | some item =>
      dsimp only
      by_cases hreroute : item.isReroute
      · rw [if_pos hreroute, if_pos hreroute]
        cases item.slots with
        | error e => rfl
        | ok slots =>
          show _ = (Step.through slots).andThen (l.follow hops (link :: seen))
          rw [Step.through, passedLink?]
          dsimp only
          cases slots.head?.bind Slot.link <;> rfl
      · rw [if_neg hreroute, if_neg hreroute]
        rfl

/-! ## Circles -/

/-- A link leads to another. -/
def Goes (l : Layout) (link next : Int) : Prop := l.step link = .ok (.goes next)

/-- A walk from a link comes into a circle. -/
def Circles (l : Layout) (link : Int) : Prop :=
  ∃ m, Relation.ReflTransGen l.Goes link m ∧ Relation.TransGen l.Goes m m

/-- On the way into a circle, and on the circle itself, there is always a next link. -/
theorem Circles.exists_goes (h : l.Circles link) : ∃ next, l.Goes link next ∧ l.Circles next := by
  obtain ⟨m, hto, hround⟩ := h
  rcases hto.cases_head with rfl | ⟨next, hnext, hto⟩
  · obtain ⟨next, hnext, hback⟩ := Relation.TransGen.head'_iff.1 hround
    exact ⟨next, hnext, link, hback, hround⟩
  · exact ⟨next, hnext, m, hto, hround⟩

/-- **A circle has no end**, however many links are followed. -/
theorem walk_of_circles (h : l.Circles link) (hops : Nat) : l.walk hops link = .ok none := by
  induction hops generalizing link with
  | zero => rfl
  | succ hops ih =>
    obtain ⟨next, hnext, hcircles⟩ := h.exists_goes
    rw [walk, show l.step link = .ok (.goes next) from hnext]
    exact ih hcircles

/-- Each link that was followed leads to the link at hand, so one that was followed before is on a
circle. -/
theorem follow_eq_walk {seen : List Int} (h : ∀ m ∈ seen, Relation.TransGen l.Goes m link)
    (hops : Nat) : l.follow hops seen link = l.walk hops link := by
  induction hops generalizing seen link with
  | zero => rfl
  | succ hops ih =>
    rw [follow_succ]
    by_cases hseen : seen.contains link
    · rw [if_pos hseen]
      exact (walk_of_circles ⟨link, .refl, h link (List.contains_iff_mem.1 hseen)⟩ _).symm
    · rw [if_neg hseen, walk]
      cases hstep : l.step link with
      | error e => rfl
      | ok s =>
        cases s with
        | ends wire => rfl
        | goes next =>
          refine ih fun m hm => ?_
          rcases List.mem_cons.1 hm with rfl | hm
          · exact .single hstep
          · exact (h m hm).tail hstep

/-- **Remembering links loses nothing.** -/
theorem sourceOf_eq_walk (l : Layout) (link : Int) : l.sourceOf link = l.walk maxHops link :=
  follow_eq_walk (by simp) maxHops

end NodeFlow.Layout
