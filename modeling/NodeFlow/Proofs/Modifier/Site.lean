import NodeFlow.Modifier.Splice
/-!
# Where a chain goes in

Putting a fresh chain behind the model source and extending one on a noise
path are one operation at two places. A place is a node together with the
inputs that are wired to the end of the chain; there is none where there is
nothing to do.
-/

namespace NodeFlow.Graph

variable {cfg : CompilerSettings} {g : Graph} {chain : Chain}

/-- The node that a chain is appended to, and the inputs that its end feeds. -/
abbrev Site := String × List (String × String)

/-- Puts a chain in at a place, if there is one. -/
def spliceAt (cfg : CompilerSettings) (g : Graph) (chain : Chain) :
    Option Site → Except Fault (Option Graph)
  | none => .ok none
  | some (source, targets) => (g.splice cfg chain source targets).map some

/-- The place of a fresh chain: the model source and the inputs that its first output feeds. -/
def injectionSite? (cfg : CompilerSettings) (g : Graph) (chain : Chain) : Option Site :=
  if chain.isEmpty then none
  else
    (g.modelSource? cfg).bind fun n =>
      if (g.consumers n.id).isEmpty then none else some (n.id, g.consumers n.id)

/-- The place of an extension: the modifier that feeds a model-sampling node, and its input. -/
def extendingSite? (cfg : CompilerSettings) (g : Graph) (chain : Chain) (path : NoisePath)
    (c : Classifier) : Option Site :=
  if chain.isEmpty then none
  else (g.extensionSite? cfg path c).map fun s => (s.2.id, [(s.1.id, "model")])

theorem inject_eq_spliceAt (cfg : CompilerSettings) (g : Graph) (chain : Chain) :
    g.inject cfg chain = g.spliceAt cfg chain (g.injectionSite? cfg chain) := by
  rw [inject, injectionSite?]
  by_cases hempty : chain.isEmpty
  · rw [if_pos hempty, if_pos hempty, spliceAt]
  rw [if_neg hempty, if_neg hempty]
  cases g.modelSource? cfg with
  | none => rfl
  | some n =>
    rw [Option.bind_some]
    dsimp only
    by_cases hunused : (g.consumers n.id).isEmpty
    · rw [if_pos hunused, if_pos hunused, spliceAt]
    · rw [if_neg hunused, if_neg hunused, spliceAt]

theorem extend_eq_spliceAt (cfg : CompilerSettings) (g : Graph) (chain : Chain) (path : NoisePath)
    (c : Classifier) :
    g.extend cfg chain path c = g.spliceAt cfg chain (g.extendingSite? cfg chain path c) := by
  rw [extend, extendingSite?]
  by_cases hempty : chain.isEmpty
  · rw [if_pos hempty, if_pos hempty, spliceAt]
  rw [if_neg hempty, if_neg hempty]
  cases g.extensionSite? cfg path c <;> rfl

end NodeFlow.Graph
