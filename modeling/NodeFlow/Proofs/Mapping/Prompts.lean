import Mathlib.Data.List.Infix
import Mathlib.Data.List.Pairwise
import NodeFlow.Proofs.Mapping.Candidates
/-!
# Encoders and the prompts they are offered for

An encoder that was traced is a candidate for what its trace tells, any other
one for what its title tells, or for both prompts where it tells nothing; so
none is lost. The candidates for a prompt begin with those that were traced.
Each of them is put in front of the ones before it, so they come in the
opposite order of their nodes; the others come in the order of theirs.
-/

namespace NodeFlow

variable {g : Graph} {schema : Schema} {p : Polarity} {n : Node} {a b : Candidate}

/-! ## Words in titles -/

namespace Text

theorem occurs_iff {part whole : List Char} : occurs part whole ↔ part <:+: whole := by
  induction whole with
  | nil => simp [occurs]
  | cons c rest ih =>
    rw [occurs, Bool.or_eq_true, List.isPrefixOf_iff_prefix, ih, List.infix_cons_iff]

/-- A text occurs within another as a run of its characters. -/
theorem occursIn_iff {part whole : String} : occursIn part whole ↔ part.toList <:+: whole.toList :=
  occurs_iff

end Text

/-- Whether the title of a node has the name of a polarity in it, whatever the case of its
letters. -/
def Node.Mentions (n : Node) (p : Polarity) : Prop :=
  p.name.toList <:+: (Text.lower n.displayTitle).toList

/-- A title tells nothing where it has neither name in it. -/
theorem titlePolarity?_eq_none_iff :
    titlePolarity? n.displayTitle = none ↔ ∀ p, ¬ n.Mentions p := by
  have hboth : (∀ p, ¬ n.Mentions p) ↔ ¬ n.Mentions .positive ∧ ¬ n.Mentions .negative :=
    ⟨fun h => ⟨h .positive, h .negative⟩, fun h p => by cases p; exacts [h.1, h.2]⟩
  rw [hboth, Node.Mentions, Node.Mentions, ← Text.occursIn_iff, ← Text.occursIn_iff, titlePolarity?]
  dsimp only [Polarity.name]
  by_cases hpositive : Text.occursIn "positive" (Text.lower n.displayTitle)
  · simp [hpositive]
  · by_cases hnegative : Text.occursIn "negative" (Text.lower n.displayTitle) <;>
      simp [hpositive, hnegative]

/-! ## No encoder is lost -/

/-- A node that has an input for the text of a prompt. -/
def Node.HoldsPrompt (n : Node) : Prop := ∃ input ∈ promptInputs, n.hasInput input

namespace Graph

theorem exists_mem_encoders (schema : Schema) (hn : n ∈ g.nodeList) (h : n.HoldsPrompt) :
    ∃ input, (n, input) ∈ g.encoders schema := by
  obtain ⟨input, hfind⟩ : ∃ input, promptInputs.find? n.hasInput = some input :=
    Option.isSome_iff_exists.1 (List.find?_isSome.2 h)
  have hnamed : (n, input) ∈ g.namedEncoders := List.mem_filterMap.2 ⟨n, hn, by rw [hfind]; rfl⟩
  refine ⟨input, ?_⟩
  rw [encoders, if_neg fun hempty => List.ne_nil_of_mem hnamed (List.isEmpty_iff.1 hempty)]
  exact hnamed

/-- What an encoder without a trace is offered for. -/
theorem isUntracedFor_iff :
    g.isUntracedFor p n ↔
      g.trace n.id = none ∧ ∀ q, titlePolarity? n.displayTitle = some q → q = p := by
  rw [isUntracedFor]
  cases titlePolarity? n.displayTitle <;> simp

theorem mem_promptCandidates_iff :
    a ∈ g.promptCandidates schema p ↔ ∃ e ∈ g.encoders schema,
      (g.trace e.1.id = some p ∨ g.isUntracedFor p e.1) ∧ a = .ofInput e.1 e.2 := by
  simp only [promptCandidates, List.mem_map, List.mem_append, List.mem_reverse, List.mem_filter,
    decide_eq_true_eq]
  grind

/-- The polarity that a node is told by: that of its trace, else that of its title. -/
def told? (g : Graph) (n : Node) : Option Polarity :=
  (g.trace n.id).or (titlePolarity? n.displayTitle)

/-- The node under an id is a candidate for a prompt. -/
def Offers (g : Graph) (schema : Schema) (p : Polarity) (id : String) : Prop :=
  ∃ a ∈ g.promptCandidates schema p, a.node = id

/-- An encoder is offered for what it is told by, or for both prompts. -/
theorem offers_iff (hk : g.WellKeyed) (hn : n ∈ g.nodeList) (h : n.HoldsPrompt) :
    g.Offers schema p n.id ↔ ∀ q, g.told? n = some q → q = p := by
  have hoffered : (g.trace n.id = some p ∨ g.isUntracedFor p n) ↔
      ∀ q, g.told? n = some q → q = p := by
    rw [isUntracedFor_iff, told?]
    cases g.trace n.id <;> simp
  simp only [Offers, mem_promptCandidates_iff, ← hoffered]
  constructor
  · rintro ⟨_, ⟨e, he, hoffered, rfl⟩, hid⟩
    -- an encoder under the same id is the same node
    have hsame : e.1 = n := by
      have hfound := hk.node?_id (mem_encoders he).1
      rw [show e.1.id = n.id from hid, hk.node?_id hn] at hfound
      exact (Option.some.inj hfound).symm
    rwa [hsame] at hoffered
  · intro hoffered
    obtain ⟨input, hinput⟩ := exists_mem_encoders schema hn h
    exact ⟨_, ⟨(n, input), hinput, hoffered, rfl⟩, rfl⟩

/-- What a node with the text of a prompt is a candidate for. -/
structure OffersPrompt (g : Graph) (schema : Schema) (n : Node) : Prop where
  /-- It is for one of the prompts. -/
  offered : ∃ p, g.Offers schema p n.id
  /-- It is for both exactly where neither its trace nor its title tells a polarity. -/
  both_iff : (∀ p, g.Offers schema p n.id) ↔ g.trace n.id = none ∧ ∀ p, ¬ n.Mentions p
  /-- It is for no other one than its trace tells. -/
  traced : ∀ p q, g.trace n.id = some p → g.Offers schema q n.id → q = p

/-- **No encoder is lost**, and none is offered against its trace. -/
theorem offersPrompt (hk : g.WellKeyed) (schema : Schema) (hn : n ∈ g.nodeList)
    (h : n.HoldsPrompt) : g.OffersPrompt schema n := by
  have hiff : ∀ p, g.Offers schema p n.id ↔ ∀ q, g.told? n = some q → q = p :=
    fun p => offers_iff hk hn h
  constructor
  case offered =>
    cases htold : g.told? n with
    | some p => exact ⟨p, (hiff p).2 fun q hq => Option.some.inj (hq.symm.trans htold)⟩
    | none => exact ⟨.positive, (hiff .positive).2 (by simp [htold])⟩
  case both_iff =>
    rw [← titlePolarity?_eq_none_iff, ← Option.or_eq_none_iff]
    constructor
    · -- what is told would be both polarities
      intro hboth
      refine Option.eq_none_iff_forall_ne_some.2 fun q hq => ?_
      have hpositive := (hiff .positive).1 (hboth .positive) q hq
      have hnegative := (hiff .negative).1 (hboth .negative) q hq
      cases hpositive.symm.trans hnegative
    · intro hnone p
      exact (hiff p).2 fun q hq => absurd (hnone.symm.trans hq) (by simp)
  case traced =>
    intro p q htrace hoffers
    have htold : g.told? n = some p := by rw [told?, htrace, Option.some_or]
    exact ((hiff q).1 hoffers p htold).symm

/-! ## The order of candidates -/

/-- The position of the node under an id. -/
def position (g : Graph) (id : String) : Nat := g.nodes.keys.idxOf id

/-- Candidates in the order of their nodes; those of one node in any order. -/
def FollowsNodes (g : Graph) (as : List Candidate) : Prop :=
  as.Pairwise fun a b => g.position a.node ≤ g.position b.node

instance (g : Graph) (as : List Candidate) : Decidable (g.FollowsNodes as) :=
  inferInstanceAs (Decidable (as.Pairwise _))

theorem pairwise_position (hk : g.WellKeyed) :
    g.nodeList.Pairwise fun m n => g.position m.id < g.position n.id := by
  have hkeys : g.nodes.keys.Pairwise fun i j => g.position i < g.position j := by
    rw [List.pairwise_iff_getElem]
    intro i j hi hj hlt
    have hnodup : g.nodes.keys.Nodup := g.nodes.nodup
    rwa [position, position, hnodup.idxOf_getElem i hi, hnodup.idxOf_getElem j hj]
  rwa [← map_id_nodeList hk, List.pairwise_map] at hkeys

/-- Encoders come in the order of their nodes, whether names or types show them. -/
theorem pairwise_encoders (hk : g.WellKeyed) (schema : Schema) :
    (g.encoders schema).Pairwise fun e f => g.position e.1.id ≤ g.position f.1.id := by
  rw [encoders]
  split
  · refine List.pairwise_flatMap.2 ⟨fun n _ => ?_, ?_⟩
    · exact List.pairwise_map.2 (List.pairwise_of_forall fun _ _ => Nat.le_refl _)
    · refine ((pairwise_position hk).filter _).imp fun hlt e he f hf => ?_
      obtain ⟨_, -, rfl⟩ := List.mem_map.1 he
      obtain ⟨_, -, rfl⟩ := List.mem_map.1 hf
      exact Nat.le_of_lt hlt
  · refine List.pairwise_filterMap.2 ((pairwise_position hk).imp fun hlt e he f hf => ?_)
    obtain ⟨_, -, rfl⟩ := Option.map_eq_some_iff.1 he
    obtain ⟨_, -, rfl⟩ := Option.map_eq_some_iff.1 hf
    exact Nat.le_of_lt hlt

theorem followsNodes_of_encoders (hk : g.WellKeyed) (schema : Schema) (f : Node × String → Bool) :
    g.FollowsNodes (((g.encoders schema).filter f).map fun e => .ofInput e.1 e.2) :=
  List.pairwise_map.2 ((pairwise_encoders hk schema).filter f)

end Graph

/-- The field of a prompt. -/
def Polarity.field : Polarity → String
  | .positive => "positive_text"
  | .negative => "negative_text"

namespace Graph

theorem candidates_field (g : Graph) (schema : Schema) (p : Polarity) :
    g.candidates schema p.field = g.promptCandidates schema p := by
  cases p <;> rfl

/-- The candidates for a prompt in two parts: those that were traced, and those that were told by
their titles or by nothing, both in the order of their nodes. -/
structure PromptParts (g : Graph) (p : Polarity) (front back : List Candidate) : Prop where
  traced : ∀ a ∈ front, g.trace a.node = some p
  untraced : ∀ a ∈ back, g.trace a.node = none ∧ ∀ q, titlePolarity? a.title = some q → q = p
  front_follows : g.FollowsNodes front
  back_follows : g.FollowsNodes back

/-- The candidates for a prompt come in the order of the workflow, part by part. -/
def PromptsInOrder (g : Graph) (schema : Schema) (p : Polarity) : Prop :=
  ∃ front back, g.PromptParts p front back ∧ g.candidates schema p.field = front ++ back

/-- There are the two parts, but the first one stands backwards. -/
theorem exists_promptParts (hk : g.WellKeyed) (schema : Schema) (p : Polarity) :
    ∃ front back, g.PromptParts p front back ∧
      g.candidates schema p.field = front.reverse ++ back := by
  refine ⟨((g.encoders schema).filter fun e => g.trace e.1.id = some p).map fun e =>
      .ofInput e.1 e.2, ((g.encoders schema).filter fun e => g.isUntracedFor p e.1).map fun e =>
      .ofInput e.1 e.2, ?_, ?_⟩
  · constructor
    case traced =>
      intro a ha
      obtain ⟨e, he, rfl⟩ := List.mem_map.1 ha
      exact of_decide_eq_true (List.mem_filter.1 he).2
    case untraced =>
      intro a ha
      obtain ⟨e, he, rfl⟩ := List.mem_map.1 ha
      exact isUntracedFor_iff.1 (List.mem_filter.1 he).2
    case front_follows => exact followsNodes_of_encoders hk schema _
    case back_follows => exact followsNodes_of_encoders hk schema _
  · rw [candidates_field, promptCandidates, List.map_append, List.map_reverse]

/-- What was traced is the same in any two parts of a list. -/
theorem filter_traced {as bs : List Candidate} (has : ∀ a ∈ as, g.trace a.node = some p)
    (hbs : ∀ b ∈ bs, g.trace b.node = none) :
    (as ++ bs).filter (fun a => g.trace a.node = some p) = as := by
  have hkept : as.filter (fun a => g.trace a.node = some p) = as :=
    List.filter_eq_self.2 fun a ha => decide_eq_true (has a ha)
  have hdropped : bs.filter (fun a => g.trace a.node = some p) = [] :=
    List.filter_eq_nil_iff.2 fun b hb => by simp [hbs b hb]
  rw [List.filter_append, hkept, hdropped, List.append_nil]

/-- Candidates that are in order both ways are of one node. -/
theorem node_eq_of_follows_reverse {as : List Candidate} (hin : ∀ a ∈ as, a.node ∈ g.nodes.keys)
    (hforth : g.FollowsNodes as) (hback : g.FollowsNodes as.reverse) (ha : a ∈ as) (hb : b ∈ as) :
    a.node = b.node := by
  have hlevel : as.Pairwise fun a b => g.position a.node = g.position b.node :=
    (hforth.and (List.pairwise_reverse.1 hback)).imp fun h => Nat.le_antisymm h.1 h.2
  have : Std.Symm fun a b : Candidate => g.position a.node = g.position b.node :=
    ⟨fun _ _ h => h.symm⟩
  have hrefl : ∀ a ∈ as, g.position a.node = g.position a.node := fun _ _ => rfl
  exact (List.idxOf_inj (hin a ha)).1 (List.Pairwise.forall_of_forall hrefl hlevel ha hb)

theorem node_mem_keys_of_mem_candidates {key : String} (hk : g.WellKeyed)
    (h : a ∈ g.candidates schema key) : a.node ∈ g.nodes.keys := by
  obtain ⟨n, hn, input, -, rfl⟩ := isIn_of_mem_candidates h
  rw [← map_id_nodeList hk]
  exact List.mem_map_of_mem hn

/-- The candidates for a prompt are in order exactly where all that were traced are of one node. -/
theorem promptsInOrder_iff (hk : g.WellKeyed) (schema : Schema) (p : Polarity) :
    g.PromptsInOrder schema p ↔
      ∀ a ∈ g.candidates schema p.field, ∀ b ∈ g.candidates schema p.field,
        g.trace a.node = some p → g.trace b.node = some p → a.node = b.node := by
  obtain ⟨front, back, hparts, hlist⟩ := exists_promptParts hk schema p
  have hbackwards : ∀ a ∈ front.reverse, g.trace a.node = some p :=
    fun a ha => hparts.traced a (List.mem_reverse.1 ha)
  have hfilter : (g.candidates schema p.field).filter (fun a => g.trace a.node = some p) =
      front.reverse := by
    rw [hlist]
    exact filter_traced hbackwards fun b hb => (hparts.untraced b hb).1
  have hfront : ∀ a, a ∈ front ↔ a ∈ g.candidates schema p.field ∧ g.trace a.node = some p := by
    intro a
    rw [← List.mem_reverse, ← hfilter, List.mem_filter, decide_eq_true_eq]
  constructor
  · rintro ⟨front', back', hparts', hlist'⟩ a ha b hb hatrace hbtrace
    have hsame : front' = front.reverse := by
      rw [← hfilter, hlist']
      exact (filter_traced hparts'.traced fun b hb => (hparts'.untraced b hb).1).symm
    have hin : ∀ a ∈ front, a.node ∈ g.nodes.keys :=
      fun a ha => node_mem_keys_of_mem_candidates hk ((hfront a).1 ha).1
    exact node_eq_of_follows_reverse hin hparts.front_follows (hsame ▸ hparts'.front_follows)
      ((hfront a).2 ⟨ha, hatrace⟩) ((hfront b).2 ⟨hb, hbtrace⟩)
  · intro hone
    refine ⟨front.reverse, back, ⟨hbackwards, hparts.untraced, ?_, hparts.back_follows⟩, hlist⟩
    refine List.pairwise_reverse.2 (List.pairwise_of_forall_mem_list fun a ha b hb => ?_)
    obtain ⟨ha, hatrace⟩ := (hfront a).1 ha
    obtain ⟨hb, hbtrace⟩ := (hfront b).1 hb
    rw [hone a ha b hb hatrace hbtrace]

/-- The order of the candidates for a prompt. -/
structure OrdersPrompts (g : Graph) (schema : Schema) (p : Polarity) : Prop where
  /-- Those that were traced come first, the last node of them in front; the others follow in the
  order of their nodes. -/
  parts : ∃ front back, g.PromptParts p front back ∧
    g.candidates schema p.field = front.reverse ++ back
  /-- So the order is that of the workflow only where all that were traced are of one node. -/
  in_order_iff : g.PromptsInOrder schema p ↔
    ∀ a ∈ g.candidates schema p.field, ∀ b ∈ g.candidates schema p.field,
      g.trace a.node = some p → g.trace b.node = some p → a.node = b.node

/-- **Candidates that were traced come backwards**, before all others. -/
theorem ordersPrompts (hk : g.WellKeyed) (schema : Schema) (p : Polarity) :
    g.OrdersPrompts schema p :=
  ⟨exists_promptParts hk schema p, promptsInOrder_iff hk schema p⟩

/-- Two encoders, each of which feeds the positive prompt of a sampler. -/
def twoPasses : Graph where
  nodes := .ofList [
    ("1", { id := "1", classType := "CLIPTextEncode"
            inputs := .ofList [("text", .literal (.str "a fox"))] }),
    ("2", { id := "2", classType := "CLIPTextEncode"
            inputs := .ofList [("text", .literal (.str "a hare"))] }),
    ("3", { id := "3", classType := "KSampler"
            inputs := .ofList [("positive", .connection "1" 0)] }),
    ("4", { id := "4", classType := "KSampler"
            inputs := .ofList [("positive", .connection "2" 0)] })]
  wrapped := false

/-- The hypothesis of `ordersPrompts` is met, and both encoders are traced. -/
theorem twoPasses_ordersPrompts :
    twoPasses.WellKeyed ∧ twoPasses.OrdersPrompts .empty .positive ∧
      (twoPasses.candidates .empty "positive_text").map Candidate.node = ["2", "1"] ∧
      twoPasses.candidates .empty "negative_text" = [] := by
  have hk : twoPasses.WellKeyed := by decide +kernel
  exact ⟨hk, ordersPrompts hk .empty .positive, by decide +kernel, by decide +kernel⟩

/-- **Two encoders of one polarity come in the opposite order of their nodes**, so it is the second
one that is chosen if nothing else is. -/
theorem not_promptsInOrder_twoPasses :
    twoPasses.WellKeyed ∧ ¬ twoPasses.PromptsInOrder .empty .positive ∧
      ((twoPasses.candidates .empty "positive_text").head?.map Candidate.node) = some "2" := by
  have hk : twoPasses.WellKeyed := by decide +kernel
  refine ⟨hk, fun hinorder => ?_, by decide +kernel⟩
  have hone := (promptsInOrder_iff hk .empty .positive).1 hinorder
  have htwo : ¬ ∀ a ∈ twoPasses.candidates .empty Polarity.positive.field,
      ∀ b ∈ twoPasses.candidates .empty Polarity.positive.field,
        twoPasses.trace a.node = some .positive → twoPasses.trace b.node = some .positive →
          a.node = b.node := by
    decide +kernel
  exact htwo hone

end Graph

end NodeFlow
