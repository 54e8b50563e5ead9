import NodeFlow.Proofs.Document.Readable
import NodeFlow.Proofs.Layout.Represents
import NodeFlow.Proofs.Layout.Walk
/-!
# Which layout documents can be converted

Slots must be in something whose items can be gone through, or be nothing at
all, and a number must not be too large for a double. This is asked of the
nodes that become nodes of the workflow, of the reroutes that a walk along
their links comes to (`Meets`), and of the boxes (`IsReadable`). And the ids
of these nodes and of those that their links lead to, and the contents of
notes, must be short enough to be written (`IsShort`): `succeedsIff_toGraph`.
-/

namespace NodeFlow

namespace Layout

/-! ## Places, boxes and slots -/

/-- Of numbers that are read one after the other, one is too large for a double. -/
def Overflows (vs : List Json) : Prop :=
  ∃ before i after, vs = before ++ Json.int i :: after ∧ Binary64.ofInt? i = none ∧
    ∀ v ∈ before, ∃ x, numberOf v = .ok x

theorem not_overflows_nil : ¬ Overflows [] := by
  rintro ⟨before, i, after, heq, -⟩
  simp at heq

theorem overflows_cons_iff {v : Json} {rest : List Json} :
    Overflows (v :: rest) ↔
      (∃ i, v = .int i ∧ Binary64.ofInt? i = none) ∨
        (∃ x, numberOf v = .ok x) ∧ Overflows rest := by
  constructor
  · rintro ⟨before, i, after, heq, hi, hall⟩
    cases before with
    | nil =>
      obtain ⟨rfl, rfl⟩ := List.cons.inj heq
      exact Or.inl ⟨i, rfl, hi⟩
    | cons w before =>
      obtain ⟨rfl, rfl⟩ := List.cons.inj heq
      obtain ⟨hv, hall⟩ := List.forall_mem_cons.1 hall
      exact Or.inr ⟨hv, before, i, after, rfl, hi, hall⟩
  · rintro (⟨i, rfl, hi⟩ | ⟨hv, before, i, after, rfl, hi, hall⟩)
    · exact ⟨[], i, rest, rfl, hi, by simp⟩
    · exact ⟨v :: before, i, after, rfl, hi, List.forall_mem_cons.2 ⟨hv, hall⟩⟩

theorem numberOf_eq_tooLarge_iff {v : Json} :
    numberOf v = .error .tooLarge ↔ ∃ i, v = .int i ∧ Binary64.ofInt? i = none := by
  cases v with
  | int i =>
    rw [numberOf]
    cases hx : Binary64.ofInt? i <;> simp [hx]
  | str s =>
    rw [numberOf]
    cases hx : Numeral.float? s <;> simp
  | _ => simp [numberOf]

theorem succeedsIff_readNumbers (vs : List Json) :
    SucceedsIff (readNumbers vs) (¬ Overflows vs) True := by
  induction vs with
  | nil => exact .ok _ not_overflows_nil trivial
  | cons v rest ih =>
    have hlarge := numberOf_eq_tooLarge_iff (v := v)
    rw [readNumbers, readNumber?, overflows_cons_iff, ← hlarge]
    cases hv : numberOf v with
    | ok x => exact (ih.map _).of_iff (by simp) Iff.rfl
    | error e =>
      cases e with
      | tooLarge => exact .malformed (Or.inr rfl) (by simp)
      | _ => exact .ok _ (by simp) trivial

/-- The values that a position is read from. -/
def placeParts : Json → List Json
  | .obj fs => [entryOf fs "0", entryOf fs "1"]
  | .arr (x :: y :: _) => [x, y]
  | _ => [.null]

/-- The values that a box is read from. -/
def boxParts : Json → List Json
  | .arr (x :: y :: w :: h :: _) => [x, y, w, h]
  | _ => []

theorem succeedsIff_readPlace (v : Json) :
    SucceedsIff (readPlace v) (¬ Overflows (placeParts v)) True :=
  (succeedsIff_readNumbers (placeParts v)).map _

theorem succeedsIff_readBox (v : Json) :
    SucceedsIff (readBox v) (¬ Overflows (boxParts v)) True := by
  cases v with
  | arr items =>
    match items with
    | x :: y :: w :: h :: _ => exact (succeedsIff_readNumbers [x, y, w, h]).map _
    | [] | [_] | [_, _] | [_, _, _] => exact .ok _ not_overflows_nil trivial
  | _ => exact .ok _ not_overflows_nil trivial

/-- The slots of a node; what is no list has none. -/
def slotsOf (fs : Fields) : List Slot :=
  ((((entryOf fs "inputs").items?).getD []).filterMap Json.fields?).map readSlot

theorem readSlots_eq (fs : Fields) :
    readSlots (entryOf fs "inputs") =
      if isListable (entryOf fs "inputs") then .ok (slotsOf fs) else .error .wrongType := by
  rw [slotsOf]
  cases entryOf fs "inputs" with
  | arr items => rfl
  | str s => rfl
  | obj fields => rfl
  | null => rfl
  | bool b => cases b <;> rfl
  | int i => cases h : (Json.int i).isTruthy <;> simp [readSlots, isListable, h, Json.items?]
  | float x => cases h : (Json.float x).isTruthy <;> simp [readSlots, isListable, h, Json.items?]

/-- The slots of a node that is read. -/
theorem slots_eq_slotsOf {i : Int} {fs : Fields} {ss : List Slot}
    (h : (readItem i fs).slots = .ok ss) : ss = slotsOf fs := by
  have hread : readSlots (entryOf fs "inputs") = .ok ss := h
  rw [readSlots_eq] at hread
  split at hread
  · exact (Except.ok.inj hread).symm
  · cases hread

variable {document fs gs : Fields} {l : Layout} {schema : Schema} {key : String} {hops : Nat}
variable {link : Int}

/-! ## Walks along links -/

/-- What stands under an id: the last node that carries its number. -/
def StandsAt (document : Fields) (key : String) (fs : Fields) : Prop :=
  ∃ i, i ≠ noNumber ∧ lastNode? document i = some fs ∧ key = idText i

theorem StandsAt.unique (h : StandsAt document key fs) (h' : StandsAt document key gs) :
    fs = gs := by
  obtain ⟨i, -, hfs, rfl⟩ := h
  obtain ⟨j, -, hgs, hkey⟩ := h'
  obtain rfl := idText_injective hkey
  exact Option.some.inj (hfs.symm.trans hgs)

/-- Where a link starts, by the last row of the table with its number. -/
def wireOf (document : Fields) (link : Int) : Option Wire :=
  (readWires (listed document "links")).get? (idText link)

/-- The reroute that a link starts at, if it starts at one. -/
def RerouteAt (document : Fields) (link : Int) (fs : Fields) : Prop :=
  ∃ wire, wireOf document link = some wire ∧ StandsAt document wire.source fs ∧
    typeOf fs ∈ rerouteTypes

theorem RerouteAt.unique (h : RerouteAt document link fs) (h' : RerouteAt document link gs) :
    fs = gs := by
  obtain ⟨wire, hwire, hnode, -⟩ := h
  obtain ⟨wire', hwire', hnode', -⟩ := h'
  obtain rfl : wire = wire' := Option.some.inj (hwire.symm.trans hwire')
  exact hnode.unique hnode'

/-- The output that a link starts at, where that is one of a node that is no reroute. -/
def EndsAt (document : Fields) (link : Int) (wire : Wire) : Prop :=
  wireOf document link = some wire ∧
    ∃ fs, StandsAt document wire.source fs ∧ typeOf fs ∉ rerouteTypes

/-- A link starts at one node, so not at a reroute and at another node. -/
theorem EndsAt.not_rerouteAt {wire : Wire} (h : EndsAt document link wire) :
    ¬ RerouteAt document link fs := by
  rintro ⟨wire', hwire', hnode', hreroute⟩
  obtain ⟨hwire, gs, hnode, hother⟩ := h
  obtain rfl : wire = wire' := Option.some.inj (hwire.symm.trans hwire')
  exact hother (hnode.unique hnode' ▸ hreroute)

/-- The reroutes that a walk from a link comes to, following at most a number of links. -/
inductive Meets (document : Fields) : Nat → Int → Fields → Prop where
  | here {hops : Nat} {link : Int} {fs : Fields} (hfirst : RerouteAt document link fs) :
      Meets document (hops + 1) link fs
  | on {hops : Nat} {link next : Int} {fs gs : Fields} (hfirst : RerouteAt document link fs)
      (hnext : passedLink? (slotsOf fs) = some next) (hrest : Meets document hops next gs) :
      Meets document (hops + 1) link gs

/-- A walk comes to the reroute that its link starts at, and goes on from there. -/
theorem meets_succ_iff (hfirst : RerouteAt document link fs) :
    Meets document (hops + 1) link gs ↔
      gs = fs ∨ ∃ next, passedLink? (slotsOf fs) = some next ∧ Meets document hops next gs := by
  constructor
  · intro h
    cases h with
    | here h => exact Or.inl (h.unique hfirst)
    | on h hnext hrest =>
      obtain rfl := h.unique hfirst
      exact Or.inr ⟨_, hnext, hrest⟩
  · rintro (rfl | ⟨next, hnext, hrest⟩)
    · exact .here hfirst
    · exact .on hfirst hnext hrest

theorem Meets.exists_rerouteAt (h : Meets document (hops + 1) link gs) :
    ∃ fs, RerouteAt document link fs := by
  cases h with
  | here h => exact ⟨_, h⟩
  | on h _ _ => exact ⟨_, h⟩

/-- What a walk comes to stands under an id. -/
theorem Meets.standsAt (h : Meets document hops link gs) : ∃ key, StandsAt document key gs := by
  induction h with
  | here h =>
    obtain ⟨wire, -, hnode, -⟩ := h
    exact ⟨_, hnode⟩
  | on _ _ _ ih => exact ih

theorem tables_of_ofFields (h : ofFields document = .ok l) :
    l.wires = readWires (listed document "links") ∧
      l.frames = readFrames 1 (listed document "groups") := by
  rw [ofFields] at h
  obtain ⟨vs, -, rfl⟩ := exists_of_map_eq_ok h
  exact ⟨rfl, rfl⟩

theorem isReroute_iff (i : Int) (fs : Fields) :
    (readItem i fs).isReroute ↔ typeOf fs ∈ rerouteTypes := by
  rw [Item.isReroute, typeOf_eq, List.contains_iff_mem]

/-- **A step goes through the reroute that its link starts at**, and ends at any other node, or
where there is none. -/
theorem step_cases (h : ofFields document = .ok l) (link : Int) :
    (∃ fs, RerouteAt document link fs ∧
      l.step link = (readSlots (entryOf fs "inputs")).map Step.through) ∨
    (∃ wire, EndsAt document link wire ∧ l.step link = .ok (.ends (some wire))) ∨
    (∀ fs, ¬ RerouteAt document link fs) ∧ (∀ wire, ¬ EndsAt document link wire) ∧
      l.step link = .ok (.ends none) := by
  have hwires : l.wires.get? (idText link) = wireOf document link := by
    rw [(tables_of_ofFields h).1, wireOf]
  rw [step, hwires]
  cases hwire : wireOf document link with
  | none =>
    refine Or.inr (Or.inr ⟨?_, ?_, rfl⟩)
    · rintro fs ⟨wire, hw, -⟩
      exact absurd (hwire.symm.trans hw) (by simp)
    · rintro wire ⟨hw, -⟩
      exact absurd (hwire.symm.trans hw) (by simp)
  | some wire =>
    have hsame : ∀ {wire'}, wireOf document link = some wire' → wire' = wire :=
      fun hw => Option.some.inj (hw.symm.trans hwire)
    dsimp only
    cases hitem : l.items.get? wire.source with
    | none =>
      have hno : ∀ fs, ¬ StandsAt document wire.source fs := by
        rintro fs ⟨i, hi, hlast, hkey⟩
        have hsome := (get?_items_eq_some_iff h).2 ⟨i, fs, hi, hlast, hkey, rfl⟩
        exact absurd (hitem.symm.trans hsome) (by simp)
      refine Or.inr (Or.inr ⟨?_, ?_, rfl⟩)
      · rintro fs ⟨wire', hw, hnode, -⟩
        exact hno fs (hsame hw ▸ hnode)
      · rintro wire' ⟨hw, fs, hnode, -⟩
        exact hno fs (hsame hw ▸ hnode)
    | some item =>
      obtain ⟨i, fs, hi, hlast, hkey, rfl⟩ := (get?_items_eq_some_iff h).1 hitem
      have hnode : StandsAt document wire.source fs := ⟨i, hi, hlast, hkey⟩
      dsimp only
      by_cases hreroute : typeOf fs ∈ rerouteTypes
      · rw [if_pos ((isReroute_iff i fs).2 hreroute)]
        exact Or.inl ⟨fs, ⟨wire, hwire, hnode, hreroute⟩, rfl⟩
      · rw [if_neg fun hr => hreroute ((isReroute_iff i fs).1 hr)]
        exact Or.inr (Or.inl ⟨wire, ⟨hwire, fs, hnode, hreroute⟩, rfl⟩)

/-- **A walk has an end**, or none, where the slots of all reroutes on it can be read. -/
theorem succeedsIff_walk (h : ofFields document = .ok l) (hops : Nat) (link : Int) :
    SucceedsIff (l.walk hops link)
      (∀ gs, Meets document hops link gs → isListable (entryOf gs "inputs")) True := by
  induction hops generalizing link with
  | zero =>
    refine .ok _ (fun gs hgs => ?_) trivial
    cases hgs
  | succ hops ih =>
    have hends : ∀ wire, (∀ fs, ¬ RerouteAt document link fs) →
        SucceedsIff (.ok wire : Except Fault (Option Wire))
          (∀ gs, Meets document (hops + 1) link gs → isListable (entryOf gs "inputs")) True := by
      intro wire hnone
      refine .ok wire (fun gs hgs => ?_) trivial
      obtain ⟨fs, hfs⟩ := hgs.exists_rerouteAt
      exact absurd hfs (hnone fs)
    rw [walk]
    rcases step_cases h link with ⟨fs, hfirst, hstep⟩ | ⟨wire, hend, hstep⟩ | ⟨hnone, -, hstep⟩
    · have hcond : (∀ gs, Meets document (hops + 1) link gs → isListable (entryOf gs "inputs")) ↔
          isListable (entryOf fs "inputs") ∧ ∀ next, passedLink? (slotsOf fs) = some next →
            ∀ gs, Meets document hops next gs → isListable (entryOf gs "inputs") := by
        simp only [meets_succ_iff hfirst]
        constructor
        · intro hall
          exact ⟨hall fs (Or.inl rfl), fun next hnext gs hgs => hall gs (Or.inr ⟨next, hnext, hgs⟩)⟩
        · rintro ⟨hlist, hall⟩ gs (rfl | ⟨next, hnext, hgs⟩)
          · exact hlist
          · exact hall next hnext gs hgs
      rw [hstep, hcond, readSlots_eq]
      by_cases hlist : isListable (entryOf fs "inputs")
      · rw [if_pos hlist, and_iff_right hlist]
        show SucceedsIff ((Step.through (slotsOf fs)).andThen (l.walk hops)) _ _
        rw [Step.through]
        cases hnext : passedLink? (slotsOf fs) with
        | none => exact .ok _ (by simp) trivial
        | some next => exact (ih next).of_iff (by simp) Iff.rfl
      · rw [if_neg hlist]
        exact .malformed (Or.inl rfl) fun hall => hlist hall.1
    · rw [hstep]
      exact hends (some wire) fun fs => hend.not_rerouteAt
    · rw [hstep]
      exact hends none hnone

theorem succeedsIff_sourceOf (h : ofFields document = .ok l) (link : Int) :
    SucceedsIff (l.sourceOf link)
      (∀ gs, Meets document maxHops link gs → isListable (entryOf gs "inputs")) True := by
  rw [sourceOf_eq_walk]
  exact succeedsIff_walk h maxHops link

/-- The output that a link leads to, if it leads to one, is that of a node whose id can be
written. -/
def LeadsShortly (document : Fields) (link : Int) : Prop :=
  ∀ l wire, ofFields document = .ok l → l.sourceOf link = .ok (some wire) → wire.isShort

theorem succeedsIff_linkOf (h : ofFields document = .ok l) (link : Int) :
    SucceedsIff (l.linkOf link)
      (∀ gs, Meets document maxHops link gs → isListable (entryOf gs "inputs"))
      (LeadsShortly document link) := by
  have hwalk := succeedsIff_sourceOf h link
  have hsame : ∀ l', ofFields document = .ok l' → l' = l := fun l' hl' =>
    Except.ok.inj (hl'.symm.trans h)
  rw [linkOf_eq]
  cases hsource : l.sourceOf link with
  | error e =>
    exact .error (Or.inl (hwalk.malformed_of_error hsource))
  | ok found =>
    have hreads := (hwalk.of_ok hsource).1
    refine (SucceedsIff.withinLimit _ _).of_iff ⟨fun _ => hreads, fun _ => trivial⟩ ?_
    cases found with
    | none =>
      refine ⟨fun _ l' wire hl' hwire => ?_, fun _ => rfl⟩
      rw [hsame l' hl', hsource] at hwire
      cases hwire
    | some wire =>
      refine ⟨fun hshort l' wire' hl' hwire' => ?_, fun hall => hall l wire h hsource⟩
      rw [hsame l' hl', hsource] at hwire'
      cases hwire'
      exact hshort

/-- The slots of the reroutes on a walk from a slot, which is made where it has a name and a link,
can be read. -/
def WalkReads (document : Fields) (slot : Slot) : Prop :=
  slot.name.isSome → ∀ link, slot.link = some link →
    ∀ gs, Meets document maxHops link gs → isListable (entryOf gs "inputs")

/-- Where a walk from a slot is made, it leads to a node whose id can be written, if to any. -/
def WalkShort (document : Fields) (slot : Slot) : Prop :=
  slot.name.isSome → ∀ link, slot.link = some link → LeadsShortly document link

/-- **The slots of a node can be connected** where the walks from all of them read, and lead to ids
that can be written. -/
theorem succeedsIff_connectSlots (h : ofFields document = .ok l) (slots : List Slot)
    (inputs : Dict InputValue) :
    SucceedsIff (l.connectSlots slots inputs) (∀ slot ∈ slots, WalkReads document slot)
      (∀ slot ∈ slots, WalkShort document slot) := by
  induction slots generalizing inputs with
  | nil => exact .ok _ (by simp) (by simp)
  | cons slot rest ih =>
    rw [List.forall_mem_cons, List.forall_mem_cons]
    cases hname : slot.name with
    | none =>
      rw [connectSlots, hname]
      exact (ih inputs).of_iff (and_iff_right (by simp [WalkReads, hname])).symm
        (and_iff_right (by simp [WalkShort, hname])).symm
    | some name =>
      cases hlink : slot.link with
      | none =>
        rw [connectSlots, hname, hlink]
        exact (ih inputs).of_iff (and_iff_right (by simp [WalkReads, hlink])).symm
          (and_iff_right (by simp [WalkShort, hlink])).symm
      | some link =>
        have hreads : WalkReads document slot ↔
            ∀ gs, Meets document maxHops link gs → isListable (entryOf gs "inputs") := by
          simp [WalkReads, hname, hlink]
        have hshort : WalkShort document slot ↔ LeadsShortly document link := by
          simp [WalkShort, hname, hlink]
        rw [hreads, hshort, connectSlots_linked hname hlink]
        exact (succeedsIff_linkOf h link).bind fun found _ => ih _

/-! ## Nodes, boxes and the whole -/

/-- What is read of a node that becomes a node of the workflow can be read. -/
structure NodeReads (document fs : Fields) : Prop where
  /-- Its slots. -/
  inputs : isListable (entryOf fs "inputs")
  /-- The slots of the reroutes that its links lead through. -/
  walks : ∀ slot ∈ slotsOf fs, WalkReads document slot
  /-- Its place. -/
  place : ¬ Overflows (placeParts (entryOf fs "pos"))

/-- The ids that become texts as a node is converted can be written. -/
structure NodeShort (document : Fields) (i : Int) (fs : Fields) : Prop where
  /-- Its own. -/
  id : (Json.int i).isWritable
  /-- Those of the nodes that its links lead to. -/
  walks : ∀ slot ∈ slotsOf fs, WalkShort document slot

theorem succeedsIff_checkLoss (schema : Schema) (i : Item) :
    SucceedsIff (checkLoss schema i) True (losesValues schema i → i.isShort) := by
  rw [checkLoss_eq]
  refine (SucceedsIff.withinLimit _ _).of_iff Iff.rfl ?_
  cases losesValues schema i <;> simp

/-- **A node is converted** where what is read of it can be read, and the ids can be written. -/
theorem succeedsIff_convert (h : ofFields document = .ok l) (schema : Schema) (i : Int)
    (fs : Fields) :
    SucceedsIff (l.convert schema (readItem i fs)) (NodeReads document fs)
      (NodeShort document i fs) := by
  have hslots : SucceedsIff (readItem i fs).slots (isListable (entryOf fs "inputs")) True := by
    show SucceedsIff (readSlots (entryOf fs "inputs")) _ _
    rw [readSlots_eq]
    by_cases hlist : isListable (entryOf fs "inputs")
    · rw [if_pos hlist]
      exact .ok _ hlist trivial
    · rw [if_neg hlist]
      exact .malformed (Or.inl rfl) hlist
  have hplace : SucceedsIff (readItem i fs).place
      (¬ Overflows (placeParts (entryOf fs "pos"))) True := succeedsIff_readPlace _
  have hid : SucceedsIff (withinLimit (readItem i fs).isShort (idText i)) True
      (readItem i fs).isShort := .withinLimit _ _
  rw [convert_eq]
  refine ((succeedsIff_checkLoss schema _).bind fun _ _ => hslots.bind
    (r := (∀ slot ∈ slotsOf fs, WalkReads document slot) ∧ True ∧
      ¬ Overflows (placeParts (entryOf fs "pos")))
    (t := (∀ slot ∈ slotsOf fs, WalkShort document slot) ∧ (readItem i fs).isShort ∧ True)
    fun slots hs => ?_).of_iff ?_ ?_
  · obtain rfl := slots_eq_slotsOf hs
    exact (succeedsIff_connectSlots h _ _).bind fun inputs _ => hid.bind fun id _ => hplace.map _
  · exact ⟨fun hall => ⟨hall.2.1, hall.2.2.1, hall.2.2.2.2⟩,
      fun hall => ⟨trivial, hall.1, hall.2, trivial, hall.3⟩⟩
  · exact ⟨fun hall => ⟨hall.2.2.2.1, hall.2.2.1⟩,
      fun hall => ⟨fun _ => hall.id, trivial, hall.walks, hall.id, trivial⟩⟩

/-- **Groups can be made** where no box has a number that is too large. -/
theorem succeedsIff_groups (placed : List Placed) (n : Nat) (vs : List Json) :
    SucceedsIff (groups placed (readFrames n vs))
      (∀ fs, .obj fs ∈ vs → ¬ Overflows (boxParts (entryOf fs "bounding"))) True := by
  induction vs generalizing n with
  | nil => exact .ok _ (by simp) trivial
  | cons v rest ih =>
    cases v with
    | obj fs =>
      have hbox : SucceedsIff (readFrame n fs).box
          (¬ Overflows (boxParts (entryOf fs "bounding"))) True := succeedsIff_readBox _
      have hcond : (∀ gs, .obj gs ∈ Json.obj fs :: rest →
            ¬ Overflows (boxParts (entryOf gs "bounding"))) ↔
          ¬ Overflows (boxParts (entryOf fs "bounding")) ∧
            ∀ gs, .obj gs ∈ rest → ¬ Overflows (boxParts (entryOf gs "bounding")) := by
        simp only [List.mem_cons, Json.obj.injEq, forall_eq_or_imp]
      rw [hcond, readFrames, groups]
      cases hb : (readFrame n fs).box with
      | error e =>
        obtain ⟨hfault, hnot⟩ := hbox.malformed_of_error hb
        exact .malformed hfault fun hall => hnot hall.1
      | ok box =>
        have hfits := (hbox.of_ok hb).1
        cases box with
        | none => exact (ih (n + 1)).of_iff (and_iff_right hfits).symm Iff.rfl
        | some b => exact ((ih (n + 1)).map _).of_iff (and_iff_right hfits).symm Iff.rfl
    | _ => exact (ih (n + 1)).of_iff (by simp) Iff.rfl

/-- What is read of a layout can be read: the nodes that become nodes of the workflow, and the boxes
of the groups. -/
structure IsReadable (document : Fields) : Prop where
  nodes : ∀ i fs, i ≠ noNumber → lastNode? document i = some fs →
    typeOf fs ≠ "" ∧ typeOf fs ∉ noteTypes ∧ typeOf fs ∉ rerouteTypes → NodeReads document fs
  boxes : ∀ fs, .obj fs ∈ listed document "groups" → ¬ Overflows (boxParts (entryOf fs "bounding"))

/-- The integers that become texts as a layout is converted can be written: the ids of nodes, and
those in the contents of notes. -/
structure IsShort (document : Fields) : Prop where
  nodes : ∀ i fs, i ≠ noNumber → lastNode? document i = some fs →
    typeOf fs ≠ "" ∧ typeOf fs ∉ noteTypes ∧ typeOf fs ∉ rerouteTypes → NodeShort document i fs
  notes : ∀ i fs, i ≠ noNumber → lastNode? document i = some fs → typeOf fs ∈ noteTypes →
    (widgetsOf fs).isShort

theorem isNote_iff (i : Int) (fs : Fields) : (readItem i fs).isNote ↔ typeOf fs ∈ noteTypes := by
  rw [Item.isNote, typeOf_eq, List.contains_iff_mem]

/-- A node of a layout becomes a node or a note of the workflow where its type says so. -/
theorem mem_converted_iff (h : ofFields document = .ok l) {item : Item} :
    item ∈ l.converted ↔ ∃ i fs, i ≠ noNumber ∧ lastNode? document i = some fs ∧
      item = readItem i fs ∧ typeOf fs ≠ "" ∧ typeOf fs ∉ rerouteTypes := by
  have hkind : ∀ i fs, ((readItem i fs).type ≠ "" && !(readItem i fs).isReroute) = true ↔
      typeOf fs ≠ "" ∧ typeOf fs ∉ rerouteTypes := by
    intro i fs
    rw [Bool.and_eq_true, decide_eq_true_eq, Bool.not_eq_true', ← Bool.not_eq_true,
      isReroute_iff, typeOf_eq]
  rw [converted, List.mem_filter]
  constructor
  · rintro ⟨hitem, hconverted⟩
    obtain ⟨hi, fs, hfs, hread⟩ := exists_lastNode?_of_mem h hitem
    rw [hread] at hconverted
    exact ⟨item.id, fs, hi, hfs, hread, (hkind _ fs).1 hconverted⟩
  · rintro ⟨i, fs, hi, hfs, rfl, hconverted⟩
    exact ⟨Dict.mem_values_iff.2 ⟨idText i,
      (get?_items_eq_some_iff h).2 ⟨i, fs, hi, hfs, rfl, rfl⟩⟩, (hkind i fs).2 hconverted⟩

/-- An item is read from one node of the document alone. -/
theorem forall_readItem_iff {i : Int} {P : Int → Fields → Prop}
    (hfs : lastNode? document i = some fs) :
    (∀ j gs, lastNode? document j = some gs → readItem i fs = readItem j gs → P j gs) ↔
      P i fs := by
  constructor
  · exact fun hall => hall i fs hfs rfl
  · intro hP j gs hgs heq
    obtain rfl : i = j := congrArg Item.id heq
    exact Option.some.inj (hfs.symm.trans hgs) ▸ hP

/-- What is asked of all nodes that are converted is asked of the last ones with their numbers. -/
theorem forall_mem_converted_iff (h : ofFields document = .ok l) {P : Int → Fields → Prop} :
    (∀ item ∈ l.converted, ∀ i fs, lastNode? document i = some fs → item = readItem i fs →
        P i fs) ↔
      ∀ i fs, i ≠ noNumber → lastNode? document i = some fs →
        typeOf fs ≠ "" ∧ typeOf fs ∉ rerouteTypes → P i fs := by
  constructor
  · intro hall i fs hi hfs hconverted
    exact hall _ ((mem_converted_iff h).2 ⟨i, fs, hi, hfs, rfl, hconverted⟩) i fs hfs rfl
  · intro hall item hitem
    obtain ⟨i, fs, hi, hfs, rfl, hconverted⟩ := (mem_converted_iff h).1 hitem
    exact (forall_readItem_iff hfs).2 (hall i fs hi hfs hconverted)

/-- The integers that become texts as a node or a note is converted can be written. -/
def PartShort (document : Fields) (i : Int) (fs : Fields) : Prop :=
  (typeOf fs ∈ noteTypes → (widgetsOf fs).isShort) ∧
    (typeOf fs ∉ noteTypes → NodeShort document i fs)

/-- What is asked of a node that becomes a node or a note. -/
theorem succeedsIff_convertItem (h : ofFields document = .ok l) (schema : Schema) (i : Int)
    (fs : Fields) :
    SucceedsIff (l.convertItem schema (readItem i fs))
      (typeOf fs ∉ noteTypes → NodeReads document fs) (PartShort document i fs) := by
  rw [convertItem]
  by_cases hnote : typeOf fs ∈ noteTypes
  · rw [if_pos ((isNote_iff i fs).2 hnote), toNote_eq]
    refine ((SucceedsIff.withinLimit _ _).map _).of_iff ?_ ?_
    · exact ⟨fun _ hnot => absurd hnote hnot, fun _ => trivial⟩
    · exact ⟨fun hshort => ⟨fun _ => hshort, fun hnot => absurd hnote hnot⟩, fun h => h.1 hnote⟩
  · rw [if_neg fun hn => hnote ((isNote_iff i fs).1 hn)]
    refine ((succeedsIff_convert h schema i fs).map _).of_iff ?_ ?_
    · exact ⟨fun hreads _ => hreads, fun h => h hnote⟩
    · exact ⟨fun hshort => ⟨fun hn => absurd hn hnote, fun _ => hshort⟩, fun h => h.2 hnote⟩

/-- **A layout is converted exactly where what is read of it can be read**, and where the integers
that become texts can be written. -/
theorem succeedsIff_toGraph (h : ofFields document = .ok l) (schema : Schema) :
    SucceedsIff (l.toGraph schema) (IsReadable document) (IsShort document) := by
  have hnodes : SucceedsIff (l.converted.mapM (l.convertItem schema))
      (∀ item ∈ l.converted, ∀ i fs, lastNode? document i = some fs → item = readItem i fs →
        typeOf fs ∉ noteTypes → NodeReads document fs)
      (∀ item ∈ l.converted, ∀ i fs, lastNode? document i = some fs → item = readItem i fs →
        PartShort document i fs) := by
    refine .mapM fun item hitem => ?_
    obtain ⟨i, fs, -, hfs, rfl, -⟩ := (mem_converted_iff h).1 hitem
    exact (succeedsIff_convertItem h schema i fs).of_iff
      (forall_readItem_iff (P := fun _ gs => typeOf gs ∉ noteTypes → NodeReads document gs)
        hfs).symm (forall_readItem_iff hfs).symm
  rw [toGraph]
  refine (hnodes.bind (r := ∀ fs, .obj fs ∈ listed document "groups" →
    ¬ Overflows (boxParts (entryOf fs "bounding"))) (t := True) fun parts _ => ?_).of_iff ?_ ?_
  · rw [(tables_of_ofFields h).2]
    exact (succeedsIff_groups _ 1 _).map _
  · rw [forall_mem_converted_iff h (P := fun _ fs => typeOf fs ∉ noteTypes → NodeReads document fs)]
    constructor
    · rintro ⟨hall, hboxes⟩
      exact ⟨fun i fs hi hfs htype => hall i fs hi hfs ⟨htype.1, htype.2.2⟩ htype.2.1, hboxes⟩
    · rintro ⟨hall, hboxes⟩
      exact ⟨fun i fs hi hfs htype hnote => hall i fs hi hfs ⟨htype.1, hnote, htype.2⟩, hboxes⟩
  · rw [forall_mem_converted_iff h (P := PartShort document)]
    constructor
    · rintro ⟨hall, -⟩
      refine ⟨fun i fs hi hfs htype => ?_, fun i fs hi hfs hnote => ?_⟩
      · exact (hall i fs hi hfs ⟨htype.1, htype.2.2⟩).2 htype.2.1
      · exact (hall i fs hi hfs (noteTypes_apart _ hnote)).1 hnote
    · rintro ⟨hnodes, hnotes⟩
      refine ⟨fun i fs hi hfs htype => ⟨fun hnote => ?_, fun hnote => ?_⟩, trivial⟩
      · exact hnotes i fs hi hfs hnote
      · exact hnodes i fs hi hfs ⟨htype.1, hnote, htype.2⟩

end Layout
end NodeFlow
