import NodeFlow.Proofs.Layout.Unlinked
/-!
# Links that lead to no node

A link may lead to a note, to a node without a type, or nowhere at all; it may
do so through reroutes. An output of a note or of a node without a type is
found all the same, and the connection to it takes the place of what an input
was before, until it is dropped as its source is not there. So such a link is
not as good as none: it hides the literal of a widget, and a connection that an
earlier slot with its name makes (`Hides`). Nothing else depends on it
(`brokenLinks_of_ofLayout`).
-/

namespace NodeFlow.Layout

variable {l l' : Layout} {document document' fs fs' : Fields} {schema : Schema} {g g' : Graph}
variable {key input : String} {wire : Wire} {s s' : Slot} {ss ss' : List Slot} {v : InputValue}
variable {inputs inputs' filled : Dict InputValue} {R : Slot → Slot → Prop} {link : Int}

/-! ## Links that are broken -/

/-- A link leads to no node of a workflow. -/
def IsBroken (document : Fields) (g : Graph) (link : Int) : Prop :=
  ∀ wire, LeadsTo document link wire → ¬ g.has wire.source

/-- The links of all chosen slots lead to no node of a workflow. -/
def AllBroken (document : Fields) (g : Graph) (chosen : Nat → Nat → Bool) : Prop :=
  ∀ n k slot link, chosen n k → slotAt? document n k = some slot →
    (readSlot slot).link = some link → IsBroken document g link

/-- An output of a node that a workflow lacks. -/
def lacks (g : Graph) (wire : Wire) : Prop := ¬ g.has wire.source

theorem isBroken_iff (h : ofFields document = .ok l) :
    IsBroken document g link ↔ l.Loses (lacks g) link := by
  unfold IsBroken Loses
  simp only [leadsTo_iff h]
  exact Iff.rfl

/-- A document and its layout and workflow, and those without some links. -/
structure Severed (R : Slot → Slot → Prop) (document document' : Fields) (schema : Schema)
    (l l' : Layout) (g g' : Graph) : Prop where
  read : ofFields document = .ok l
  read' : ofFields document' = .ok l'
  made : l.toGraph schema = .ok g
  made' : l'.toGraph schema = .ok g'
  reslotted : Reslotted R l l'
  unlinks : ∀ s s', R s s' → l.Unlinks (lacks g) s s'
  shell : g'.shell = g.shell

/-- A slot is left alone, or its link is taken away; no link is left that is broken. -/
structure Heals (document : Fields) (g : Graph) (l : Layout) (s s' : Slot) : Prop where
  unlinks : l.Unlinks (lacks g) s s'
  unbroken : ∀ link, s'.link = some link → ¬ IsBroken document g link

/-- A slot connects nothing but what another one connects, and still connects nodes of a
workflow. -/
structure Narrows (document document' : Fields) (g : Graph) (s s' : Slot) : Prop where
  less : ∀ input wire, Feeds document' s' input wire → Feeds document s input wire
  still : ∀ input wire, Feeds document s input wire → g.has wire.source →
    Feeds document' s' input wire

namespace Severed

theorem unlinked (h : Severed R document document' schema l l' g g') :
    Reslotted (l.Unlinks (lacks g)) l l' := h.reslotted.imp h.unlinks

theorem has_eq (h : Severed R document document' schema l l' g g') (key : String) :
    g'.has key = g.has key := Graph.has_of_shell h.shell key

theorem narrows {c : Option (String × Wire)} (h : Severed R document document' schema l l' g g')
    (hs : R s s') (hc : l.connection? s = .ok c) : Narrows document document' g s s' := by
  obtain ⟨c', hc', hfades⟩ := connection?_reslotted h.unlinked (h.unlinks s s' hs) hc
  constructor
  case less =>
    intro input wire hfeeds
    obtain rfl : c' = some (input, wire) :=
      Except.ok.inj (hc'.symm.trans ((feeds_iff h.read').1 hfeeds))
    rcases hfades with rfl | ⟨hnone, -⟩
    · exact (feeds_iff h.read).2 hc
    · cases hnone
  case still =>
    intro input wire hfeeds hthere
    obtain rfl : c = some (input, wire) :=
      Except.ok.inj (hc.symm.trans ((feeds_iff h.read).1 hfeeds))
    rcases hfades with rfl | ⟨-, hlost⟩
    · exact (feeds_iff h.read').2 hc'
    · exact absurd hthere (hlost (input, wire) rfl)

/-- **A node without some links** has the same literals, and slots that connect no more and still
connect nodes of the workflow. -/
theorem exists_standsAt (h : Severed R document document' schema l l' g g') (hhas : g.has key)
    (hfs : StandsAt document key fs) :
    ∃ fs', StandsAt document' key fs' ∧ literalsAt schema fs' = literalsAt schema fs ∧
      List.Forall₂ (fun s s' => Narrows document document' g s s' ∧ R s s')
        (slotsOf fs) (slotsOf fs') := by
  obtain ⟨n, hn⟩ := Graph.has_iff.1 hhas
  obtain ⟨raw, filled, hraw, hslots, hrun, -⟩ := exists_filled h.read h.made hn
  obtain rfl := hfs.unique hraw
  obtain ⟨id, hid, hlast, rfl⟩ := hfs
  have hitem : l.items.get? (idText id) = some (readItem id fs) :=
    (get?_items_eq_some_iff h.read).2 ⟨id, fs, hid, hlast, rfl, rfl⟩
  rcases h.reslotted.get?_items (idText id) with ⟨hnone, -⟩ | ⟨i, i', hi, hi', slots, rfl, hrelated⟩
  · rw [hitem] at hnone
    cases hnone
  · obtain rfl : readItem id fs = i := Option.some.inj (hitem.symm.trans hi)
    obtain ⟨ss', rfl, hss'⟩ := hrelated (slotsOf fs) hslots
    obtain ⟨id', fs', hid', hlast', hkey, hread⟩ := (get?_items_eq_some_iff h.read').1 hi'
    obtain rfl := idText_injective hkey
    have hslots' : (readItem id fs').slots = .ok ss' := by rw [← hread]
    obtain rfl := slots_eq_slotsOf hslots'
    refine ⟨fs', ⟨id, hid', hlast', rfl⟩, ?_, ?_⟩
    · rw [← literalsOf_readItem schema id, ← literalsOf_readItem schema id, ← hread]
      rfl
    · have hall : ∀ s ∈ slotsOf fs, ∃ c, l.connection? s = .ok c := fun s hs =>
        exists_connection? hrun hs
      refine ((List.forall₂_and_left _ _).2 ⟨hall, hss'⟩).imp ?_
      rintro s s' ⟨⟨c, hc⟩, hs⟩
      exact ⟨h.narrows hs hc, hs⟩

/-- Where no link is left that is broken, slots connect nodes of the workflow only. -/
theorem has_of_feeds (h : Severed (l.Heals document g) document document' schema l l' g g')
    (hs : l.Heals document g s s') (hfeeds : Feeds document s input wire)
    (hfeeds' : Feeds document' s' input wire) : g.has wire.source := by
  rcases hs.unlinks with rfl | ⟨rfl, -⟩
  · obtain ⟨-, link, hsome, hleads⟩ := hfeeds
    have hunbroken := hs.unbroken link hsome
    unfold IsBroken at hunbroken
    push Not at hunbroken
    obtain ⟨there, hthere, hhas⟩ := hunbroken
    have heq := ((leadsTo_iff h.read).1 hleads).symm.trans ((leadsTo_iff h.read).1 hthere)
    rwa [Option.some.inj (Except.ok.inj heq)]
  · obtain ⟨-, link, hnone, -⟩ := hfeeds'
    cases hnone

end Severed

/-! ## Inputs that are hidden -/

/-- An input of a node of the workflow is hidden: the last of the slots that connect it connects it
to a node that the workflow lacks, although it is a literal, or another slot connects it to a node
of the workflow. -/
def Hides (document : Fields) (schema : Schema) (g : Graph) (key input : String) : Prop :=
  g.has key ∧ ∃ fs, StandsAt document key fs ∧
    (∃ wire, LastFeeds document (slotsOf fs) input wire ∧ ¬ g.has wire.source) ∧
    ((∃ v, (literalsAt schema fs).get? input = some v) ∨
      ∃ s ∈ slotsOf fs, ∃ wire, Feeds document s input wire ∧ g.has wire.source)

/-- The last connection is still the last one if it is to a node of the workflow. -/
theorem LastFeeds.still (h : LastFeeds document ss input wire)
    (hss : List.Forall₂ (Narrows document document' g) ss ss') (hthere : g.has wire.source) :
    LastFeeds document' ss' input wire := by
  induction hss with
  | nil =>
    obtain ⟨s, hs, -⟩ := h.exists_mem
    cases hs
  | @cons s s' ss ss' hs hss ih =>
    rcases lastFeeds_cons_iff.1 h with h | ⟨hnone, hfeeds⟩
    · exact lastFeeds_cons_iff.2 (Or.inl (ih h))
    · have hstill := hs.still _ _ hfeeds hthere
      refine lastFeeds_cons_iff.2 (Or.inr ⟨fun t' ht' wire' hfeeds' => ?_, hstill⟩)
      obtain ⟨t, ht, hnarrows⟩ := exists_of_mem_forall₂ hss ht'
      exact hnone t ht wire' (hnarrows.less _ _ hfeeds')

namespace Severed

/-- An input that is connected to a node of the workflow holds the same connection. -/
theorem inputAt?_of_there (h : Severed R document document' schema l l' g g') (hhas : g.has key)
    (hfs : StandsAt document key fs) (hlast : LastFeeds document (slotsOf fs) input wire)
    (hthere : g.has wire.source) : g'.inputAt? key input = g.inputAt? key input := by
  obtain ⟨fs', hfs', -, hslots⟩ := h.exists_standsAt hhas hfs
  have hhas' : g'.has key := by rwa [h.has_eq]
  have hlast' := hlast.still (hslots.imp fun _ _ hs => hs.1) hthere
  rw [inputAt?_of_lastFeeds h.read h.made hhas hfs hlast,
    inputAt?_of_lastFeeds h.read' h.made' hhas' hfs' hlast', h.has_eq]

/-- An input that no slot connects is connected by none without links. -/
theorem inputAt?_of_unfed (h : Severed R document document' schema l l' g g') (hhas : g.has key)
    (hfs : StandsAt document key fs)
    (hnone : ∀ s ∈ slotsOf fs, ∀ wire, ¬ Feeds document s input wire) :
    g'.inputAt? key input = g.inputAt? key input := by
  obtain ⟨fs', hfs', hliterals, hslots⟩ := h.exists_standsAt hhas hfs
  have hhas' : g'.has key := by rwa [h.has_eq]
  have hnone' : ∀ s' ∈ slotsOf fs', ∀ wire, ¬ Feeds document' s' input wire := by
    intro s' hs' wire hfeeds'
    obtain ⟨s, hs, hnarrow, -⟩ := exists_of_mem_forall₂ hslots hs'
    exact hnone s hs wire (hnarrow.less _ _ hfeeds')
  rw [inputAt?_of_not_feeds h.read h.made hhas hfs hnone,
    inputAt?_of_not_feeds h.read' h.made' hhas' hfs' hnone', hliterals]

/-- An input that is connected to a node that the workflow lacks holds nothing still, or it was
hidden. -/
theorem inputAt?_of_lost (h : Severed R document document' schema l l' g g') (hhas : g.has key)
    (hfs : StandsAt document key fs) (hlast : LastFeeds document (slotsOf fs) input wire)
    (hlost : ¬ g.has wire.source) :
    g'.inputAt? key input = none ∨ Hides document schema g key input := by
  obtain ⟨fs', hfs', hliterals, hslots⟩ := h.exists_standsAt hhas hfs
  have hhas' : g'.has key := by rwa [h.has_eq]
  have hhides : ((∃ v, (literalsAt schema fs).get? input = some v) ∨
      ∃ s ∈ slotsOf fs, ∃ wire, Feeds document s input wire ∧ g.has wire.source) →
      Hides document schema g key input :=
    fun hother => ⟨hhas, fs, hfs, ⟨wire, hlast, hlost⟩, hother⟩
  rcases Layout.inputAt?_cases h.read' h.made' hhas' hfs' input with
    ⟨wire', hlast', hget'⟩ | ⟨-, hget'⟩
  · -- an earlier slot connects it now
    rw [h.has_eq] at hget'
    by_cases hthere : g.has wire'.source
    · obtain ⟨s', hs', hfeeds'⟩ := hlast'.exists_mem
      obtain ⟨s, hs, hnarrow, -⟩ := exists_of_mem_forall₂ hslots hs'
      exact Or.inr (hhides (Or.inr ⟨s, hs, wire', hnarrow.less _ _ hfeeds', hthere⟩))
    · rw [if_neg hthere] at hget'
      exact Or.inl hget'
  · -- no slot does, and a literal is back
    rw [hliterals] at hget'
    cases hv : (literalsAt schema fs).get? input with
    | none => exact Or.inl (hget'.trans hv)
    | some v => exact Or.inr (hhides (Or.inl ⟨v, hv⟩))

/-- **What an input holds without some links** that are broken: what it held, unless it was
hidden. -/
theorem inputAt?_cases (h : Severed R document document' schema l l' g g') (key input : String) :
    g'.inputAt? key input = g.inputAt? key input ∨
      g.inputAt? key input = none ∧ Hides document schema g key input := by
  by_cases hhas : g.has key
  case neg =>
    have hhas' : ¬ g'.has key := by rwa [h.has_eq]
    rw [Graph.inputAt?_of_not_has hhas', Graph.inputAt?_of_not_has hhas]
    exact Or.inl rfl
  obtain ⟨n, hn⟩ := Graph.has_iff.1 hhas
  obtain ⟨fs, -, hfs, -⟩ := exists_filled h.read h.made hn
  rcases Layout.inputAt?_cases h.read h.made hhas hfs input with ⟨wire, hlast, hget⟩ | ⟨hnone, -⟩
  · by_cases hthere : g.has wire.source
    · exact Or.inl (h.inputAt?_of_there hhas hfs hlast hthere)
    · rw [if_neg hthere] at hget
      rcases h.inputAt?_of_lost hhas hfs hlast hthere with hget' | hhides
      · exact Or.inl (hget'.trans hget.symm)
      · exact Or.inr ⟨hget, hhides⟩
  · exact Or.inl (h.inputAt?_of_unfed hhas hfs hnone)

/-- **Only hidden inputs come back.** -/
theorem hides (h : Severed R document document' schema l l' g g')
    (hne : g'.inputAt? key input ≠ g.inputAt? key input) : Hides document schema g key input :=
  ((h.inputAt?_cases key input).resolve_left hne).2

/-- **No input is lost or changed.** -/
theorem kept (h : Severed R document document' schema l l' g g')
    (hv : g.inputAt? key input = some v) : g'.inputAt? key input = some v := by
  rcases h.inputAt?_cases key input with heq | ⟨hnone, -⟩
  · exact heq.trans hv
  · rw [hnone] at hv
    cases hv

/-- **All hidden inputs come back** if no link is left that is broken. -/
theorem comesBack (h : Severed (l.Heals document g) document document' schema l l' g g')
    (hhides : Hides document schema g key input) :
    g'.inputAt? key input ≠ g.inputAt? key input := by
  obtain ⟨hhas, fs, hfs, ⟨wire, hlast, hlost⟩, hother⟩ := hhides
  obtain ⟨fs', hfs', hliterals, hslots⟩ := h.exists_standsAt hhas hfs
  have hhas' : g'.has key := by rwa [h.has_eq]
  rw [inputAt?_of_lastFeeds h.read h.made hhas hfs hlast, if_neg hlost]
  rcases Layout.inputAt?_cases h.read' h.made' hhas' hfs' input with
    ⟨wire', hlast', hget⟩ | ⟨hnone, hget⟩
  · obtain ⟨s', hs', hfeeds'⟩ := hlast'.exists_mem
    obtain ⟨s, hs, hnarrow, hrelated⟩ := exists_of_mem_forall₂ hslots hs'
    have hthere : g'.has wire'.source := by
      rw [h.has_eq]
      exact h.has_of_feeds hrelated (hnarrow.less _ _ hfeeds') hfeeds'
    rw [hget, if_pos hthere]
    exact Option.some_ne_none _
  · rw [hget, hliterals]
    rcases hother with ⟨v, hv⟩ | ⟨s, hs, wire', hfeeds, hthere⟩
    · rw [hv]
      exact Option.some_ne_none v
    · obtain ⟨s', hs', hnarrow, -⟩ := exists_of_mem_forall₂ hslots.flip hs
      exact absurd (hnarrow.still _ _ hfeeds hthere) (hnone s' hs' wire')

end Severed

/-! ## Names that are apart -/

/-- No input that a slot connects to a node that the workflow lacks is a literal, or is connected to
a node of the workflow by another slot. -/
def Apart (document : Fields) (schema : Schema) (g : Graph) : Prop :=
  ∀ key fs, g.has key → StandsAt document key fs →
    ∀ s ∈ slotsOf fs, ∀ input wire, Feeds document s input wire → ¬ g.has wire.source →
      (literalsAt schema fs).get? input = none ∧
        ∀ s' ∈ slotsOf fs, ∀ wire', Feeds document s' input wire' → ¬ g.has wire'.source

/-- Of some slots, one connects an input to a node that the workflow lacks. -/
def Strays (document : Fields) (g : Graph) (ss : List Slot) (input : String) : Prop :=
  ∃ s ∈ ss, ∃ wire, Feeds document s input wire ∧ ¬ g.has wire.source

/-- Inputs survive or not by their names. -/
def Sorted (g : Graph) (gone : String → Prop) (inputs : Dict InputValue) : Prop :=
  ∀ name v, inputs.get? name = some v → (survives g v ↔ ¬ gone name)

/-- A connection, if there is one, is to a node of the workflow or not by its name. -/
def SortedAt (g : Graph) (gone : String → Prop) (c : Option (String × Wire)) : Prop :=
  ∀ name wire, c = some (name, wire) → (g.has wire.source ↔ ¬ gone name)

variable {gone : String → Prop} {c c' : Option (String × Wire)}

theorem Sorted.connect (h : Sorted g gone inputs) (hc : SortedAt g gone c) :
    Sorted g gone (connect inputs c) := by
  cases c with
  | none => exact h
  | some e =>
    obtain ⟨name, wire⟩ := e
    intro name' v hv
    rw [Layout.connect, Dict.get?_insert] at hv
    split at hv
    · rename_i heq
      obtain rfl := Option.some.inj hv
      obtain rfl := heq
      exact hc name wire rfl
    · exact h name' v hv

/-- **Where names tell what survives**, a connection can be made after what does not is dropped. -/
theorem Sorted.filter_connect (h : Sorted g gone inputs) (hc : SortedAt g gone c) :
    (Layout.connect inputs c).filter (fun _ v => survives g v) =
      Layout.connect (inputs.filter fun _ v => survives g v)
        (c.filter fun e => g.has e.2.source) := by
  cases c with
  | none => rfl
  | some e =>
    obtain ⟨name, wire⟩ := e
    have hname := hc name wire rfl
    rw [Layout.connect, Option.filter_some]
    by_cases hhas : g.has wire.source
    · rw [if_pos hhas]
      exact Dict.filter_insert_of_pos (fun v hv => (h name v hv).2 (hname.1 hhas)) hhas
    · rw [if_neg hhas]
      exact Dict.filter_insert_of_neg
        (fun v hv hsurvives => hhas (hname.2 ((h name v hv).1 hsurvives))) hhas

theorem SortedAt.of_fades (h : SortedAt g gone c) (hfades : Fades (fun e => lacks g e.2) c c') :
    SortedAt g gone c' := by
  rcases hfades with rfl | ⟨rfl, -⟩
  · exact h
  · intro name wire hnone
    cases hnone

theorem filter_eq_of_fades (h : Fades (fun e => lacks g e.2) c c') :
    (c'.filter fun e => g.has e.2.source) = c.filter fun e => g.has e.2.source := by
  rcases h with rfl | ⟨rfl, hlost⟩
  · rfl
  · cases c with
    | none => rfl
    | some e => rw [Option.filter_none, Option.filter_some, if_neg (hlost e rfl)]

/-- Inputs that are sorted by the same names are the same as far as they survive. -/
structure Agree (g : Graph) (gone : String → Prop) (inputs inputs' : Dict InputValue) : Prop where
  sorted : Sorted g gone inputs
  sorted' : Sorted g gone inputs'
  same : inputs'.filter (fun _ v => survives g v) = inputs.filter fun _ v => survives g v

theorem Agree.connect (h : Agree g gone inputs inputs') (hc : SortedAt g gone c)
    (hfades : Fades (fun e => lacks g e.2) c c') :
    Agree g gone (Layout.connect inputs c) (Layout.connect inputs' c') := by
  have hc' := hc.of_fades hfades
  refine ⟨h.sorted.connect hc, h.sorted'.connect hc', ?_⟩
  rw [h.sorted.filter_connect hc, h.sorted'.filter_connect hc', h.same, filter_eq_of_fades hfades]

/-- Where names are apart, literals have names of their own. -/
theorem Apart.sorted (h : Apart document schema g) (hhas : g.has key)
    (hfs : StandsAt document key fs) :
    Sorted g (Strays document g (slotsOf fs)) (literalsAt schema fs) := by
  intro name v hv
  obtain ⟨w, rfl⟩ := onlyLiterals_literalsAt schema fs name v hv
  refine iff_of_true rfl ?_
  rintro ⟨s, hs, wire, hfeeds, hlost⟩
  rw [(h key fs hhas hfs s hs name wire hfeeds hlost).1] at hv
  cases hv

/-- Where names are apart, so have connections to nodes that the workflow lacks. -/
theorem Apart.sortedAt (h : Apart document schema g) (hhas : g.has key)
    (hfs : StandsAt document key fs) (hl : ofFields document = .ok l) (hs : s ∈ slotsOf fs)
    (hc : l.connection? s = .ok c) : SortedAt g (Strays document g (slotsOf fs)) c := by
  rintro name wire rfl
  have hfeeds := (feeds_iff hl).2 hc
  constructor
  · rintro hthere ⟨t, ht, wire', hfeeds', hlost⟩
    exact (h key fs hhas hfs t ht name wire' hfeeds' hlost).2 s hs wire hfeeds hthere
  · intro hstays
    by_contra hlost
    exact hstays ⟨s, hs, wire, hfeeds, hlost⟩

namespace Severed

/-- Where names are apart, slots without links connect what they connected, as far as it
survives. -/
theorem filter_connectSlots (h : Severed R document document' schema l l' g g')
    (hapart : Apart document schema g) (hhas : g.has key) (hfs : StandsAt document key fs)
    (hslots : List.Forall₂ R (slotsOf fs) ss')
    (hrun : l.connectSlots (slotsOf fs) (literalsAt schema fs) = .ok filled) :
    ∃ filled', l'.connectSlots ss' (literalsAt schema fs) = .ok filled' ∧
      filled'.filter (fun _ v => survives g v) = filled.filter fun _ v => survives g v := by
  have hsorted := hapart.sorted hhas hfs
  obtain ⟨filled', hrun', hagree⟩ := connectSlots_reslotted
    (P := Agree g (Strays document g (slotsOf fs))) h.unlinked (hslots.imp h.unlinks)
    (fun s hs _ _ _ _ hc hfades hd => hd.connect (hapart.sortedAt hhas hfs h.read hs hc) hfades)
    ⟨hsorted, hsorted, rfl⟩ hrun
  exact ⟨filled', hrun', hagree.same⟩

theorem survives_eq (h : Severed R document document' schema l l' g g') :
    survives g' = survives g := by
  funext v
  cases v with
  | connection source output => exact h.has_eq source
  | _ => rfl

/-- **Where names are apart, nothing changes.** -/
theorem eq_of_apart (h : Severed R document document' schema l l' g g')
    (hapart : Apart document schema g) : g' = g := by
  refine Graph.eq_of_shell h.shell fun key n n' hn hn' => ?_
  have hhas : g.has key := Graph.has_iff.2 ⟨n, hn⟩
  obtain ⟨fs, filled, hfs, -, hrun, hinputs⟩ := exists_filled h.read h.made hn
  obtain ⟨fs', filled', hfs', -, hrun', hinputs'⟩ := exists_filled h.read' h.made' hn'
  obtain ⟨raw, hraw, hliterals, hslots⟩ := h.exists_standsAt hhas hfs
  obtain rfl := hfs'.unique hraw
  obtain ⟨kept, hkept, hsame⟩ :=
    h.filter_connectSlots hapart hhas hfs (hslots.imp fun _ _ hs => hs.2) hrun
  rw [hliterals] at hrun'
  obtain rfl : kept = filled' := Except.ok.inj (hkept.symm.trans hrun')
  rw [hinputs, hinputs', h.survives_eq, hsame]

end Severed

/-! ## Imports -/

theorem unlinks_of_allBroken {chosen : Nat → Nat → Bool} {slot : Fields} {k m : Nat}
    (hl : ofFields document = .ok l) (h : AllBroken document g chosen)
    (hslot : slotAt? document m k = some slot) :
    l.Unlinks (lacks g) (readSlot slot) (readSlot (if chosen m k then unlink slot else slot)) := by
  split
  · rename_i hchosen
    refine Or.inr ⟨readSlot_unlink slot, fun link hlink => ?_⟩
    exact (isBroken_iff hl).1 (h m k slot link hchosen hslot hlink)
  · exact Or.inl rfl

theorem exists_severed {chosen : Nat → Nat → Bool} (hl : ofFields document = .ok l)
    (hg : l.toGraph schema = .ok g)
    (hR : ∀ m k slot, slotAt? document m k = some slot →
      R (readSlot slot) (readSlot (if chosen m k then unlink slot else slot)))
    (hunlinks : ∀ s s', R s s' → l.Unlinks (lacks g) s s') :
    ∃ l' g', Severed R document (unlinked chosen document) schema l l' g g' := by
  obtain ⟨l', hl', hreslotted⟩ := ofFields_unlinked hl hR
  obtain ⟨g', hg', hshell⟩ := toGraph_reslotted (hreslotted.imp hunlinks) hg
  exact ⟨l', g', hl, hl', hg, hg', hreslotted, hunlinks, hshell⟩

open Classical in
/-- The slots whose links are broken, if they have one. -/
noncomputable def everyBroken (document : Fields) (g : Graph) (n k : Nat) : Bool :=
  decide (∃ slot, slotAt? document n k = some slot ∧
    ∀ link, (readSlot slot).link = some link → IsBroken document g link)

theorem everyBroken_iff {n k : Nat} :
    everyBroken document g n k ↔ ∃ slot, slotAt? document n k = some slot ∧
      ∀ link, (readSlot slot).link = some link → IsBroken document g link := by
  classical
  rw [everyBroken, decide_eq_true_iff]

theorem allBroken_everyBroken (document : Fields) (g : Graph) :
    AllBroken document g (everyBroken document g) := by
  intro n k slot link hchosen hslot hlink
  obtain ⟨slot', hslot', hbroken⟩ := everyBroken_iff.1 hchosen
  obtain rfl := Option.some.inj (hslot.symm.trans hslot')
  exact hbroken link hlink

/-- **All broken links of a document can be taken away.** -/
theorem exists_severed_everyBroken (hl : ofFields document = .ok l)
    (hg : l.toGraph schema = .ok g) :
    ∃ l' g', Severed (l.Heals document g) document (unlinked (everyBroken document g) document)
      schema l l' g g' := by
  refine exists_severed hl hg (fun n k slot hslot => ?_) fun _ _ hs => hs.unlinks
  refine ⟨unlinks_of_allBroken hl (allBroken_everyBroken document g) hslot, ?_⟩
  intro link hlink hbroken
  by_cases hchosen : everyBroken document g n k
  · rw [if_pos hchosen, readSlot_unlink] at hlink
    cases hlink
  · rw [if_neg hchosen] at hlink
    refine hchosen (everyBroken_iff.2 ⟨slot, hslot, fun link' hlink' => ?_⟩)
    obtain rfl := Option.some.inj (hlink.symm.trans hlink')
    exact hbroken

/-- **A literal of a widget** is in the workflow, or overridden by a connection, or hidden. -/
theorem literal_cases {fs : Fields} (hl : ofFields document = .ok l)
    (hg : l.toGraph schema = .ok g) (hhas : g.has key) (hfs : StandsAt document key fs)
    (hv : (literalsAt schema fs).get? input = some v) :
    g.inputAt? key input = some v ∨
      (∃ source output, g.inputAt? key input = some (.connection source output)) ∨
        Hides document schema g key input := by
  rcases inputAt?_cases hl hg hhas hfs input with ⟨wire, hlast, hget⟩ | ⟨-, hget⟩
  · by_cases hthere : g.has wire.source
    · rw [if_pos hthere] at hget
      exact Or.inr (Or.inl ⟨wire.source, wire.output, hget⟩)
    · exact Or.inr (Or.inr ⟨hhas, fs, hfs, ⟨wire, hlast, hthere⟩, Or.inl ⟨v, hv⟩⟩)
  · exact Or.inl (hget.trans hv)

theorem Severed.result (h : Severed R document document' schema l l' g g') :
    (Imported.ofLayout (.obj document') schema).result = .ok ⟨g', l.warnings schema⟩ := by
  rw [Imported.result_ofLayout_obj, h.read']
  show Except.map _ (l'.toGraph schema) = _
  rw [h.made', h.reslotted.warnings_eq]
  rfl

/-- What an import comes to without some links that are broken, beside what it came to. -/
structure Unhides (document : Fields) (schema : Schema) (r r' : Imported) : Prop where
  warnings : r'.warnings = r.warnings
  /-- All but inputs is the same: the nodes in their order, groups and notes. -/
  shell : r'.graph.shell = r.graph.shell
  /-- No input is lost or changed. -/
  kept : ∀ key input v, r.graph.inputAt? key input = some v → r'.graph.inputAt? key input = some v
  /-- Those that come back were hidden. -/
  regained : ∀ key input, r'.graph.inputAt? key input ≠ r.graph.inputAt? key input →
    Hides document schema r.graph key input

/-- What broken links do to an import. -/
structure BrokenLinks (document : Fields) (schema : Schema) (r : Imported) : Prop where
  /-- Without them the document is imported too, and no input is changed but that hidden ones come
  back. -/
  healed : ∀ chosen, AllBroken document r.graph chosen →
    ∃ r', (Imported.ofLayout (.obj (unlinked chosen document)) schema).result = .ok r' ∧
      Unhides document schema r r'
  /-- No inputs come back, whichever broken links are taken away, exactly where none is hidden. -/
  unchanged_iff : (∀ chosen, AllBroken document r.graph chosen → ∀ r',
      (Imported.ofLayout (.obj (unlinked chosen document)) schema).result = .ok r' →
      ∀ key input, r'.graph.inputAt? key input = r.graph.inputAt? key input) ↔
    ∀ key input, ¬ Hides document schema r.graph key input
  /-- And where names are apart, the import is the same, down to the order of inputs. -/
  same : Apart document schema r.graph → ∀ chosen, AllBroken document r.graph chosen →
    (Imported.ofLayout (.obj (unlinked chosen document)) schema).result = .ok r
  /-- A literal of a widget is in the workflow, unless a connection that is there overrides it, or
  it is hidden. -/
  literals : ∀ key fs input v, r.graph.has key → StandsAt document key fs →
    (literalsAt schema fs).get? input = some v →
    r.graph.inputAt? key input = some v ∨
      (∃ source output, r.graph.inputAt? key input = some (.connection source output)) ∨
        Hides document schema r.graph key input

/-- **What broken links do to an import**, for every document that is imported. -/
theorem brokenLinks_of_ofLayout {r : Imported}
    (h : (Imported.ofLayout (.obj document) schema).result = .ok r) :
    BrokenLinks document schema r := by
  rw [Imported.result_ofLayout_obj] at h
  obtain ⟨l, hl, h⟩ := exists_of_bind_eq_ok h
  obtain ⟨g, hg, rfl⟩ := exists_of_map_eq_ok h
  have hsevered : ∀ chosen, AllBroken document g chosen → ∃ l' g',
      Severed (l.Unlinks (lacks g)) document (unlinked chosen document) schema l l' g g' :=
    fun chosen hchosen => exists_severed hl hg
      (fun _ _ _ hslot => unlinks_of_allBroken hl hchosen hslot) fun _ _ hs => hs
  constructor
  case healed =>
    intro chosen hchosen
    obtain ⟨l', g', hs⟩ := hsevered chosen hchosen
    exact ⟨_, hs.result, rfl, hs.shell, fun key input v hv => hs.kept hv,
      fun key input hne => hs.hides hne⟩
  case unchanged_iff =>
    constructor
    · intro hsame key input hhides
      obtain ⟨l', g', hs⟩ := exists_severed_everyBroken hl hg
      have hchosen := allBroken_everyBroken document g
      exact hs.comesBack hhides (hsame _ hchosen _ hs.result key input)
    · intro hnone chosen hchosen r' hr' key input
      obtain ⟨l', g', hs⟩ := hsevered chosen hchosen
      obtain rfl := Except.ok.inj (hs.result.symm.trans hr')
      by_contra hne
      exact hnone key input (hs.hides hne)
  case same =>
    intro hapart chosen hchosen
    obtain ⟨l', g', hs⟩ := hsevered chosen hchosen
    rw [hs.result, hs.eq_of_apart hapart]
  case literals => exact fun key fs input v hhas hfs hv => literal_cases hl hg hhas hfs hv

/-- A prompt whose slot is linked to a note, and has a widget of its name. -/
def notedPrompt : Fields :=
  [("nodes", .arr [.obj [("id", .int 10), ("type", .str "Note")],
      .obj [("id", .int 6), ("type", .str "CLIPTextEncode"),
        ("inputs", .arr [.obj [("name", .str "text"), ("link", .int 7)]]),
        ("widgets_values", .arr [.str "a fox"])]]),
    ("links", .arr [.arr [.int 7, .int 10, .int 0, .int 6, .int 0, .str "STRING"]])]

/-- The one slot of it. -/
def promptSlot (n k : Nat) : Bool := n = 1 && k = 0

/-- A schema for it. -/
def promptSchema : Schema :=
  ⟨.ofList [("CLIPTextEncode",
    { classType := "CLIPTextEncode", inputs := [{ name := "text", type := "STRING" }] })]⟩

/-- The hypothesis of `brokenLinks_of_ofLayout` is met. -/
theorem notedPrompt_brokenLinks :
    ∃ r, (Imported.ofLayout (.obj notedPrompt) promptSchema).result = .ok r ∧
      BrokenLinks notedPrompt promptSchema r := by
  have hok : (Imported.ofLayout (.obj notedPrompt) promptSchema).result.toOption.isSome := by
    decide +kernel
  obtain ⟨r, hr⟩ := Option.isSome_iff_exists.1 hok
  exact ⟨r, eq_ok_of_toOption hr, brokenLinks_of_ofLayout (eq_ok_of_toOption hr)⟩

/-- **A broken link is not as good as none**: without it the prompt has its text, and with it
none. -/
theorem not_unchanged_notedPrompt :
    ∃ r r', (Imported.ofLayout (.obj notedPrompt) promptSchema).result = .ok r ∧
      AllBroken notedPrompt r.graph promptSlot ∧
      (Imported.ofLayout (.obj (unlinked promptSlot notedPrompt)) promptSchema).result = .ok r' ∧
      r.graph.inputAt? "6" "text" = none ∧
      r'.graph.inputAt? "6" "text" = some (.literal (.str "a fox")) := by
  have hwith : (Imported.ofLayout (.obj notedPrompt) promptSchema).result.toOption.map
      (fun r => (r.graph.inputAt? "6" "text", r.graph.has "10")) = some (none, false) := by
    decide +kernel
  have hwithout : (Imported.ofLayout (.obj (unlinked promptSlot notedPrompt))
      promptSchema).result.toOption.map (fun r => r.graph.inputAt? "6" "text") =
        some (some (.literal (.str "a fox"))) := by
    decide +kernel
  have hsource : (ofFields notedPrompt).toOption.bind (fun l => (l.sourceOf 7).toOption) =
      some (some ⟨10, 0⟩) := by
    decide +kernel
  obtain ⟨r, hr, hinput⟩ := Option.map_eq_some_iff.1 hwith
  obtain ⟨r', hr', hinput'⟩ := Option.map_eq_some_iff.1 hwithout
  obtain ⟨l, hl, hfound⟩ := Option.bind_eq_some_iff.1 hsource
  obtain ⟨hgone, hnote⟩ := Prod.mk.inj hinput
  refine ⟨r, r', eq_ok_of_toOption hr, ?_, eq_ok_of_toOption hr', hgone, hinput'⟩
  intro n k slot link hchosen hslot hlink wire hleads
  obtain ⟨rfl, rfl⟩ : n = 1 ∧ k = 0 := by simpa [promptSlot] using hchosen
  obtain rfl : [("name", .str "text"), ("link", .int 7)] = slot := Option.some.inj hslot
  obtain rfl : 7 = link := Option.some.inj hlink
  rw [leadsTo_iff (eq_ok_of_toOption hl), eq_ok_of_toOption hfound] at hleads
  obtain rfl : Wire.mk 10 0 = wire := Option.some.inj (Except.ok.inj hleads)
  show ¬ r.graph.has "10" = true
  rw [hnote]
  decide

end NodeFlow.Layout
