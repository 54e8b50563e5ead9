import NodeFlow.Proofs.Graph.Shell
import NodeFlow.Proofs.Layout.Filled
/-!
# Layouts without some of their links

The links of some slots of a document are replaced by null (`unlinked`). What
is read of it are the same nodes, links and boxes, but for the slots, which are
related one by one (`Reslotted`). Where the slots that lose their links lead
nowhere that counts, a walk along links ends where it ended, or nowhere, and
then its end does not count (`walk_reslotted`).
-/

namespace NodeFlow

namespace Layout

/-! ## Documents -/

/-- Changes the objects of a list, by their places. -/
def atPlaces (f : Nat → Fields → Fields) : Json → Json
  | .arr vs => .arr (vs.mapIdx fun n => onFields (f n))
  | v => v

/-- A slot without its link. -/
def unlink : Fields → Fields := amend [("link", fun _ => .null)]

/-- A node without the links of the slots at some places. -/
def unlinkSlots (chosen : Nat → Bool) : Fields → Fields :=
  amend [("inputs", atPlaces fun k fs => if chosen k then unlink fs else fs)]

/-- A document without the links of some slots, which are chosen by the places of their nodes and
their own. -/
def unlinked (chosen : Nat → Nat → Bool) : Fields → Fields :=
  amend [("nodes", atPlaces fun n => unlinkSlots (chosen n))]

/-- The slot at a place of the node at a place. -/
def slotAt? (document : Fields) (n k : Nat) : Option Fields := do
  let node ← (listed document "nodes")[n]?.bind Json.fields?
  ((entryOf node "inputs").items?.getD [])[k]?.bind Json.fields?

/-! ## Layouts -/

/-- Two nodes agree but for their slots, which are related. -/
def Item.Reslotted (R : Slot → Slot → Prop) (i i' : Item) : Prop :=
  ∃ slots, i' = { i with slots := slots } ∧
    ∀ ss, i.slots = .ok ss → ∃ ss', slots = .ok ss' ∧ List.Forall₂ R ss ss'

/-- Two layouts agree but for the slots of nodes, which are related. -/
structure Reslotted (R : Slot → Slot → Prop) (l l' : Layout) : Prop where
  items : List.Forall₂ (fun e e' => e.1 = e'.1 ∧ e.2.Reslotted R e'.2)
    l.items.entries l'.items.entries
  wires : l'.wires = l.wires
  frames : l'.frames = l.frames

variable {R : Slot → Slot → Prop} {l l' : Layout} {document : Fields} {chosen : Nat → Nat → Bool}

theorem Reslotted.imp {Q : Slot → Slot → Prop} (h : Reslotted R l l')
    (hQ : ∀ s s', R s s' → Q s s') : Reslotted Q l l' := by
  refine ⟨h.items.imp ?_, h.wires, h.frames⟩
  rintro e e' ⟨hkey, slots, hi, hslots⟩
  refine ⟨hkey, slots, hi, fun ss hss => ?_⟩
  obtain ⟨ss', hss', hrelated⟩ := hslots ss hss
  exact ⟨ss', hss', hrelated.imp hQ⟩

/-! ## Reading -/

theorem forall₂_mapIdx_onFields {Q : Fields → Fields → Prop} {f : Nat → Fields → Fields}
    {vs : List Json} (h : ∀ n fs, vs[n]?.bind Json.fields? = some fs → Q fs (f n fs)) :
    List.Forall₂ Q (vs.filterMap Json.fields?)
      ((vs.mapIdx fun n => onFields (f n)).filterMap Json.fields?) := by
  induction vs generalizing f with
  | nil => exact .nil
  | cons v vs ih =>
    have hrest := ih (f := fun n => f (n + 1)) fun n fs hfs => h (n + 1) fs hfs
    rw [List.mapIdx_cons, List.filterMap_cons, List.filterMap_cons, fields?_onFields]
    cases hv : v.fields? with
    | none => exact hrest
    | some fs => exact .cons (h 0 fs hv) hrest

theorem readSlot_unlink (fs : Fields) :
    readSlot (unlink fs) = { readSlot fs with link := none } := by
  have hname : Entries.get? (unlink fs) "name" = Entries.get? fs "name" :=
    get?_amend_of_not_mem (by decide) fs
  have hlink : (Entries.get? (unlink fs) "link").bind wholeNumber? = none := by
    rw [unlink, get?_amend]
    cases Entries.get? fs "link" <;> rfl
  rw [readSlot, hname, hlink]
  rfl

/-- What is no list has no slots. -/
theorem eq_nil_of_readSlots {v : Json} {ss : List Slot} (hlist : v.items? = none)
    (h : readSlots v = .ok ss) : ss = [] := by
  cases v with
  | arr items => cases hlist
  | str s => exact (Except.ok.inj h).symm
  | obj fs => exact (Except.ok.inj h).symm
  | _ =>
    simp only [readSlots] at h
    split at h
    · cases h
    · exact (Except.ok.inj h).symm

theorem readSlots_atPlaces {f : Nat → Fields → Fields} {v : Json} {ss : List Slot}
    (h : ∀ k fs, (v.items?.getD [])[k]?.bind Json.fields? = some fs →
      R (readSlot fs) (readSlot (f k fs)))
    (hv : readSlots v = .ok ss) :
    ∃ ss', readSlots (atPlaces f v) = .ok ss' ∧ List.Forall₂ R ss ss' := by
  cases v with
  | arr items =>
    obtain rfl := Except.ok.inj hv
    refine ⟨_, rfl, ?_⟩
    rw [List.forall₂_map_left_iff, List.forall₂_map_right_iff]
    exact forall₂_mapIdx_onFields h
  | _ =>
    obtain rfl := eq_nil_of_readSlots rfl hv
    exact ⟨[], hv, .nil⟩

/-- **A node without some links is read as the node with other slots.** -/
theorem reslotted_readItem {picked : Nat → Bool} {fs : Fields}
    (h : ∀ k slot, ((entryOf fs "inputs").items?.getD [])[k]?.bind Json.fields? = some slot →
      R (readSlot slot) (readSlot (if picked k then unlink slot else slot)))
    (id : Int) : (readItem id fs).Reslotted R (readItem id (unlinkSlots picked fs)) := by
  have hkept : ∀ name, name ≠ "inputs" →
      Entries.get? (unlinkSlots picked fs) name = Entries.get? fs name := fun name hne =>
    get?_amend_of_not_mem (by simpa [Entries.keys] using hne) fs
  have hrest : readItem id (unlinkSlots picked fs) =
      { readItem id fs with slots := readSlots (entryOf (unlinkSlots picked fs) "inputs") } := by
    rw [readItem]
    dsimp only
    rw [hkept "type" (by decide), hkept "title" (by decide), hkept "mode" (by decide),
      hkept "widgets_values" (by decide), hkept "pos" (by decide)]
    rfl
  have hslots : readSlots (entryOf (unlinkSlots picked fs) "inputs") =
      readSlots (atPlaces (fun k slot => if picked k then unlink slot else slot)
        (entryOf fs "inputs")) :=
    entryOf_amend readSlots (fun v => readSlots (atPlaces _ v)) (fun _ => rfl) rfl fs rfl
  refine ⟨_, hrest, fun ss hss => ?_⟩
  rw [hslots]
  exact readSlots_atPlaces h hss

theorem forall₂_put {α β : Type} {Q : α → β → Prop} {es : List (String × α)}
    {es' : List (String × β)} (h : List.Forall₂ (fun e e' => e.1 = e'.1 ∧ Q e.2 e'.2) es es')
    (key : String) {v : α} {v' : β} (hv : Q v v') :
    List.Forall₂ (fun e e' => e.1 = e'.1 ∧ Q e.2 e'.2) (Entries.put es key v)
      (Entries.put es' key v') := by
  induction h with
  | nil => exact .cons ⟨rfl, hv⟩ .nil
  | @cons e e' es es' he hes ih =>
    obtain ⟨k, w⟩ := e
    obtain ⟨k', w'⟩ := e'
    obtain rfl : k = k' := he.1
    rw [Entries.put, Entries.put]
    by_cases hk : k = key
    · rw [if_pos hk, if_pos hk]
      exact .cons ⟨rfl, hv⟩ hes
    · rw [if_neg hk, if_neg hk]
      exact .cons he ih

theorem reslotted_readItems {Q : Fields → Fields → Prop} {vs vs' : List Json}
    (hQ : ∀ fs fs', Q fs fs' → Entries.get? fs' "id" = Entries.get? fs "id" ∧
      ∀ id, (readItem id fs).Reslotted R (readItem id fs'))
    (h : List.Forall₂ Q (vs.filterMap Json.fields?) (vs'.filterMap Json.fields?)) :
    List.Forall₂ (fun e e' => e.1 = e'.1 ∧ e.2.Reslotted R e'.2) (readItems vs).entries
      (readItems vs').entries := by
  have hempty : List.Forall₂ (fun e e' => e.1 = e'.1 ∧ Item.Reslotted R e.2 e'.2)
      (Dict.empty : Dict Item).entries (Dict.empty : Dict Item).entries := .nil
  -- each node is written to what was read before it
  refine List.rel_foldl (P := fun d d' : Dict Item =>
    List.Forall₂ (fun e e' => e.1 = e'.1 ∧ Item.Reslotted R e.2 e'.2) d.entries d'.entries)
    (fun d d' hd fs fs' hfs => ?_) hempty h
  obtain ⟨hid, hitem⟩ := hQ fs fs' hfs
  rw [hid]
  cases (Entries.get? fs "id").bind wholeNumber? with
  | none => exact hd
  | some id =>
    dsimp only
    split
    · exact hd
    · exact forall₂_put hd _ (hitem id)

theorem listed_unlinked {name : String} (hne : name ≠ "nodes") :
    listed (unlinked chosen document) name = listed document name := by
  rw [listed, unlinked, get?_amend_of_not_mem (by simpa [Entries.keys] using hne), listed]

theorem nodes_unlinked :
    listed (unlinked chosen document) "nodes" =
      (listed document "nodes").mapIdx fun n => onFields (unlinkSlots (chosen n)) := by
  rw [listed, unlinked, get?_amend, listed]
  cases Entries.get? document "nodes" with
  | none => rfl
  | some v => cases v <;> rfl

/-- A document without some links can be read. -/
theorem exists_ofFields_unlinked (h : ofFields document = .ok l) :
    ∃ l', ofFields (unlinked chosen document) = .ok l' := by
  rw [ofFields] at h ⊢
  rw [unlinked, get?_amend]
  obtain ⟨vs, hvs, -⟩ := exists_of_map_eq_ok h
  cases hv : Entries.get? document "nodes" with
  | none => exact ⟨_, rfl⟩
  | some v =>
    rw [hv] at hvs
    cases v with
    | arr items => exact ⟨_, rfl⟩
    | _ => exact ⟨_, congrArg (Except.map _) hvs⟩

/-- **A document without some links is read as the layout with other slots**, if the slots of the
document and those that take their place are related. -/
theorem ofFields_unlinked (h : ofFields document = .ok l)
    (hR : ∀ n k slot, slotAt? document n k = some slot →
      R (readSlot slot) (readSlot (if chosen n k then unlink slot else slot))) :
    ∃ l', ofFields (unlinked chosen document) = .ok l' ∧ Reslotted R l l' := by
  obtain ⟨l', hl'⟩ : ∃ l', ofFields (unlinked chosen document) = .ok l' :=
    exists_ofFields_unlinked h
  obtain ⟨hwires, hframes⟩ := tables_of_ofFields h
  obtain ⟨hwires', hframes'⟩ := tables_of_ofFields hl'
  refine ⟨l', hl', ?_, ?_, ?_⟩
  · rw [items_of_ofFields h, items_of_ofFields hl', nodes_unlinked]
    refine reslotted_readItems (Q := fun fs fs' => ∃ n, (listed document "nodes")[n]?.bind
      Json.fields? = some fs ∧ fs' = unlinkSlots (chosen n) fs) ?_ ?_
    · rintro fs _ ⟨n, hfs, rfl⟩
      refine ⟨get?_amend_of_not_mem (by simp [Entries.keys]) fs,
        reslotted_readItem fun k slot hslot => ?_⟩
      refine hR n k slot ?_
      rw [slotAt?, hfs]
      exact hslot
    · exact forall₂_mapIdx_onFields fun n fs hfs => ⟨n, hfs, rfl⟩
  · rw [hwires, hwires', listed_unlinked (by decide)]
  · rw [hframes, hframes', listed_unlinked (by decide)]

/-! ## Walks -/

/-- A link leads to no output but lost ones. -/
def Loses (l : Layout) (lost : Wire → Prop) (link : Int) : Prop :=
  ∀ wire, l.sourceOf link = .ok (some wire) → lost wire

/-- A slot is left alone, or a link of it is taken away that leads to no output but lost ones. -/
def Unlinks (l : Layout) (lost : Wire → Prop) (s s' : Slot) : Prop :=
  s' = s ∨ s' = { s with link := none } ∧ ∀ link, s.link = some link → l.Loses lost link

/-- What is found is found still, or it is lost. -/
def Fades {α : Type} (lost : α → Prop) (found found' : Option α) : Prop :=
  found' = found ∨ found' = none ∧ ∀ a, found = some a → lost a

variable {lost : Wire → Prop} {hops more : Nat} {link : Int} {wire : Wire} {found : Option Wire}
variable {s s' : Slot} {ss ss' : List Slot} {i i' : Item} {schema : Schema}

/-- An output that is found is found with more hops too. -/
theorem walk_mono (h : l.walk hops link = .ok (some wire)) (hle : hops ≤ more) :
    l.walk more link = .ok (some wire) := by
  induction hops generalizing link more with
  | zero => cases h
  | succ hops ih =>
    obtain ⟨more, rfl⟩ : ∃ m, more = m + 1 := ⟨more - 1, by omega⟩
    rw [walk] at h ⊢
    obtain ⟨step, hstep, h⟩ := exists_of_bind_eq_ok h
    rw [hstep]
    cases step with
    | ends found => exact h
    | goes next => exact ih h (by omega)

/-- Under a key there is a node in both layouts, or in neither. -/
theorem Reslotted.get?_items (h : Reslotted R l l') (key : String) :
    (l.items.get? key = none ∧ l'.items.get? key = none) ∨
      ∃ i i', l.items.get? key = some i ∧ l'.items.get? key = some i' ∧ i.Reslotted R i' := by
  have hitems := h.items
  unfold Dict.get?
  generalize l.items.entries = es at hitems ⊢
  generalize l'.items.entries = es' at hitems ⊢
  induction hitems with
  | nil => exact Or.inl ⟨rfl, rfl⟩
  | cons he _ ih =>
    rw [Entries.get?_cons, Entries.get?_cons, ← he.1]
    split
    · exact Or.inr ⟨_, _, rfl, rfl, he.2⟩
    · exact ih

/-- The link that a reroute passes on is the same, or it is taken away. -/
theorem through_reslotted (h : List.Forall₂ (l.Unlinks lost) ss ss') :
    Step.through ss' = Step.through ss ∨
      ∃ next, Step.through ss = .goes next ∧ Step.through ss' = .ends none ∧ l.Loses lost next := by
  cases h with
  | nil => exact Or.inl rfl
  | @cons s s' rest rest' hs _ =>
    rcases hs with rfl | ⟨rfl, hloses⟩
    · exact Or.inl rfl
    · cases hlink : s.link with
      | none => exact Or.inl (by simp [Step.through, passedLink?, hlink])
      | some next =>
        refine Or.inr ⟨next, ?_, ?_, hloses next hlink⟩ <;> simp [Step.through, passedLink?, hlink]

/-- **A step is the same, or it goes on no more** to where no output is but lost ones. -/
theorem step_reslotted {step : Step} (h : Reslotted (l.Unlinks lost) l l')
    (hstep : l.step link = .ok step) :
    ∃ step', l'.step link = .ok step' ∧
      (step' = step ∨ ∃ next, step = .goes next ∧ step' = .ends none ∧ l.Loses lost next) := by
  unfold Layout.step at hstep ⊢
  rw [h.wires]
  cases hwire : l.wires.get? (idText link) with
  | none =>
    rw [hwire] at hstep
    exact ⟨step, hstep, Or.inl rfl⟩
  | some wire =>
    rw [hwire] at hstep
    dsimp only at hstep ⊢
    rcases h.get?_items wire.source with ⟨hnone, hnone'⟩ |
      ⟨item, _, hsome, hsome', slots, rfl, hslots⟩
    · rw [hnone] at hstep
      rw [hnone']
      exact ⟨step, hstep, Or.inl rfl⟩
    · rw [hsome] at hstep
      rw [hsome']
      dsimp only at hstep ⊢
      have hreroute : Item.isReroute { item with slots := slots } = item.isReroute := rfl
      rw [hreroute]
      split at hstep
      · rename_i hpasses
        obtain ⟨ss, hss, rfl⟩ := exists_of_map_eq_ok hstep
        obtain ⟨ss', rfl, hrelated⟩ := hslots ss hss
        rw [if_pos hpasses]
        exact ⟨Step.through ss', rfl, through_reslotted hrelated⟩
      · rename_i hends
        rw [if_neg hends]
        exact ⟨step, hstep, Or.inl rfl⟩

/-- **A walk ends where it ended, or nowhere**, and then its end was lost. -/
theorem walk_reslotted (h : Reslotted (l.Unlinks lost) l l') (hle : hops ≤ maxHops)
    (hwalk : l.walk hops link = .ok found) :
    ∃ found', l'.walk hops link = .ok found' ∧ Fades lost found found' := by
  induction hops generalizing link with
  | zero => exact ⟨found, hwalk, Or.inl rfl⟩
  | succ hops ih =>
    rw [walk] at hwalk ⊢
    obtain ⟨step, hstep, hwalk⟩ := exists_of_bind_eq_ok hwalk
    obtain ⟨step', hstep', hcases⟩ := step_reslotted h hstep
    rw [hstep']
    rcases hcases with rfl | ⟨next, rfl, rfl, hloses⟩
    · cases step' with
      | ends wire => exact ⟨found, hwalk, Or.inl rfl⟩
      | goes next => exact ih (by omega) hwalk
    · refine ⟨none, rfl, Or.inr ⟨rfl, fun wire hwire => hloses wire ?_⟩⟩
      rw [sourceOf_eq_walk]
      have hnext : l.walk hops next = .ok (some wire) := by
        rw [← hwire]
        exact hwalk
      exact walk_mono hnext (by omega)

theorem sourceOf_reslotted (h : Reslotted (l.Unlinks lost) l l')
    (hsource : l.sourceOf link = .ok found) :
    ∃ found', l'.sourceOf link = .ok found' ∧ Fades lost found found' := by
  rw [sourceOf_eq_walk] at hsource ⊢
  exact walk_reslotted h (Nat.le_refl maxHops) hsource

/-! ## Connections -/

/-- **The connection of a slot is the same, or there is none**, and then it was to a lost output. -/
theorem connection?_reslotted {c : Option (String × Wire)} (h : Reslotted (l.Unlinks lost) l l')
    (hs : l.Unlinks lost s s') (hc : l.connection? s = .ok c) :
    ∃ c', l'.connection? s' = .ok c' ∧ Fades (fun e => lost e.2) c c' := by
  rcases hs with rfl | ⟨rfl, hloses⟩
  · unfold connection? at hc ⊢
    split at hc
    · obtain ⟨found, hfound, rfl⟩ := exists_of_map_eq_ok hc
      obtain ⟨found', hfound', hfades⟩ := sourceOf_reslotted h hfound
      rw [hfound']
      refine ⟨_, rfl, ?_⟩
      rcases hfades with rfl | ⟨rfl, hlost⟩
      · exact Or.inl rfl
      · refine Or.inr ⟨rfl, fun e he => ?_⟩
        obtain ⟨wire, hwire, rfl⟩ := Option.map_eq_some_iff.1 he
        exact hlost wire hwire
    · exact ⟨c, hc, Or.inl rfl⟩
  · have hnone : l'.connection? { s with link := none } = .ok none := by
      unfold connection?
      split
      · rename_i hlink
        cases hlink
      · rfl
    refine ⟨none, hnone, Or.inr ⟨rfl, ?_⟩⟩
    rintro ⟨name, wire⟩ rfl
    obtain ⟨-, link, hlink, hsource⟩ := connection?_eq_some_iff.1 hc
    exact hloses link hlink wire hsource

/-- **Inputs that are related stay related** while slots are connected, if each connection that is
made, or fades, leaves them so. -/
theorem connectSlots_reslotted {P : Dict InputValue → Dict InputValue → Prop}
    {inputs inputs' filled : Dict InputValue} (h : Reslotted (l.Unlinks lost) l l')
    (hss : List.Forall₂ (l.Unlinks lost) ss ss')
    (hstep : ∀ s ∈ ss, ∀ c c' d d', l.connection? s = .ok c → Fades (fun e => lost e.2) c c' →
      P d d' → P (connect d c) (connect d' c'))
    (hP : P inputs inputs') (hrun : l.connectSlots ss inputs = .ok filled) :
    ∃ filled', l'.connectSlots ss' inputs' = .ok filled' ∧ P filled filled' := by
  induction hss generalizing inputs inputs' with
  | nil =>
    cases hrun
    exact ⟨inputs', rfl, hP⟩
  | @cons s s' ss ss' hs hss ih =>
    rw [connectSlots_cons] at hrun ⊢
    obtain ⟨c, hc, hrun⟩ := exists_of_bind_eq_ok hrun
    obtain ⟨_, hshort, hrun⟩ := exists_of_bind_eq_ok hrun
    obtain ⟨c', hc', hfades⟩ := connection?_reslotted h hs hc
    have hshort' : withinLimit (c'.all fun e => e.2.isShort) () = .ok () := by
      rcases hfades with rfl | ⟨rfl, -⟩
      · exact hshort
      · rfl
    rw [hc']
    show ∃ filled', (withinLimit (c'.all fun e => e.2.isShort) () >>= _) = _ ∧ _
    rw [hshort']
    exact ih (fun t ht => hstep t (List.mem_cons_of_mem _ ht))
      (hstep s List.mem_cons_self c c' _ _ hc hfades hP) hrun

/-! ## Workflows -/

/-- Two placed nodes agree but for their inputs. -/
def SameShell (p p' : Placed) : Prop :=
  p' = { p with node := { p.node with inputs := p'.node.inputs } }

theorem convert_reslotted {p : Placed} (h : Reslotted (l.Unlinks lost) l l')
    (hi : i.Reslotted (l.Unlinks lost) i') (hp : l.convert schema i = .ok p) :
    ∃ p', l'.convert schema i' = .ok p' ∧ SameShell p p' := by
  obtain ⟨hshort, ss, hss, hrun, hplace, hnode⟩ := convert_eq_ok_iff.1 hp
  obtain ⟨slots, rfl, hslots⟩ := hi
  obtain ⟨ss', rfl, hrelated⟩ := hslots ss hss
  have hruns : ∃ inputs, l'.connectSlots ss' (literalsOf schema i) = .ok inputs ∧ True :=
    connectSlots_reslotted (P := fun _ _ => True) h hrelated
      (fun _ _ _ _ _ _ _ _ _ => trivial) trivial hrun
  obtain ⟨inputs, hinputs, -⟩ := hruns
  refine ⟨⟨{ p.node with inputs := inputs }, p.place⟩, ?_, rfl⟩
  refine convert_eq_ok_iff.2 ⟨hshort, ss', rfl, hinputs, hplace, ?_⟩
  rw [hnode]

/-- Two parts are the same note, or placed nodes that agree but for their inputs. -/
def SamePart : Note ⊕ Placed → Note ⊕ Placed → Prop := Sum.LiftRel Eq SameShell

theorem convertItem_reslotted {part : Note ⊕ Placed} (h : Reslotted (l.Unlinks lost) l l')
    (hi : i.Reslotted (l.Unlinks lost) i') (hpart : l.convertItem schema i = .ok part) :
    ∃ part', l'.convertItem schema i' = .ok part' ∧ SamePart part part' := by
  obtain ⟨hkind, htext⟩ : i'.isNote = i.isNote ∧ toNote i' = toNote i := by
    obtain ⟨slots, rfl, -⟩ := hi
    exact ⟨rfl, rfl⟩
  rw [convertItem] at hpart ⊢
  rw [hkind, htext]
  split at hpart
  · rename_i hnote
    obtain ⟨n, hn, rfl⟩ := exists_of_map_eq_ok hpart
    rw [if_pos hnote]
    exact ⟨.inl n, hpart, .inl rfl⟩
  · rename_i hnote
    obtain ⟨p, hp, rfl⟩ := exists_of_map_eq_ok hpart
    obtain ⟨p', hp', hsame⟩ := convert_reslotted h hi hp
    rw [if_neg hnote, hp']
    exact ⟨.inr p', rfl, .inr hsame⟩

/-- Notes that are made of parts are the same, and nodes agree but for their inputs. -/
theorem filterMap_of_samePart {parts parts' : List (Note ⊕ Placed)}
    (h : List.Forall₂ SamePart parts parts') :
    parts'.filterMap Sum.getLeft? = parts.filterMap Sum.getLeft? ∧
      List.Forall₂ SameShell (parts.filterMap Sum.getRight?)
        (parts'.filterMap Sum.getRight?) := by
  constructor
  · have hleft : Relator.LiftFun SamePart (Option.Rel Eq) Sum.getLeft? Sum.getLeft? := by
      rintro _ _ (hn | hp)
      · exact .some hn
      · exact .none
    have hnotes := List.rel_filterMap hleft h
    rw [List.forall₂_eq_eq_eq] at hnotes
    exact hnotes.symm
  · have hright : Relator.LiftFun SamePart (Option.Rel SameShell) Sum.getRight? Sum.getRight? := by
      rintro _ _ (hn | hp)
      · exact .none
      · exact .some hp
    exact List.rel_filterMap hright h

theorem Reslotted.values (h : Reslotted R l l') :
    List.Forall₂ (Item.Reslotted R) l.items.values l'.items.values := by
  unfold Dict.values
  rw [List.forall₂_map_left_iff, List.forall₂_map_right_iff]
  exact h.items.imp fun _ _ he => he.2

theorem Reslotted.converted (h : Reslotted R l l') :
    List.Forall₂ (Item.Reslotted R) l.converted l'.converted := by
  refine List.rel_filter ?_ h.values
  rintro i _ ⟨slots, rfl, -⟩
  exact Iff.rfl

theorem Reslotted.ordinary (h : Reslotted R l l') :
    List.Forall₂ (Item.Reslotted R) l.ordinary l'.ordinary := by
  refine List.rel_filter ?_ h.values
  rintro i _ ⟨slots, rfl, -⟩
  exact Iff.rfl

theorem Reslotted.warnings_eq (h : Reslotted R l l') (schema : Schema) :
    l'.warnings schema = l.warnings schema := by
  refine (map_eq_of_forall₂ (List.rel_filter ?_ h.ordinary) ?_).symm
  · rintro i _ ⟨slots, rfl, -⟩
    exact Iff.rfl
  · rintro i _ ⟨slots, rfl, -⟩
    rfl

/-- Groups are made by ids and places. -/
theorem groups_of_sameShell {placed placed' : List Placed}
    (h : List.Forall₂ SameShell placed placed') (frames : List Frame) :
    groups placed' frames = groups placed frames := by
  have hmembers : ∀ box : Box,
      (placed'.filter fun p => p.place.any box.contains).map (fun p => p.node.id) =
        (placed.filter fun p => p.place.any box.contains).map fun p => p.node.id := by
    intro box
    refine (map_eq_of_forall₂ (List.rel_filter ?_ h) fun p p' hp => ?_).symm
    · intro p p' hp
      rw [hp]
    · rw [hp]
  induction frames with
  | nil => rfl
  | cons f rest ih =>
    rw [groups, groups, ih]
    cases f.box with
    | error e => rfl
    | ok box =>
      cases box with
      | none => rfl
      | some box =>
        dsimp only
        rw [hmembers]

/-- **The workflow of a layout without some links** is the same but for inputs. -/
theorem toGraph_reslotted {g : Graph} (h : Reslotted (l.Unlinks lost) l l')
    (hg : l.toGraph schema = .ok g) : ∃ g', l'.toGraph schema = .ok g' ∧ g'.shell = g.shell := by
  rw [toGraph] at hg ⊢
  obtain ⟨parts, hparts, hg⟩ := exists_of_bind_eq_ok hg
  obtain ⟨gs, hgs, hg⟩ := exists_of_bind_eq_ok hg
  obtain rfl := Except.ok.inj hg
  obtain ⟨parts', hparts', hrelated⟩ :=
    mapM_of_forall₂ h.converted (fun _ _ _ hi hp => convertItem_reslotted h hi hp) hparts
  obtain ⟨hnotes, hsame⟩ := filterMap_of_samePart hrelated
  rw [hparts']
  show ∃ g', (groups (parts'.filterMap Sum.getRight?) l'.frames >>= _) = _ ∧ _
  rw [hnotes]
  generalize parts.filterMap Sum.getRight? = placed at hgs hsame
  generalize parts'.filterMap Sum.getRight? = placed' at hsame
  have hgs' : groups placed' l'.frames = .ok gs := by
    rw [groups_of_sameShell hsame, h.frames, hgs]
  rw [hgs']
  refine ⟨_, rfl, ?_⟩
  have hnodes : placed'.map (fun p => (p.node.id, p.node.shell)) =
      placed.map fun p => (p.node.id, p.node.shell) :=
    (map_eq_of_forall₂ hsame fun p p' hp => by rw [hp]; rfl).symm
  have hshell : ∀ placed : List Placed, (Dict.ofList (placed.map fun p =>
      (p.node.id, dropDangling (placed.map fun p => p.node.id) p.node))).map
        (fun _ n => n.shell) = .ofList (placed.map fun p => (p.node.id, p.node.shell)) := by
    intro placed
    rw [Dict.map_ofList, List.map_map]
    rfl
  show Graph.mk _ _ _ _ _ = Graph.mk _ _ _ _ _
  rw [hshell, hshell, hnodes]

end Layout

end NodeFlow
