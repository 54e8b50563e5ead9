import NodeFlow.Proofs.Layout.Ending
/-!
# Which output a link starts at

A route is a row of links: each but the last starts at a reroute that passes
on the next one, and the last starts at a node of any other kind. From a link
there is at most one, and it comes to no link twice, so neither the limit of
links nor the memory of the search for an output leaves a choice. The search
finds what a route within the limit ends at, whatever else is malformed
(`followsRoutes_of_isLayout`); but where there is no such route, slots that
cannot be gone through on the way are a failure.
-/

namespace NodeFlow.Layout

open Relation (ReflTransGen TransGen)

variable {document fs gs : Fields} {l : Layout} {link next : Int} {links rest rest' : List Int}
variable {wire wire' : Wire} {hops : Nat}

/-! ## Routes -/

/-- A link starts at a reroute that passes another one on: the first of its slots carries it. -/
def Passes (document : Fields) (link next : Int) : Prop :=
  ∃ fs, RerouteAt document link fs ∧ passedLink? (slotsOf fs) = some next

/-- The links from one on, through reroutes, to an output of a node that is none. -/
inductive Route (document : Fields) : List Int → Wire → Prop where
  | ends {link : Int} {wire : Wire} (hend : EndsAt document link wire) : Route document [link] wire
  | through {link next : Int} {rest : List Int} {wire : Wire} (hnext : Passes document link next)
      (hrest : Route document (next :: rest) wire) : Route document (link :: next :: rest) wire

theorem EndsAt.not_passes (h : EndsAt document link wire) : ¬ Passes document link next := by
  rintro ⟨fs, hfs, -⟩
  exact h.not_rerouteAt hfs

theorem EndsAt.unique (h : EndsAt document link wire) (h' : EndsAt document link wire') :
    wire = wire' :=
  Option.some.inj (h.1.symm.trans h'.1)

theorem Passes.unique {next' : Int} (h : Passes document link next)
    (h' : Passes document link next') : next = next' := by
  obtain ⟨fs, hfs, hnext⟩ := h
  obtain ⟨gs, hgs, hnext'⟩ := h'
  obtain rfl := hfs.unique hgs
  exact Option.some.inj (hnext.symm.trans hnext')

/-- **From a link there is one route**, to one output. -/
theorem Route.unique (h : Route document (link :: rest) wire)
    (h' : Route document (link :: rest') wire') : rest = rest' ∧ wire = wire' := by
  -- along the first route; the second has no other way to go
  generalize hlinks : link :: rest = links at h
  induction h generalizing link rest rest' with
  | ends hend =>
    obtain ⟨rfl, rfl⟩ := List.cons.inj hlinks
    cases h' with
    | ends hend' => exact ⟨rfl, hend.unique hend'⟩
    | through hnext' _ => exact absurd hnext' hend.not_passes
  | through hnext _ ih =>
    obtain ⟨rfl, rfl⟩ := List.cons.inj hlinks
    cases h' with
    | ends hend' => exact absurd hnext hend'.not_passes
    | through hnext' hrest' =>
      obtain rfl := hnext.unique hnext'
      obtain ⟨rfl, rfl⟩ := ih hrest' rfl
      exact ⟨rfl, rfl⟩

/-- From each of its links on, a route is a route. -/
theorem Route.of_append {before : List Int} (h : Route document (before ++ link :: rest) wire) :
    Route document (link :: rest) wire := by
  induction before with
  | nil => exact h
  | cons m before ih =>
    refine ih ?_
    rw [List.cons_append] at h
    generalize htail : before ++ link :: rest = tail at h
    cases h with
    | ends _ => simp at htail
    | through _ hrest => exact hrest

/-- **A route comes to no link twice**: from there on it would be two routes of different
lengths. -/
theorem Route.nodup (h : Route document links wire) : links.Nodup := by
  induction h with
  | ends hend => exact List.nodup_singleton _
  | @through link next rest wire hnext hrest ih =>
    refine List.nodup_cons.2 ⟨fun hmem => ?_, ih⟩
    obtain ⟨before, after, hsplit⟩ := List.append_of_mem hmem
    have hagain : Route document (link :: after) wire := by
      rw [hsplit] at hrest
      exact hrest.of_append
    obtain ⟨hafter, -⟩ := Route.unique (.through hnext hrest) hagain
    have hlength := congrArg List.length hsplit
    rw [hafter, List.length_append, List.length_cons] at hlength
    omega

/-- A route through a reroute goes on with the link that this passes on. -/
theorem route_cons_iff_of_rerouteAt (h : RerouteAt document link fs) :
    Route document (link :: rest) wire ↔
      ∃ next rest', passedLink? (slotsOf fs) = some next ∧ rest = next :: rest' ∧
        Route document (next :: rest') wire := by
  constructor
  · intro hroute
    cases hroute with
    | ends hend => exact absurd h hend.not_rerouteAt
    | through hnext hrest =>
      obtain ⟨gs, hgs, hnext⟩ := hnext
      obtain rfl := h.unique hgs
      exact ⟨_, _, hnext, rfl, hrest⟩
  · rintro ⟨next, rest', hnext, rfl, hrest⟩
    exact .through ⟨fs, h, hnext⟩ hrest

/-- And where its link starts at no reroute, it ends there. -/
theorem route_cons_iff_of_not_rerouteAt (h : ∀ fs, ¬ RerouteAt document link fs) :
    Route document (link :: rest) wire ↔ rest = [] ∧ EndsAt document link wire := by
  constructor
  · intro hroute
    cases hroute with
    | ends hend => exact ⟨rfl, hend⟩
    | through hnext _ =>
      obtain ⟨fs, hfs, -⟩ := hnext
      exact absurd hfs (h fs)
  · rintro ⟨rfl, hend⟩
    exact .ends hend

/-! ## Walks along routes -/

/-- What cannot be gone through has no slots. -/
theorem slotsOf_of_not_isListable (h : ¬ isListable (entryOf fs "inputs")) : slotsOf fs = [] := by
  rw [slotsOf]
  cases hv : entryOf fs "inputs" with
  | arr items =>
    rw [hv] at h
    exact absurd rfl h
  | _ => rfl

/-- **A walk finds an output exactly at the end of a route** that is not too long for it. -/
theorem walk_eq_some_iff (h : ofFields document = .ok l) :
    l.walk hops link = .ok (some wire) ↔
      ∃ rest, rest.length < hops ∧ Route document (link :: rest) wire := by
  induction hops generalizing link with
  | zero =>
    constructor
    · intro hwalk
      cases hwalk
    · rintro ⟨rest, hlt, -⟩
      exact absurd hlt (Nat.not_lt_zero _)
  | succ hops ih =>
    rw [walk]
    rcases step_cases h link with ⟨fs, hfirst, hstep⟩ | ⟨w, hend, hstep⟩ | ⟨hnone, hno, hstep⟩
    · -- through a reroute, by the link that it passes on
      have hroute : (∃ rest, rest.length < hops + 1 ∧ Route document (link :: rest) wire) ↔
          ∃ next, passedLink? (slotsOf fs) = some next ∧
            ∃ rest, rest.length < hops ∧ Route document (next :: rest) wire := by
        simp only [route_cons_iff_of_rerouteAt hfirst]
        constructor
        · rintro ⟨rest, hlt, next, rest', hnext, rfl, hrest⟩
          exact ⟨next, hnext, rest', Nat.lt_of_succ_lt_succ hlt, hrest⟩
        · rintro ⟨next, hnext, rest, hlt, hrest⟩
          exact ⟨next :: rest, Nat.succ_lt_succ hlt, next, rest, hnext, rfl, hrest⟩
      rw [hstep, hroute, readSlots_eq]
      by_cases hlist : isListable (entryOf fs "inputs")
      · rw [if_pos hlist]
        show (Step.through (slotsOf fs)).andThen (l.walk hops) = _ ↔ _
        rw [Step.through]
        cases hnext : passedLink? (slotsOf fs) with
        | none =>
          constructor
          · intro hwalk
            cases hwalk
          · rintro ⟨next, hsome, -⟩
            cases hsome
        | some next =>
          rw [show (Step.goes next).andThen (l.walk hops) = l.walk hops next from rfl, ih]
          simp
      · rw [if_neg hlist, slotsOf_of_not_isListable hlist]
        constructor
        · intro hwalk
          cases hwalk
        · rintro ⟨next, hsome, -⟩
          cases hsome
    · -- at an end
      simp only [route_cons_iff_of_not_rerouteAt fun fs => hend.not_rerouteAt]
      rw [hstep]
      constructor
      · intro hwalk
        obtain rfl : w = wire := Option.some.inj (Except.ok.inj hwalk)
        exact ⟨[], Nat.succ_pos hops, rfl, hend⟩
      · rintro ⟨rest, -, -, hend'⟩
        obtain rfl := hend.unique hend'
        rfl
    · -- nowhere
      simp only [route_cons_iff_of_not_rerouteAt hnone]
      rw [hstep]
      constructor
      · intro hwalk
        cases hwalk
      · rintro ⟨rest, -, -, hend⟩
        exact absurd hend (hno wire)

/-- **A walk fails only** on slots that cannot be gone through. -/
theorem eq_wrongType_of_walk_eq_error {e : Fault} (h : ofFields document = .ok l)
    (he : l.walk hops link = .error e) : e = .wrongType := by
  induction hops generalizing link with
  | zero => cases he
  | succ hops ih =>
    rw [walk] at he
    rcases step_cases h link with ⟨fs, -, hstep⟩ | ⟨w, -, hstep⟩ | ⟨-, -, hstep⟩
    · rw [hstep, readSlots_eq] at he
      split at he
      · change (Step.through (slotsOf fs)).andThen (l.walk hops) = _ at he
        rw [Step.through] at he
        split at he
        · exact ih he
        · cases he
      · exact (Except.error.inj he).symm
    · rw [hstep] at he
      cases he
    · rw [hstep] at he
      cases he

/-- A reroute that passes a link on goes to it. -/
theorem goes_of_passes (h : ofFields document = .ok l) (hnext : Passes document link next) :
    l.Goes link next := by
  obtain ⟨fs, hfs, hpassed⟩ := hnext
  rcases step_cases h link with ⟨gs, hgs, hstep⟩ | ⟨w, hend, -⟩ | ⟨hnone, -, -⟩
  · obtain rfl := hfs.unique hgs
    have hlist : isListable (entryOf fs "inputs") := by
      by_contra hlist
      rw [slotsOf_of_not_isListable hlist] at hpassed
      cases hpassed
    rw [Goes, hstep, readSlots_eq, if_pos hlist]
    show Except.ok (Step.through (slotsOf fs)) = _
    rw [Step.through, hpassed]
  · exact absurd hfs hend.not_rerouteAt
  · exact absurd hfs (hnone fs)

/-! ## The search for an output -/

/-- What the search for the output behind a link comes to. -/
structure FollowsRoutes (document : Fields) (l : Layout) (link : Int) : Prop where
  /-- It finds an output exactly where a route with at most `maxHops` links ends at it. -/
  found : ∀ wire, l.sourceOf link = .ok (some wire) ↔
    ∃ rest, (link :: rest).length ≤ maxHops ∧ Route document (link :: rest) wire
  /-- It finds none exactly where there is no such route, and the slots of all reroutes on the way
  can be gone through. -/
  lost : l.sourceOf link = .ok none ↔
    (∀ rest wire, (link :: rest).length ≤ maxHops → ¬ Route document (link :: rest) wire) ∧
      ∀ gs, Meets document maxHops link gs → isListable (entryOf gs "inputs")
  /-- It fails exactly where those of a reroute on the way cannot. -/
  failed : l.sourceOf link = .error .wrongType ↔
    ∃ gs, Meets document maxHops link gs ∧ ¬ isListable (entryOf gs "inputs")
  /-- No other route starts with the link, however long it is. -/
  unique : ∀ rest wire rest' wire', Route document (link :: rest) wire →
    Route document (link :: rest') wire' → rest = rest' ∧ wire = wire'
  /-- And a route comes to no link twice. -/
  once : ∀ rest wire, Route document (link :: rest) wire → (link :: rest).Nodup
  /-- Where reroutes pass links on in a circle, of any length, it finds none. -/
  circle : ∀ m, ReflTransGen (Passes document) link m → TransGen (Passes document) m m →
    l.sourceOf link = .ok none

theorem followsRoutes_of_ofFields (h : ofFields document = .ok l) (link : Int) :
    FollowsRoutes document l link := by
  have hreads := succeedsIff_sourceOf h link
  have hfound : ∀ wire, l.sourceOf link = .ok (some wire) ↔
      ∃ rest, (link :: rest).length ≤ maxHops ∧ Route document (link :: rest) wire := by
    intro wire
    rw [sourceOf_eq_walk, walk_eq_some_iff h]
    simp only [List.length_cons, Nat.succ_le_iff]
  refine ⟨hfound, ⟨?_, ?_⟩, ⟨?_, ?_⟩, fun _ _ _ _ hr hr' => hr.unique hr',
    fun _ _ hr => hr.nodup, ?_⟩
  · intro hnone
    refine ⟨fun rest wire hle hroute => ?_, (hreads.of_ok hnone).1⟩
    have hsome := (hfound wire).2 ⟨rest, hle, hroute⟩
    rw [hnone] at hsome
    cases hsome
  · rintro ⟨hno, hlist⟩
    obtain ⟨found, hrun⟩ := hreads.ok_iff.2 ⟨hlist, trivial⟩
    cases found with
    | none => exact hrun
    | some wire =>
      obtain ⟨rest, hle, hroute⟩ := (hfound wire).1 hrun
      exact absurd hroute (hno rest wire hle)
  · intro herror
    have hno := (hreads.malformed_of_error herror).2
    push Not at hno
    exact hno
  · rintro ⟨gs, hgs, hlist⟩
    cases hrun : l.sourceOf link with
    | ok found => exact absurd ((hreads.of_ok hrun).1 gs hgs) hlist
    | error e =>
      rw [sourceOf_eq_walk] at hrun
      rw [eq_wrongType_of_walk_eq_error h hrun]
  · intro m hto hround
    rw [sourceOf_eq_walk]
    refine walk_of_circles ⟨m, ?_, ?_⟩ maxHops
    · exact ReflTransGen.mono (fun _ _ hnext => goes_of_passes h hnext) _ _ hto
    · exact TransGen.mono (fun _ _ hnext => goes_of_passes h hnext) _ _ hround

/-- **The search for outputs follows routes**, for every layout document and every link. -/
theorem followsRoutes_of_isLayout (h : isLayout document) :
    ∃ l, ofFields document = .ok l ∧ ∀ link, FollowsRoutes document l link := by
  obtain ⟨l, hl⟩ := exists_ofFields h
  exact ⟨l, hl, followsRoutes_of_ofFields hl⟩

/-- Two reroutes behind a loader, two that pass links on in a circle, and a node with a slot for
each pair. -/
def rerouted : Fields :=
  let reroute (id link : Int) : Json :=
    .obj [("id", .int id), ("type", .str "Reroute"),
      ("inputs", .arr [.null, .obj [("name", .str ""), ("link", .int link)]])]
  let slot (name : String) (link : Int) : Json := .obj [("name", .str name), ("link", .int link)]
  let row (link source target : Int) : Json :=
    .arr [.int link, .int source, .int 0, .int target, .int 0, .str "*"]
  [("nodes", .arr [.obj [("id", .int 1), ("type", .str "UNETLoader")],
      reroute 20 1, reroute 21 2, reroute 30 4, reroute 31 5,
      .obj [("id", .int 3), ("type", .str "KSampler"),
        ("inputs", .arr [slot "model" 3, slot "vae" 6])]]),
    ("links", .arr [row 1 1 20, row 2 20 21, row 3 21 3, row 4 31 30, row 5 30 31, row 6 31 3])]

/-- The hypothesis of `followsRoutes_of_isLayout` is met, and two reroutes are followed to the
loader but the circle to nowhere. -/
theorem rerouted_followsRoutes :
    isLayout rerouted ∧ ∃ l, ofFields rerouted = .ok l ∧ (∀ link, FollowsRoutes rerouted l link) ∧
      l.sourceOf 3 = .ok (some ⟨1, 0⟩) ∧ l.sourceOf 6 = .ok none := by
  have hlayout : isLayout rerouted := by decide +kernel
  have hruns : ∀ l, ofFields rerouted = .ok l →
      l.sourceOf 3 = .ok (some ⟨1, 0⟩) ∧ l.sourceOf 6 = .ok none := by
    intro l hl
    have hboth : (ofFields rerouted).toOption.map (fun l =>
        ((l.sourceOf 3).toOption, (l.sourceOf 6).toOption)) =
          some (some (some ⟨1, 0⟩), some none) := by decide +kernel
    rw [hl] at hboth
    obtain ⟨hfound, hlost⟩ := Prod.mk.inj (Option.some.inj hboth)
    exact ⟨eq_ok_of_toOption hfound, eq_ok_of_toOption hlost⟩
  obtain ⟨l, hl, hall⟩ := followsRoutes_of_isLayout hlayout
  exact ⟨hlayout, l, hl, hall, hruns l hl⟩

/-- A reroute with a number in place of its slots, and a link that starts at it. -/
def slotlessReroute : Fields :=
  [("nodes", .arr [.obj [("id", .int 1), ("type", .str "Reroute"), ("inputs", .int 5)]]),
    ("links", .arr [.arr [.int 7, .int 1, .int 0, .int 2, .int 0, .str "*"]])]

/-- **A link without a route need not be lost**: slots that are a number are a failure, although no
route starts with the link. -/
theorem not_lost_slotlessReroute :
    isLayout slotlessReroute ∧ ∃ l, ofFields slotlessReroute = .ok l ∧
      (∀ rest wire, ¬ Route slotlessReroute (7 :: rest) wire) ∧ l.sourceOf 7 ≠ .ok none := by
  have hlayout : isLayout slotlessReroute := by decide +kernel
  obtain ⟨l, hl⟩ := exists_ofFields hlayout
  have hreroute : RerouteAt slotlessReroute 7
      [("id", .int 1), ("type", .str "Reroute"), ("inputs", .int 5)] :=
    ⟨⟨1, 0⟩, by decide +kernel, ⟨1, by decide, by decide +kernel, by decide +kernel⟩,
      by decide +kernel⟩
  refine ⟨hlayout, l, hl, fun rest wire hroute => ?_, fun hnone => ?_⟩
  · obtain ⟨next, rest', hnext, -, -⟩ := (route_cons_iff_of_rerouteAt hreroute).1 hroute
    cases hnext
  · have hlist := ((followsRoutes_of_ofFields hl 7).lost.1 hnone).2 _ (.here hreroute)
    exact absurd hlist (by decide)

end NodeFlow.Layout
