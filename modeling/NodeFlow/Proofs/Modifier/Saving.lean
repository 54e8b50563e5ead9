import NodeFlow.Modifier.Chain
import NodeFlow.Proofs.Json.RoundTrip
/-!
# Chains that are edited, saved and restored

An entry comes into a chain by being read, and is changed by edits that do
not read it again. Strengths are clamped by every edit that sets them, so
they are settled; names are not looked at when an entry is renamed. A saved
chain is restored by rules of its own: names lose the spacing around them,
and an entry without a name is passed over. So a chain comes back as it is
exactly when all its names are savable.
-/

namespace NodeFlow

/-! ## Names without spacing around them -/

namespace Text

variable {p q : Char → Bool} {cs : List Char}

/-- Neither the first character nor the last satisfies `p`. -/
def Bare (p : Char → Bool) (cs : List Char) : Prop :=
  ∀ c, cs.head? = some c ∨ cs.getLast? = some c → p c = false

theorem dropWhile_eq_self (h : ∀ c, cs.head? = some c → p c = false) : cs.dropWhile p = cs := by
  cases cs with
  | nil => rfl
  | cons c cs => simp [h c rfl]

theorem head?_dropWhile_eq_some {c : Char} (h : (cs.dropWhile p).head? = some c) : p c = false := by
  have hnot := List.head?_dropWhile_not p cs
  rw [h] at hnot
  exact hnot

theorem trimChars_eq_self (h : Bare p cs) : trimChars p cs = cs := by
  have hlast : ∀ c, cs.reverse.head? = some c → p c = false := fun c hc =>
    h c (.inr (by rwa [List.head?_reverse] at hc))
  rw [trimChars, dropWhile_eq_self fun c hc => h c (.inl hc), dropWhile_eq_self hlast,
    List.reverse_reverse]

theorem bare_trimChars (p : Char → Bool) (cs : List Char) : Bare p (trimChars p cs) := by
  rintro c (hfirst | hlast)
  · -- what is left ends where the text without its front begins
    obtain ⟨front, hfront⟩ := List.dropWhile_suffix p (l := (cs.dropWhile p).reverse)
    rw [trimChars, List.head?_reverse] at hfirst
    have hwhole : (cs.dropWhile p).reverse.getLast? = some c := by
      rw [← hfront, List.getLast?_append, hfirst, Option.some_or]
    rw [List.getLast?_reverse] at hwhole
    exact head?_dropWhile_eq_some hwhole
  · rw [trimChars, List.getLast?_reverse] at hlast
    exact head?_dropWhile_eq_some hlast

theorem toList_trimSpacing (s : String) :
    (trimSpacing s).toList = trimChars isSpacing s.toList := by
  rw [trimSpacing, String.toList_ofList]

/-- Every blank is spacing, so no blank is left where no spacing is. -/
theorem trimBlank_trimSpacing (s : String) : trimBlank (trimSpacing s) = trimSpacing s := by
  have hbare : Bare isBlank (trimChars isSpacing s.toList) := by
    intro c hc
    have hspacing := bare_trimChars isSpacing s.toList c hc
    rw [← Bool.not_eq_true] at hspacing ⊢
    exact fun hblank => hspacing (isSpacing_of_isBlank hblank)
  rw [trimBlank, toList_trimSpacing, trimChars_eq_self hbare]
  rfl

end Text

/-! ## Strengths within bounds -/

namespace Binary64

variable {x y : Binary64} {a b : Int}

theorem lt_eq_decide (hx : x.rank? = some a) (hy : y.rank? = some b) : x.lt y = decide (a < b) := by
  rw [lt, hx, hy]

theorem le_eq_decide (hx : x.rank? = some a) (hy : y.rank? = some b) : x.le y = decide (a ≤ b) := by
  rw [le, hx, hy]

theorem exists_rank?_of_le (h : x.le y) : ∃ a b, x.rank? = some a ∧ y.rank? = some b ∧ a ≤ b := by
  rw [le] at h
  split at h
  next a b hx hy => exact ⟨a, b, hx, hy, by simpa using h⟩
  next => cases h

theorem exists_rank? (h : x.isNaN = false) : ∃ a, x.rank? = some a := by
  rw [rank?, h]
  exact ⟨_, rfl⟩

theorem lt_irrefl (x : Binary64) : x.lt x = false := by
  rw [lt]
  split
  next a b ha hb =>
    obtain rfl : a = b := by simpa [ha] using hb
    simp
  next => rfl

end Binary64

namespace Selection

variable {cfg : CompilerSettings} {x : Binary64} {s : Selection} {v : Json}

/-- The bounds leave the strength as it is. -/
def Settled (cfg : CompilerSettings) (x : Binary64) : Prop := clamp cfg x = x

theorem settled_max (cfg : CompilerSettings) : Settled cfg cfg.maxStrength := by
  rw [Settled, clamp]
  cases hcross : cfg.maxStrength.lt cfg.minStrength <;> simp [hcross, Binary64.lt_irrefl]

/-- Clamping settles a strength, whatever the bounds. -/
theorem settled_clamp (cfg : CompilerSettings) (x : Binary64) : Settled cfg (clamp cfg x) := by
  by_cases hcut : clamp cfg x = cfg.maxStrength
  · rw [hcut]
    exact settled_max cfg
  · -- nothing was cut off at the top, so the strength is the raised one
    have hraised : clamp cfg x = if x.lt cfg.minStrength then cfg.minStrength else x := by
      rw [clamp] at hcut ⊢
      exact if_neg fun htop => hcut (if_pos htop)
    have htop : cfg.maxStrength.lt (clamp cfg x) = false := by
      rw [hraised, ← Bool.not_eq_true]
      exact fun htop => hcut (if_pos htop)
    have hlow : (clamp cfg x).lt cfg.minStrength = false := by
      rw [hraised]
      split
      next => exact Binary64.lt_irrefl _
      next h => simpa using h
    rw [Settled, clamp, hlow]
    simp [htop]

/-- **A settled strength is within the bounds**, unless it is no number or the bounds are in the
wrong order. -/
theorem Settled.within (h : Settled cfg x) (hbounds : cfg.minStrength.le cfg.maxStrength)
    (hx : x.isNaN = false) : cfg.minStrength.le x ∧ x.le cfg.maxStrength := by
  obtain ⟨low, high, hlow, hhigh, hle⟩ := Binary64.exists_rank?_of_le hbounds
  obtain ⟨a, ha⟩ := Binary64.exists_rank? hx
  have hcross : cfg.maxStrength.lt cfg.minStrength = false := by
    simpa [Binary64.lt_eq_decide hhigh hlow] using hle
  rw [Settled, clamp] at h
  rw [Binary64.le_eq_decide hlow ha, Binary64.le_eq_decide ha hhigh, decide_eq_true_iff,
    decide_eq_true_iff]
  by_cases hbelow : x.lt cfg.minStrength
  · -- raised to the least strength it would be another one
    obtain rfl : cfg.minStrength = x := by simpa [hbelow, hcross] using h
    simp [Binary64.lt_irrefl] at hbelow
  by_cases habove : cfg.maxStrength.lt x
  · obtain rfl : cfg.maxStrength = x := by simpa [hbelow, habove] using h
    simp [Binary64.lt_irrefl] at habove
  rw [Binary64.lt_eq_decide ha hlow, decide_eq_true_iff] at hbelow
  rw [Binary64.lt_eq_decide hhigh ha, decide_eq_true_iff] at habove
  omega

/-! ## Names that are read -/

/-- A name that is saved and restored as it is. -/
structure Savable (name : String) : Prop where
  nonempty : name ≠ ""
  bare : Text.trimSpacing name = name
  short : name.length ≤ maxNameLength

theorem readName_str (name : String) :
    readName (.str name) =
      if Text.trimBlank name = "" then .error [⟨[], .stringTooShort⟩]
      else if maxNameLength < (Text.trimBlank name).length then .error [⟨[], .stringTooLong⟩]
      else .ok (Text.trimBlank name) := by
  simp only [readName, Intake.text, Intake.Checked.fail, bind, Except.bind, pure, Except.pure]

/-- **What is read as a name**: a text without the blanks around it, if something is left and it is
not too long. -/
theorem readName_eq_ok_iff {name : String} :
    readName v = .ok name ↔ ∃ given, v = .str given ∧ Text.trimBlank given = name ∧ name ≠ "" ∧
      name.length ≤ maxNameLength := by
  cases v with
  | str given =>
    rw [readName_str]
    by_cases hempty : Text.trimBlank given = ""
    · rw [if_pos hempty]
      simp only [reduceCtorEq, Json.str.injEq, exists_eq_left', false_iff, not_and]
      rintro rfl hne
      exact absurd hempty hne
    rw [if_neg hempty]
    by_cases hlong : maxNameLength < (Text.trimBlank given).length
    · rw [if_pos hlong]
      simp only [reduceCtorEq, Json.str.injEq, exists_eq_left', false_iff, not_and]
      rintro rfl _
      exact Nat.not_le.2 hlong
    · rw [if_neg hlong]
      simp only [Except.ok.injEq, Json.str.injEq, exists_eq_left']
      constructor
      · rintro rfl
        exact ⟨rfl, hempty, Nat.le_of_not_lt hlong⟩
      · exact fun h => h.1
  | _ => simp [readName, Intake.text, Intake.Checked.fail, bind, Except.bind]

theorem ofFields_eq (cfg : CompilerSettings) (v : Json) (x : Binary64) :
    ofFields cfg [("name", v), ("strength", .float x)] =
      ((readName v).under (.key "name")).map fun name => ⟨name, clamp cfg x⟩ := by
  have hstrength : Intake.optional [("name", v), ("strength", .float x)] "strength"
      (readStrength cfg) .one = .ok (clamp cfg x) := rfl
  rw [ofFields, hstrength, Intake.required]
  show Intake.Checked.ap (((readName v).under (.key "name")).map Selection.mk) _ = _
  cases readName v <;> rfl

theorem read_eq_ok (h : Selection.read cfg [("name", v), ("strength", .float x)] = .ok s) :
    readName v = .ok s.name ∧ s.strength = clamp cfg x := by
  rw [Selection.read, ofFields_eq] at h
  cases hname : readName v with
  | error issues =>
    rw [hname] at h
    cases h
  | ok name =>
    rw [hname] at h
    obtain rfl := Except.ok.inj h
    exact ⟨rfl, rfl⟩

/-- **How a saved entry is read**, under a name without spacing around it. -/
theorem read_trimmed {name : String} (hname : Text.trimSpacing name ≠ "") (hx : Settled cfg x) :
    Selection.read cfg [("name", .str (Text.trimSpacing name)), ("strength", .float x)] =
      if (Text.trimSpacing name).length ≤ maxNameLength then .ok ⟨Text.trimSpacing name, x⟩
      else .error (.rejected [⟨[.key "name"], .stringTooLong⟩]) := by
  rw [Selection.read, ofFields_eq, hx, readName_str, Text.trimBlank_trimSpacing, if_neg hname]
  by_cases hshort : (Text.trimSpacing name).length ≤ maxNameLength
  · rw [if_neg (Nat.not_lt.2 hshort), if_pos hshort]
    rfl
  · rw [if_pos (Nat.lt_of_not_le hshort), if_neg hshort]
    rfl

end Selection

/-! ## Edits -/

namespace Chain

/-- An edit of a chain. -/
inductive Edit where
  /-- The first of the available modifiers is appended, within a limit of its own if there is
  one. -/
  | add (available : List Json) (limit : Option Int)
  | remove (index : Int)
  | rename (index : Int) (name : String)
  | setStrength (index : Int) (strength : Json)
  | keepAvailable (available : List String)

/-- The chain after an edit; one that does not apply changes nothing. -/
def Edit.apply (cfg : CompilerSettings) (c : Chain) : Edit → Except Fault Chain
  | .add available limit => (c.add cfg available limit).map (·.getD c)
  | .remove index => .ok ((c.remove index).getD c)
  | .rename index name => .ok ((c.rename index name).getD c)
  | .setStrength index strength => (c.setStrength cfg index strength).map (·.getD c)
  | .keepAvailable available => .ok (c.keepAvailable available)

/-- The chain after some edits in turn. -/
def editAll (cfg : CompilerSettings) (edits : List Edit) (c : Chain) : Except Fault Chain :=
  edits.foldlM (Edit.apply cfg) c

variable {cfg : CompilerSettings} {c c' : Chain} {e : Edit} {s : Selection}

/-- Where an entry of an edited chain comes from: it was read, or it was there and has kept its name
or its strength at least. -/
inductive Arises (cfg : CompilerSettings) (c : Chain) : Edit → Selection → Prop where
  | kept {e : Edit} {s : Selection} : s ∈ c → Arises cfg c e s
  | added {name : Json} {rest : List Json} {limit : Option Int} {s : Selection} {x : Binary64} :
      Selection.readName name = .ok s.name → s.strength = Selection.clamp cfg x →
        Arises cfg c (.add (name :: rest) limit) s
  | renamed {index : Int} {name : String} {old : Selection} :
      old ∈ c → Arises cfg c (.rename index name) ⟨name, old.strength⟩
  | strengthened {index : Int} {strength : Json} {old : Selection} {x : Binary64} :
      old ∈ c → Arises cfg c (.setStrength index strength) ⟨old.name, Selection.clamp cfg x⟩

theorem of_mem_modify {α : Type} {xs : List α} {i : Nat} {f : α → α} {x : α}
    (h : x ∈ xs.modify i f) : x ∈ xs ∨ ∃ old ∈ xs, x = f old := by
  obtain ⟨j, hj⟩ := List.mem_iff_getElem?.1 h
  rw [List.getElem?_modify] at hj
  obtain ⟨old, hold, rfl⟩ := Option.map_eq_some_iff.1 hj
  have hmem : old ∈ xs := List.mem_iff_getElem?.2 ⟨j, hold⟩
  by_cases hij : i = j
  · exact .inr ⟨old, hmem, by rw [if_pos hij]⟩
  · exact .inl (by rwa [if_neg hij])

/-- **What an edit can do.** -/
theorem arises_of_apply (h : e.apply cfg c = .ok c') (hs : s ∈ c') : Arises cfg c e s := by
  cases e with
  | add available limit =>
    obtain ⟨edited, hadd, rfl⟩ := exists_of_map_eq_ok h
    cases available with
    | nil =>
      obtain rfl := Except.ok.inj hadd
      exact .kept hs
    | cons name rest =>
      rw [add] at hadd
      split at hadd
      next =>
        obtain rfl := Except.ok.inj hadd
        exact .kept hs
      next =>
        obtain ⟨new, hnew, rfl⟩ := exists_of_map_eq_ok hadd
        rcases List.mem_append.1 hs with hs | hs
        · exact .kept hs
        · obtain rfl := List.mem_singleton.1 hs
          obtain ⟨hname, hstrength⟩ := Selection.read_eq_ok hnew
          exact .added hname hstrength
  | remove index =>
    obtain rfl := Except.ok.inj h
    rw [remove] at hs
    split at hs
    next => exact .kept (List.mem_of_mem_eraseIdx hs)
    next => exact .kept hs
  | rename index name =>
    obtain rfl := Except.ok.inj h
    rw [rename] at hs
    split at hs
    next =>
      rcases of_mem_modify hs with hs | ⟨old, hold, rfl⟩
      · exact .kept hs
      · exact .renamed hold
    next => exact .kept hs
  | setStrength index strength =>
    obtain ⟨edited, hset, rfl⟩ := exists_of_map_eq_ok h
    rw [setStrength] at hset
    split at hset
    next =>
      obtain ⟨x, -, rfl⟩ := exists_of_map_eq_ok hset
      rcases of_mem_modify hs with hs | ⟨old, hold, rfl⟩
      · exact .kept hs
      · exact .strengthened hold
    next =>
      obtain rfl := Except.ok.inj hset
      exact .kept hs
  | keepAvailable available =>
    obtain rfl := Except.ok.inj h
    exact .kept (List.mem_filter.1 hs).1

/-- What every edit keeps of the entries holds after any run of edits. -/
theorem forall_mem_editAll {P : Selection → Prop} {edits : List Edit}
    (hrun : editAll cfg edits c = .ok c') (hc : ∀ s ∈ c, P s)
    (hstep : ∀ e ∈ edits, ∀ c : Chain, (∀ s ∈ c, P s) → ∀ s, Arises cfg c e s → P s) :
    ∀ s ∈ c', P s := by
  induction edits generalizing c with
  | nil =>
    obtain rfl := Except.ok.inj hrun
    exact hc
  | cons e edits ih =>
    rw [editAll, List.foldlM_cons] at hrun
    obtain ⟨edited, happly, hrun⟩ := exists_of_bind_eq_ok hrun
    refine ih hrun (fun s hs => ?_) fun e' he' => hstep e' (List.mem_cons_of_mem _ he')
    exact hstep e (by simp) c hc s (arises_of_apply happly hs)

/-- **Every strength is settled, whatever the edits.** -/
theorem settled_editAll {edits : List Edit} (hrun : editAll cfg edits [] = .ok c) :
    ∀ s ∈ c, Selection.Settled cfg s.strength := by
  refine forall_mem_editAll hrun nofun fun e _ c hc s hs => ?_
  cases hs with
  | kept hs => exact hc s hs
  | added _ hx =>
    rw [hx]
    exact Selection.settled_clamp cfg _
  | @renamed _ _ old hold => exact hc old hold
  | strengthened _ => exact Selection.settled_clamp cfg _

/-- The names that an edit brings in are savable: a new name as it is, and an offered one without
the blanks around it. -/
def Edit.NamesSavably : Edit → Prop
  | .rename _ name => Selection.Savable name
  | .add available _ => ∀ name, (available.head?.map Selection.readName) = some (.ok name) →
      Text.trimSpacing name = name
  | _ => True

theorem savable_editAll {edits : List Edit} (hrun : editAll cfg edits [] = .ok c)
    (hedits : ∀ e ∈ edits, e.NamesSavably) : ∀ s ∈ c, Selection.Savable s.name := by
  refine forall_mem_editAll hrun nofun fun e he c hc s hs => ?_
  cases hs with
  | kept hs => exact hc s hs
  | added hname _ =>
    obtain ⟨-, -, -, hne, hshort⟩ := Selection.readName_eq_ok_iff.1 hname
    exact ⟨hne, hedits _ he s.name (by rw [List.head?_cons, Option.map_some, hname]), hshort⟩
  | renamed _ => exact hedits _ he
  | @strengthened _ _ old _ hold => exact hc old hold

/-! ## Restoring -/

/-- The chain with the spacing around its names gone, and the entries without a name. -/
def trimmed (c : Chain) : Chain :=
  (c.map fun s => { s with name := Text.trimSpacing s.name }).filter fun s => s.name ≠ ""

theorem savedName_toFields (s : Selection) :
    savedName [("name", .str s.name), ("strength", .float s.strength)] =
      Text.trimSpacing s.name := by
  have hname : Entries.get? [("name", Json.str s.name), ("strength", .float s.strength)] "name" =
      some (.str s.name) := rfl
  rw [savedName, hname, Option.getD_some]
  by_cases hempty : s.name = ""
  · simp [Json.isTruthy, hempty]
  · simp [Json.isTruthy, hempty, Json.display]

-- unfolded, the reading of the entry would be compared case by case
attribute [local irreducible] Selection.read in
theorem restoreItems_obj (cfg : CompilerSettings) (fs : Fields) (rest : List Json) :
    restoreItems cfg (.obj fs :: rest) =
      if savedName fs = "" then restoreItems cfg rest
      else
        match Selection.read cfg [("name", .str (savedName fs)),
            ("strength", (Entries.get? fs "strength").getD (.float .one))] with
        | .error e => .error e
        | .ok s => (restoreItems cfg rest).map (s :: ·) := by
  rfl

theorem trimmed_cons_of_empty (h : Text.trimSpacing s.name = "") (c : Chain) :
    trimmed (s :: c) = c.trimmed := by
  simp [trimmed, h]

theorem trimmed_cons_of_nonempty (h : Text.trimSpacing s.name ≠ "") (c : Chain) :
    trimmed (s :: c) = ⟨Text.trimSpacing s.name, s.strength⟩ :: c.trimmed := by
  simp [trimmed, h]

/-- **What restoring makes of the items of a saved chain** whose strengths are settled. -/
theorem restoreItems_map_toJson (hc : ∀ s ∈ c, Selection.Settled cfg s.strength) :
    restoreItems cfg (c.map Selection.toJson) =
      if ∀ s ∈ c, (Text.trimSpacing s.name).length ≤ Selection.maxNameLength then .ok c.trimmed
      else .error (.rejected [⟨[.key "name"], .stringTooLong⟩]) := by
  induction c with
  | nil => rfl
  | cons s c ih =>
    have ih := ih fun t ht => hc t (List.mem_cons_of_mem _ ht)
    have hstrength : (Entries.get? [("name", Json.str s.name), ("strength", .float s.strength)]
        "strength").getD (.float .one) = .float s.strength := rfl
    rw [List.map_cons, Selection.toJson, restoreItems_obj, savedName_toFields, hstrength]
    by_cases hempty : Text.trimSpacing s.name = ""
    · -- an entry without a name is passed over, and its name is not too long
      simp [hempty, ih, trimmed_cons_of_empty hempty]
    · have hall : (∀ t ∈ s :: c, (Text.trimSpacing t.name).length ≤ Selection.maxNameLength) ↔ _ :=
        List.forall_mem_cons
      rw [if_neg hempty, Selection.read_trimmed hempty (hc s (by simp))]
      by_cases hshort : (Text.trimSpacing s.name).length ≤ Selection.maxNameLength
      · rw [if_pos hshort]
        dsimp only
        rw [ih, trimmed_cons_of_nonempty hempty]
        by_cases hrest : ∀ t ∈ c, (Text.trimSpacing t.name).length ≤ Selection.maxNameLength
        · rw [if_pos hrest, if_pos (hall.2 ⟨hshort, hrest⟩)]
          rfl
        · rw [if_neg hrest, if_neg fun h => hrest (hall.1 h).2]
          rfl
      · rw [if_neg hshort, if_neg fun h => hshort (hall.1 h).1]

theorem length_trimmed_le (c : Chain) : c.trimmed.length ≤ c.length := by
  have hle := List.length_filter_le (fun s : Selection => decide (s.name ≠ ""))
    (c.map fun s => { s with name := Text.trimSpacing s.name })
  rwa [List.length_map] at hle

/-- Nothing is trimmed off a chain exactly when its names have no spacing around them and none is
empty. -/
theorem trimmed_eq_self_iff :
    c.trimmed = c ↔ ∀ s ∈ c, s.name ≠ "" ∧ Text.trimSpacing s.name = s.name := by
  induction c with
  | nil => simp [trimmed]
  | cons s c ih =>
    rw [List.forall_mem_cons, ← ih]
    by_cases hempty : Text.trimSpacing s.name = ""
    · -- the entry is missing, so the lengths differ
      rw [trimmed_cons_of_empty hempty]
      constructor
      · intro h
        have hlength := congrArg List.length h
        have hle := length_trimmed_le c
        rw [List.length_cons] at hlength
        omega
      · rintro ⟨⟨hne, hbare⟩, -⟩
        exact absurd (hbare.symm.trans hempty) hne
    · rw [trimmed_cons_of_nonempty hempty, List.cons.injEq]
      constructor
      · rintro ⟨h, hrest⟩
        have hbare : Text.trimSpacing s.name = s.name := congrArg Selection.name h
        exact ⟨⟨hbare ▸ hempty, hbare⟩, hrest⟩
      · rintro ⟨⟨-, hbare⟩, hrest⟩
        exact ⟨by rw [hbare], hrest⟩

/-- What saving a chain and restoring it does. -/
structure Reloads (cfg : CompilerSettings) (c : Chain) : Prop where
  /-- Every strength that is a number is within the bounds, if these are in order. -/
  within : cfg.minStrength.le cfg.maxStrength → ∀ s ∈ c, s.strength.isNaN = false →
    cfg.minStrength.le s.strength ∧ s.strength.le cfg.maxStrength
  /-- Where no name is too long, the entries come back in their order and with their strengths,
  without the spacing around their names and without those that have no name then. -/
  restored : (∀ s ∈ c, (Text.trimSpacing s.name).length ≤ Selection.maxNameLength) →
    restore cfg c.save = .ok c.trimmed
  /-- Where one is, nothing comes back. -/
  refused : (∃ s ∈ c, Selection.maxNameLength < (Text.trimSpacing s.name).length) →
    restore cfg c.save = .error (.rejected [⟨[.key "name"], .stringTooLong⟩])
  /-- The chain comes back as it is exactly when all its names are savable. -/
  same_iff : restore cfg c.save = .ok c ↔ ∀ s ∈ c, Selection.Savable s.name

theorem restore_save (hc : ∀ s ∈ c, Selection.Settled cfg s.strength)
    (hcodec : Json.read c.save = .ok (.arr (c.map Selection.toJson))) :
    restore cfg c.save =
      if ∀ s ∈ c, (Text.trimSpacing s.name).length ≤ Selection.maxNameLength then .ok c.trimmed
      else .error (.rejected [⟨[.key "name"], .stringTooLong⟩]) := by
  have hne : c.save ≠ "" := by
    intro hempty
    rw [hempty] at hcodec
    cases hcodec
  rw [restore, if_neg hne, hcodec]
  exact restoreItems_map_toJson hc

/-- A saved chain is decoded to what was encoded if each of its strengths is. -/
theorem read_save (h : ∀ s ∈ c, Json.ReadsBack s.strength) :
    Json.read c.save = .ok (.arr (c.map Selection.toJson)) := by
  refine Json.read_write Json.Format.separates_saved rfl ?_
  show Json.LegibleItems (c.map Selection.toJson)
  induction c with
  | nil => trivial
  | cons s c ih =>
    rw [List.forall_mem_cons] at h
    exact ⟨⟨by simp [Entries.keys], trivial, h.1, trivial⟩, ih h.2⟩

/-- **An edited chain that is saved comes back with its strengths**, and as it is exactly when its
names are savable, in particular if all names that the edits brought in are, provided that the text
is decoded to what was encoded. -/
theorem reloads_editAll {edits : List Edit} (hrun : editAll cfg edits [] = .ok c)
    (hcodec : Json.read c.save = .ok (.arr (c.map Selection.toJson))) :
    c.Reloads cfg ∧ ((∀ e ∈ edits, e.NamesSavably) → restore cfg c.save = .ok c) := by
  have hsettled := settled_editAll hrun
  have hrestore := restore_save hsettled hcodec
  have hsame : restore cfg c.save = .ok c ↔ ∀ s ∈ c, Selection.Savable s.name := by
    rw [hrestore]
    constructor
    · intro h
      split at h
      next hshort =>
        intro s hs
        obtain ⟨hne, hbare⟩ := trimmed_eq_self_iff.1 (Except.ok.inj h) s hs
        exact ⟨hne, hbare, hbare ▸ hshort s hs⟩
      next => cases h
    · intro h
      rw [if_pos fun s hs => (h s hs).bare.symm ▸ (h s hs).short,
        trimmed_eq_self_iff.2 fun s hs => ⟨(h s hs).nonempty, (h s hs).bare⟩]
  refine ⟨⟨?_, ?_, ?_, hsame⟩, fun hedits => hsame.2 (savable_editAll hrun hedits)⟩
  · exact fun hbounds s hs hnumber => (hsettled s hs).within hbounds hnumber
  · exact fun hshort => by rw [hrestore, if_pos hshort]
  · rintro ⟨s, hs, hlong⟩
    rw [hrestore, if_neg fun h => absurd (h s hs) (Nat.not_le.2 hlong)]

/-- Edits that leave two entries: one is made stronger than the bounds allow, the other gets
another name, and an entry comes and goes. -/
def twoModifierEdits : List Edit :=
  [.add [.str "style.safetensors", .str "other.safetensors"] none, .add [.str " b "] (some 9),
    .setStrength 0 (.int 9), .rename 1 "detail.safetensors", .add [.str "c"] none, .remove 2,
    .keepAvailable ["detail.safetensors", "style.safetensors"]]

/-- What the edits leave. -/
def twoModifiers : Chain :=
  [⟨"style.safetensors", .ofRatio false 2 1⟩, ⟨"detail.safetensors", .one⟩]

/-- The hypotheses of `reloads_editAll` are met, and the names are savable. -/
theorem twoModifiers_reloads :
    editAll {} twoModifierEdits [] = .ok twoModifiers ∧
      Json.read twoModifiers.save = .ok (.arr (twoModifiers.map Selection.toJson)) ∧
      (∀ e ∈ twoModifierEdits, e.NamesSavably) ∧
      (twoModifiers.Reloads {} ∧ ((∀ e ∈ twoModifierEdits, e.NamesSavably) →
        restore {} twoModifiers.save = .ok twoModifiers)) := by
  have hrun : editAll {} twoModifierEdits [] = .ok twoModifiers := by rfl
  have hcodec : Json.read twoModifiers.save = .ok (.arr (twoModifiers.map Selection.toJson)) := by
    refine read_save ?_
    simp only [twoModifiers, List.forall_mem_cons]
    exact ⟨⟨by decide, rfl⟩, Json.readsBack_one, nofun⟩
  have hnames : ∀ e ∈ twoModifierEdits, e.NamesSavably := by
    simp only [twoModifierEdits, List.forall_mem_cons]
    refine ⟨?_, ?_, trivial, ⟨by decide, by decide, by decide⟩, ?_, trivial, trivial, nofun⟩
    all_goals
      intro name h
      obtain ⟨given, hgiven, rfl, -⟩ := Selection.readName_eq_ok_iff.1 (Option.some.inj h)
      obtain rfl := Json.str.inj hgiven
      decide
  exact ⟨hrun, hcodec, hnames, reloads_editAll hrun hcodec⟩

/-- An entry that is renamed to blanks is saved and does not come back, though nothing of the text
is lost on the way. -/
theorem lost_blankName :
    editAll {} [.add [.str "a.safetensors"] none, .rename 0 "   "] [] = .ok [⟨"   ", .one⟩] ∧
      Json.read (save [⟨"   ", .one⟩]) = .ok (.arr [Selection.toJson ⟨"   ", .one⟩]) ∧
      restore {} (save [⟨"   ", .one⟩]) = .ok [] := by
  have hcodec : Json.read (save [⟨"   ", .one⟩]) = .ok (.arr [Selection.toJson ⟨"   ", .one⟩]) :=
    read_save (by simpa using Json.readsBack_one)
  refine ⟨by rfl, hcodec, ?_⟩
  have hsettled : Selection.Settled {} .one := by rfl
  rw [restore_save (by simpa using hsettled) hcodec]
  rfl

end Chain

end NodeFlow
