import NodeFlow.Proofs.Binary64.Rounding
import NodeFlow.Proofs.Document.Readable
import NodeFlow.Proofs.Json.Doubles
import NodeFlow.Proofs.Mapping.Saving
/-!
# How restoring a mapping ends

A text that is not a saved mapping is refused with a report: whatever is wrong
with it is one of the failures that are made into a cause. One failure is not,
that of an infinite index, and it comes about where everything that is read
before the index is as it should be. `Settles` says of a reader when it has a
result and when it fails in this way, and the reader of a mapping is put
together from the readers of its parts.
-/

namespace NodeFlow

open Json (Legible)

/-! ## Two conditions on an operation -/

/-- A failure that restoring makes into the cause of a report. -/
def Fault.IsCause (e : Fault) : Prop :=
  e.kindName ∈ ["JSONDecodeError", "KeyError", "TypeError", "ValueError"]

theorem Fault.isCause_wrongType : IsCause .wrongType := by
  simp [IsCause, kindName]

theorem Fault.isCause_absentKey (name : String) : IsCause (.absentKey name) := by
  simp [IsCause, kindName]

theorem Fault.isCause_badValue (reason : BadValue) : IsCause (.badValue reason) := by
  simp [IsCause, kindName]

theorem Fault.isCause_ofRead (e : Json.ReadError) : IsCause (.ofRead e) := by
  rw [ofRead]
  split <;> simp [IsCause, kindName]

theorem Fault.not_isCause_tooLarge : ¬ IsCause .tooLarge := by
  simp [IsCause, kindName]

/-- An operation has a result exactly under one condition, finds a number too large exactly under
another one, and all other failures that it can have are causes. -/
structure Settles {α : Type} (x : Except Fault α) (good bad : Prop) : Prop where
  ok_iff : (∃ a, x = .ok a) ↔ good
  tooLarge_iff : x = .error .tooLarge ↔ bad
  fails : ∀ e, x = .error e → e = .tooLarge ∨ e.IsCause

/-- The elements are good up to one that is bad. -/
def BreaksOff {α : Type} (good bad : α → Prop) (xs : List α) : Prop :=
  ∃ before x after, xs = before ++ x :: after ∧ (∀ y ∈ before, good y) ∧ bad x

theorem not_breaksOff_nil {α : Type} {good bad : α → Prop} : ¬ BreaksOff good bad [] := by
  rintro ⟨before, x, after, h, -⟩
  exact List.append_ne_nil_of_right_ne_nil before (List.cons_ne_nil x after) h.symm

theorem breaksOff_cons {α : Type} {good bad : α → Prop} {x : α} {xs : List α} :
    BreaksOff good bad (x :: xs) ↔ bad x ∨ (good x ∧ BreaksOff good bad xs) := by
  constructor
  · rintro ⟨before, y, after, h, hgood, hbad⟩
    cases before with
    | nil =>
      obtain ⟨rfl, rfl⟩ := List.cons.inj h
      exact .inl hbad
    | cons z before =>
      obtain ⟨rfl, rfl⟩ := List.cons.inj h
      rw [List.forall_mem_cons] at hgood
      exact .inr ⟨hgood.1, before, y, after, rfl, hgood.2, hbad⟩
  · rintro (hbad | ⟨hgood, before, y, after, rfl, hbefore, hbad⟩)
    · exact ⟨[], x, xs, rfl, nofun, hbad⟩
    · exact ⟨x :: before, y, after, rfl, List.forall_mem_cons.2 ⟨hgood, hbefore⟩, hbad⟩

namespace Settles

variable {α β : Type} {x : Except Fault α} {good bad good' bad' : Prop}

theorem ok (a : α) (hgood : good) (hbad : ¬ bad) : Settles (.ok a : Except Fault α) good bad where
  ok_iff := iff_of_true ⟨a, rfl⟩ hgood
  tooLarge_iff := iff_of_false (fun h => by cases h) hbad
  fails := fun e he => by cases he

theorem done (a : α) : Settles (.ok a : Except Fault α) True False := .ok a trivial not_false

theorem error {e : Fault} (he : e.IsCause) (hgood : ¬ good) (hbad : ¬ bad) :
    Settles (.error e : Except Fault α) good bad where
  ok_iff := iff_of_false (fun ⟨a, ha⟩ => by cases ha) hgood
  tooLarge_iff := by
    refine iff_of_false (fun h => ?_) hbad
    cases h
    exact Fault.not_isCause_tooLarge he
  fails := fun e' he' => .inr (Except.error.inj he' ▸ he)

theorem tooLarge (hgood : ¬ good) (hbad : bad) :
    Settles (.error .tooLarge : Except Fault α) good bad where
  ok_iff := iff_of_false (fun ⟨a, ha⟩ => by cases ha) hgood
  tooLarge_iff := iff_of_true rfl hbad
  fails := fun e he => .inl (Except.error.inj he).symm

theorem of_iff (h : Settles x good bad) (hgood : good ↔ good') (hbad : bad ↔ bad') :
    Settles x good' bad' :=
  ⟨h.ok_iff.trans hgood, h.tooLarge_iff.trans hbad, h.fails⟩

theorem not_good {e : Fault} (h : Settles (.error e : Except Fault α) good bad) : ¬ good :=
  fun hgood => by
    obtain ⟨a, ha⟩ := h.ok_iff.2 hgood
    cases ha

theorem not_bad {a : α} (h : Settles (.ok a) good bad) : ¬ bad := fun hbad => by
  cases h.tooLarge_iff.2 hbad

theorem not_bad_of_isCause {e : Fault} (h : Settles (.error e : Except Fault α) good bad)
    (he : e.IsCause) : ¬ bad := fun hbad => by
  cases h.tooLarge_iff.2 hbad
  exact Fault.not_isCause_tooLarge he

/-- The conditions of the second of two operations must not depend on the result of the first. -/
theorem bind {f : α → Except Fault β} (h : Settles x good bad)
    (hf : ∀ a, x = .ok a → Settles (f a) good' bad') :
    Settles (x >>= f) (good ∧ good') (bad ∨ (good ∧ bad')) := by
  cases x with
  | ok a =>
    have hgood : good := h.ok_iff.1 ⟨a, rfl⟩
    exact (hf a rfl).of_iff (and_iff_right hgood).symm
      ((and_iff_right hgood).symm.trans (or_iff_right h.not_bad).symm)
  | error e =>
    rcases h.fails e rfl with rfl | he
    · exact .tooLarge (fun hboth => h.not_good hboth.1) (.inl (h.tooLarge_iff.1 rfl))
    · refine .error he (fun hboth => h.not_good hboth.1) ?_
      rintro (hbad | hboth)
      · exact h.not_bad_of_isCause he hbad
      · exact h.not_good hboth.1

theorem mapM {f : α → Except Fault β} {good bad : α → Prop}
    (h : ∀ x, Settles (f x) (good x) (bad x)) (xs : List α) :
    Settles (xs.mapM f) (∀ x ∈ xs, good x) (BreaksOff good bad xs) := by
  induction xs with
  | nil => exact .ok [] nofun not_breaksOff_nil
  | cons x xs ih =>
    rw [List.mapM_cons]
    refine ((h x).bind fun y _ => ih.bind fun ys _ =>
      Settles.done (y :: ys)).of_iff ?_ ?_
    · rw [List.forall_mem_cons, and_true]
    · rw [breaksOff_cons, and_false, or_false]

end Settles

/-! ## Indices -/

/-- A value stands for an integer. -/
def IsIndex : Json → Prop
  | .int _ | .bool _ => True
  | .float x => x.isFinite
  | .str s => ∃ i, Numeral.int? s = .ok i
  | _ => False

/-- A value is one of the two infinities. -/
def IsInfinite (v : Json) : Prop := ∃ negative, v = .float (.infinity negative)

theorem not_isInfinite {v : Json} (h : ∀ x, v ≠ .float x) : ¬ IsInfinite v := by
  rintro ⟨negative, hv⟩
  exact h _ hv

theorem settles_integerOf_float (x : Binary64) :
    Settles (integerOf (.float x)) (IsIndex (.float x)) (IsInfinite (.float x)) := by
  have hinfinite (negative : Bool) :
      (Binary64.infinity negative).value = .infinite negative := by
    cases negative <;> decide
  have hother (h : ∀ negative, x.value ≠ .infinite negative) : ¬ IsInfinite (.float x) := by
    rintro ⟨negative, hx⟩
    obtain rfl := Json.float.inj hx
    exact h negative (hinfinite negative)
  rw [integerOf, Binary64.truncate?]
  cases hvalue : x.value with
  | nan =>
    have hnan := Binary64.isNaN_of_value hvalue
    dsimp only
    rw [if_pos hnan]
    refine .error (Fault.isCause_badValue _) (fun hfinite => ?_) (hother (by simp [hvalue]))
    rw [Binary64.isNaN, decide_eq_true_iff] at hnan
    exact absurd (of_decide_eq_true hfinite) (by omega)
  | infinite negative =>
    obtain ⟨rfl, hmagnitude⟩ := Binary64.infinite_of_value hvalue
    have hnan : ¬ x.isNaN = true := by
      rw [Binary64.isNaN, hmagnitude, decide_eq_true_iff]
      exact lt_irrefl _
    dsimp only
    rw [if_neg hnan]
    refine .tooLarge (fun hfinite => ?_) ⟨x.negative, ?_⟩
    · exact absurd (of_decide_eq_true hfinite) (by omega)
    · rw [Binary64.infinity, ← hmagnitude, Binary64.ofMagnitude_eq_self]
  | finite negative m q =>
    obtain ⟨-, hzero, hplaces⟩ := Binary64.finite_of_value hvalue
    refine .ok _ (decide_eq_true ?_) (hother (by simp [hvalue]))
    by_cases hm : m = 0
    · rw [hzero hm]
      decide
    · exact (hplaces hm).finite

theorem settles_integerOf (v : Json) : Settles (integerOf v) (IsIndex v) (IsInfinite v) := by
  cases v with
  | int i => exact .ok i trivial (not_isInfinite (by simp))
  | bool b => exact .ok _ trivial (not_isInfinite (by simp))
  | str s =>
    rw [integerOf, integerOfText]
    cases h : Numeral.int? s with
    | ok i => exact .ok i ⟨i, h⟩ (not_isInfinite (by simp))
    | error e =>
      have hnone : ¬ ∃ i, Numeral.int? s = .ok i := by
        rintro ⟨i, hi⟩
        cases h.symm.trans hi
      cases e with
      | malformed => exact .error (Fault.isCause_badValue _) hnone (not_isInfinite (by simp))
      | tooLong digits => exact .error (Fault.isCause_badValue _) hnone (not_isInfinite (by simp))
  | float x => exact settles_integerOf_float x
  | null | arr _ | obj _ =>
    exact .error Fault.isCause_wrongType not_false (not_isInfinite (by simp))

/-! ## Entries -/

/-- The items under a name have a property. -/
def Lists (fs : Fields) (name : String) (p : List Json → Prop) : Prop :=
  ∃ v items, Entries.get? fs name = some v ∧ Choice.iterate v = .ok items ∧ p items

/-- The items under a name, each of them read. -/
def readItems {β : Type} (f : Json → Except Fault β) (fs : Fields) (name : String) :
    Except Fault (List β) :=
  Choice.entry fs name >>= fun v => Choice.iterate v >>= fun items => items.mapM f

theorem settles_entry (fs : Fields) (name : String) :
    Settles (Choice.entry fs name) (name ∈ Entries.keys fs) False := by
  rw [Choice.entry, ← Entries.isSome_get?]
  cases Entries.get? fs name with
  | some v => exact .ok v rfl not_false
  | none => exact .error (Fault.isCause_absentKey name) (by simp) not_false

theorem settles_readItems {β : Type} {f : Json → Except Fault β} {good bad : Json → Prop}
    (h : ∀ v, Settles (f v) (good v) (bad v)) (fs : Fields) (name : String) :
    Settles (readItems f fs name) (Lists fs name fun items => ∀ v ∈ items, good v)
      (Lists fs name (BreaksOff good bad)) := by
  rw [readItems, Choice.entry]
  cases hentry : Entries.get? fs name with
  | none =>
    have hnone {p : List Json → Prop} : ¬ Lists fs name p := by
      rintro ⟨v, items, hv, -⟩
      cases hentry.symm.trans hv
    exact .error (Fault.isCause_absentKey name) hnone hnone
  | some v =>
    show Settles (Choice.iterate v >>= fun items => items.mapM f) _ _
    have hsome {items : List Json} (hitems : Choice.iterate v = .ok items)
        {p : List Json → Prop} : p items ↔ Lists fs name p := by
      constructor
      · exact fun hp => ⟨v, items, hentry, hitems, hp⟩
      · rintro ⟨v', items', hv', hitems', hp⟩
        obtain rfl := Option.some.inj (hentry.symm.trans hv')
        obtain rfl := Except.ok.inj (hitems.symm.trans hitems')
        exact hp
    cases hitems : Choice.iterate v with
    | ok items =>
      exact (Settles.mapM h items).of_iff
        (hsome hitems (p := fun items => ∀ v ∈ items, good v)) (hsome hitems)
    | error e =>
      have hnone {p : List Json → Prop} : ¬ Lists fs name p := by
        rintro ⟨v', items, hv', hitems', -⟩
        obtain rfl := Option.some.inj (hentry.symm.trans hv')
        cases hitems.symm.trans hitems'
      obtain rfl : e = .wrongType := by
        cases v <;> cases hitems <;> rfl
      exact .error Fault.isCause_wrongType hnone hnone

/-! ## Parts of a saved mapping -/

/-- An object that tells of a node and an input. -/
def Candidate.IsSaved (v : Json) : Prop :=
  ∃ fs, v = .obj fs ∧ "nodeId" ∈ Entries.keys fs ∧ "inputKey" ∈ Entries.keys fs

/-- An object that tells of a field and its candidates, and whose index, zero if there is none, has
a property. -/
def Choice.IsSaved (index : Json → Prop) (v : Json) : Prop :=
  ∃ fs, v = .obj fs ∧ "fieldKey" ∈ Entries.keys fs ∧ "displayName" ∈ Entries.keys fs ∧
    "description" ∈ Entries.keys fs ∧
    (Lists fs "candidates" fun items => ∀ a ∈ items, Candidate.IsSaved a) ∧
    index ((Entries.get? fs "selectedCandidateIndex").getD (.int 0))

namespace Mapping

/-- An object with choices and the name of a category. -/
def IsSaved (v : Json) : Prop :=
  ∃ fs, v = .obj fs ∧
    (Lists fs "fieldMappings" fun items => ∀ c ∈ items, Choice.IsSaved IsIndex c) ∧
    ∃ category : Category, Entries.get? fs "workflowType" = some (.str category.name)

/-- An object with choices up to one that is like them but for its index, which is infinite. -/
def HasInfiniteIndex (v : Json) : Prop :=
  ∃ fs, v = .obj fs ∧
    Lists fs "fieldMappings" (BreaksOff (Choice.IsSaved IsIndex) (Choice.IsSaved IsInfinite))

end Mapping

theorem exists_obj_iff {p : Fields → Prop} {fs : Fields} :
    (∃ fs', Json.obj fs = .obj fs' ∧ p fs') ↔ p fs := by
  constructor
  · rintro ⟨fs', heq, h⟩
    obtain rfl := Json.obj.inj heq
    exact h
  · exact fun h => ⟨fs, rfl, h⟩

theorem settles_candidate (v : Json) :
    Settles (Candidate.ofJson v) (Candidate.IsSaved v) False := by
  cases v with
  | obj fs =>
    have hsaved : Candidate.IsSaved (.obj fs) ↔
        (Entries.get? fs "nodeId").isSome ∧ (Entries.get? fs "inputKey").isSome := by
      rw [Entries.isSome_get?, Entries.isSome_get?]
      exact exists_obj_iff
    rw [Candidate.ofJson, hsaved]
    cases Entries.get? fs "nodeId" with
    | none => exact .error (Fault.isCause_absentKey _) (by simp) not_false
    | some node =>
      cases Entries.get? fs "inputKey" with
      | none => exact .error (Fault.isCause_absentKey _) (by simp) not_false
      | some input => exact .ok _ (by simp) not_false
  | _ => exact .error Fault.isCause_wrongType nofun not_false

theorem breaksOff_false {α : Type} {good : α → Prop} {xs : List α} :
    ¬ BreaksOff good (fun _ => False) xs := fun ⟨_, _, _, _, _, h⟩ => h

theorem Choice.ofJson_obj (fs : Fields) :
    ofJson (.obj fs) = entry fs "fieldKey" >>= fun key => entry fs "displayName" >>= fun shown =>
      entry fs "description" >>= fun description =>
      readItems Candidate.ofJson fs "candidates" >>= fun candidates =>
      integerOf ((Entries.get? fs "selectedCandidateIndex").getD (.int 0)) >>= fun selected =>
      .ok ⟨⟨key, shown, description⟩, candidates, selected,
        ((Entries.get? fs "required").getD (.bool true)).isTruthy⟩ := by
  simp only [ofJson, readItems, bind_assoc]
  rfl

theorem settles_choice (v : Json) :
    Settles (Choice.ofJson v) (Choice.IsSaved IsIndex v) (Choice.IsSaved IsInfinite v) := by
  cases v with
  | obj fs =>
    have hsaved (index : Json → Prop) : Choice.IsSaved index (.obj fs) ↔
        "fieldKey" ∈ Entries.keys fs ∧ "displayName" ∈ Entries.keys fs ∧
          "description" ∈ Entries.keys fs ∧
          (Lists fs "candidates" fun items => ∀ a ∈ items, Candidate.IsSaved a) ∧
          index ((Entries.get? fs "selectedCandidateIndex").getD (.int 0)) :=
      exists_obj_iff
    have hcandidates : ¬ Lists fs "candidates" (BreaksOff Candidate.IsSaved fun _ => False) :=
      fun ⟨_, _, _, _, h⟩ => breaksOff_false h
    rw [Choice.ofJson_obj, hsaved, hsaved]
    refine ((settles_entry fs "fieldKey").bind fun key _ =>
      (settles_entry fs "displayName").bind fun shown _ =>
      (settles_entry fs "description").bind fun description _ =>
      (settles_readItems settles_candidate fs "candidates").bind fun candidates _ =>
      (settles_integerOf _).bind fun selected _ =>
      Settles.done _).of_iff ?_ ?_
    · rw [and_true]
    · simp only [false_or, and_false, or_false, hcandidates]
  | _ => exact .error Fault.isCause_wrongType nofun nofun

theorem Mapping.ofJson_obj (fs : Fields) :
    ofJson (.obj fs) = readItems Choice.ofJson fs "fieldMappings" >>= fun choices =>
      (Choice.entry fs "workflowType" >>= Category.ofJson) >>= fun category =>
      .ok ⟨category, choices⟩ := by
  simp only [ofJson, readItems, bind_assoc]
  rfl

theorem settles_category (v : Json) :
    Settles (Category.ofJson v) (∃ category : Category, v = .str category.name) False := by
  rw [Category.ofJson]
  cases h : v.str?.bind Category.ofName? with
  | none =>
    refine .error (Fault.isCause_badValue _) ?_ not_false
    rintro ⟨category, rfl⟩
    cases category <;> cases h
  | some category =>
    obtain ⟨s, hs, hname⟩ := Option.bind_eq_some_iff.1 h
    have hcategory : category.name = s :=
      of_decide_eq_true (List.find?_some (p := fun c : Category => decide (c.name = s)) hname)
    refine .ok category ⟨category, ?_⟩ not_false
    cases v with
    | str t =>
      obtain rfl := Option.some.inj hs
      rw [hcategory]
    | _ => cases hs

theorem settles_entry_category (fs : Fields) (name : String) :
    Settles (Choice.entry fs name >>= Category.ofJson)
      (∃ category : Category, Entries.get? fs name = some (.str category.name)) False := by
  rw [Choice.entry]
  cases Entries.get? fs name with
  | none => exact .error (Fault.isCause_absentKey name) (by simp) not_false
  | some v => exact (settles_category v).of_iff (by simp) Iff.rfl

theorem settles_mapping (v : Json) :
    Settles (Mapping.ofJson v) (Mapping.IsSaved v) (Mapping.HasInfiniteIndex v) := by
  cases v with
  | obj fs =>
    have hsaved : Mapping.IsSaved (.obj fs) ↔
        (Lists fs "fieldMappings" fun items => ∀ c ∈ items, Choice.IsSaved IsIndex c) ∧
          ∃ category : Category, Entries.get? fs "workflowType" = some (.str category.name) :=
      exists_obj_iff
    have hinfinite : Mapping.HasInfiniteIndex (.obj fs) ↔
        Lists fs "fieldMappings" (BreaksOff (Choice.IsSaved IsIndex) (Choice.IsSaved IsInfinite)) :=
      exists_obj_iff
    rw [Mapping.ofJson_obj, hsaved, hinfinite]
    refine ((settles_readItems settles_choice fs "fieldMappings").bind fun choices _ =>
      (settles_entry_category fs "workflowType").bind fun category _ =>
      Settles.done _).of_iff ?_ ?_
    · rw [and_true]
    · simp only [and_false, or_false]
  | _ => exact .error Fault.isCause_wrongType nofun nofun

/-! ## Texts -/

namespace Mapping

/-- The report that refuses a text. -/
def refusalReport (text : String) (cause : Fault) : Report :=
  .parameter "mapping_state" (.str (Chain.excerpt text)) (some (cause.message?.getD "")) []
    (some cause.toCause) []

/-- How restoring a text ends. -/
inductive RestoreEnding (text : String) : Except Fault Mapping → Prop
  /-- With a mapping, where it is the text of one. -/
  | restored {v : Json} {m : Mapping} (hread : Json.read text = .ok v) (hsaved : IsSaved v)
      (hm : ofJson v = .ok m) : RestoreEnding text (.ok m)
  /-- With the report of a parameter that is not valid, where it is not, for any reason but one. -/
  | refused {cause : Fault} (hcause : cause.IsCause)
      (hnone : ∀ v, Json.read text = .ok v → ¬ IsSaved v ∧ ¬ HasInfiniteIndex v) :
      RestoreEnding text (.error (.reported (refusalReport text cause)))
  /-- With no report, where it has an infinite index behind choices that can be read. -/
  | raised {v : Json} (hread : Json.read text = .ok v) (hinfinite : HasInfiniteIndex v) :
      RestoreEnding text (.error .tooLarge)

theorem refusal_of_isCause {cause : Fault} (h : cause.IsCause) (text : String) :
    refusal text cause = .reported (refusalReport text cause) := by
  rw [refusal]
  · rfl
  · rintro rfl
    exact Fault.not_isCause_tooLarge h

/-- A failure to read a text, or to read a mapping from it, is turned into a refusal. -/
theorem restore_eq (text : String) :
    restore text = (readJson text >>= ofJson).mapError (refusal text) := by
  rw [restore]
  cases readJson text >>= ofJson <;> rfl

/-- **How restoring ends**, for every text. What the endings ask of a text excludes one another, so
each of them comes about exactly where this is given. -/
theorem ending_restore (text : String) : RestoreEnding text (restore text) := by
  rw [restore_eq, readJson]
  cases hread : Json.read text with
  | error e =>
    have hcause := Fault.isCause_ofRead e
    show RestoreEnding text (.error (refusal text (.ofRead e)))
    rw [refusal_of_isCause hcause]
    exact .refused hcause fun v hv => by cases hread.symm.trans hv
  | ok v =>
    have hsettles := settles_mapping v
    show RestoreEnding text ((ofJson v).mapError (refusal text))
    cases hm : ofJson v with
    | ok m => exact .restored hread (hsettles.ok_iff.1 ⟨m, hm⟩) hm
    | error f =>
      show RestoreEnding text (.error (refusal text f))
      rcases hsettles.fails f hm with rfl | hcause
      · exact .raised hread (hsettles.tooLarge_iff.1 hm)
      · rw [hm] at hsettles
        rw [refusal_of_isCause hcause]
        refine .refused hcause fun v' hv' => ?_
        obtain rfl := Except.ok.inj (hread.symm.trans hv')
        exact ⟨hsettles.not_good, hsettles.not_bad_of_isCause hcause⟩

/-- A saved mapping whose only choice has an infinite index. -/
def infiniteIndex : Json :=
  .obj [("workflowType", .str "tti"), ("fieldMappings", .arr [.obj [
    ("fieldKey", .str "a"), ("displayName", .str "b"), ("description", .str "c"),
    ("candidates", .arr []), ("selectedCandidateIndex", .float (.infinity false))]])]

/-- Its text. -/
def infiniteIndexText : String :=
  "\x7b\"workflowType\": \"tti\", \"fieldMappings\": [\x7b\"fieldKey\": \"a\", " ++
    "\"displayName\": \"b\", \"description\": \"c\", \"candidates\": [], " ++
    "\"selectedCandidateIndex\": Infinity\x7d]\x7d"

/-- **An infinite index is not refused**: there is neither a mapping nor a report. -/
theorem not_reported_infiniteIndex :
    (∀ m, restore infiniteIndexText ≠ .ok m) ∧
      ∀ r, restore infiniteIndexText ≠ .error (.reported r) := by
  have htext : Json.write .saved infiniteIndex = infiniteIndexText := by decide +kernel
  have hlegible : Legible infiniteIndex :=
    ⟨by decide, trivial, ⟨⟨by decide, trivial, trivial, trivial, trivial,
      Json.readsBack_infinity false, trivial⟩, trivial⟩, trivial⟩
  have hread : Json.read infiniteIndexText = .ok infiniteIndex :=
    htext ▸ Json.read_write Json.Format.separates_saved rfl hlegible
  have hrestore : restore infiniteIndexText = .error .tooLarge := by
    rw [restore, readJson, hread]
    rfl
  rw [hrestore]
  constructor
  · intro m hm
    cases hm
  · intro r hr
    cases hr

end Mapping

end NodeFlow
