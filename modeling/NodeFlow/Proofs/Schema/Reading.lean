import NodeFlow.Proofs.Layout.Ending
import NodeFlow.Schema.Reader
/-!
# What a schema document defines

Each entry of a schema document defines a node type by itself, and each
declaration in it an input by itself; what is malformed stands for nothing
(`NodeType.ofEntry?`, `InputSpec.ofDeclaration?`). A document is read as the
definitions of its entries, unless the choices of a combination input somewhere
in it are given as something that is there and cannot be gone through. Then
nothing is read at all.
-/

namespace NodeFlow

/-! ## What a declaration stands for -/

namespace InputSpec

/-- The options of a declaration, which stand behind its type. -/
def optionsIn : List Json → Fields
  | .obj options :: _ => options
  | _ => []

/-- The choices that are given, none where they cannot be gone through. -/
def choicesIn : Json → List Json
  | .arr items => items
  | .str s => s.toList.map fun c => .str c.toString
  | .obj fields => fields.map fun f => .str f.1
  | _ => []

/-- An input with its options. -/
def described (name : String) (required : Bool) (options : Fields) (type : String)
    (choices : List Json) : InputSpec where
  name := name
  type := type
  required := required
  default := entryOf options "default"
  min := entryOf options "min"
  max := entryOf options "max"
  step := entryOf options "step"
  options := choices
  multiline := (entryOf options "multiline").isTruthy
  forceInput := (entryOf options "forceInput").isTruthy
  tooltip := entryOf options "tooltip"

/-- The input that a declaration stands for by itself: a list headed by choices or by a type. -/
def ofDeclaration? (name : String) (required : Bool) : Json → Option InputSpec
  | .arr (.arr choices :: rest) =>
    some (described name required (optionsIn rest) choiceType choices)
  | .arr (.str type :: rest) =>
    if type = "COMBO" then
      some (described name required (optionsIn rest) choiceType
        (choicesIn (entryOf (optionsIn rest) "options")))
    else some (described name required (optionsIn rest) type [])
  | _ => none

/-- A combination input whose choices are something that cannot be gone through. -/
def Jams (declared : Json) : Prop :=
  ∃ rest, declared = .arr (.str "COMBO" :: rest) ∧
    isListable (entryOf (optionsIn rest) "options") = false

/-- A list headed by choices or by a type. -/
def isReadable : Json → Bool
  | .arr (.arr _ :: _) => true
  | .arr (.str _ :: _) => true
  | _ => false

/-- The inputs that declarations stand for, in their order. -/
def readable (required : Bool) (declarations : Fields) : List InputSpec :=
  declarations.filterMap fun e => ofDeclaration? e.1 required e.2

/-- What a declaration stands for is an input of its name, in its group. -/
theorem ofDeclaration?_signature (name : String) (required : Bool) (declared : Json) :
    (ofDeclaration? name required declared).map (fun i => (i.name, i.required)) =
      if isReadable declared then some (name, required) else none := by
  rw [ofDeclaration?.eq_def]
  split
  next => rfl
  next => split <;> rfl
  next hchoices htype =>
    have hunreadable : isReadable declared = false := by
      rw [isReadable.eq_def]
      split
      next choices rest => exact absurd rfl (hchoices choices rest)
      next type rest => exact absurd rfl (htype type rest)
      next => rfl
    rw [hunreadable]
    rfl

theorem map_signature_readable (required : Bool) (declarations : Fields) :
    (readable required declarations).map (fun i => (i.name, i.required)) =
      (declarations.filter fun e => isReadable e.2).map fun e => (e.1, required) := by
  rw [readable, List.map_filterMap, ← List.filterMap_eq_map, List.filterMap_filter]
  exact congrArg (declarations.filterMap ·)
    (funext fun e => ofDeclaration?_signature e.1 required e.2)

end InputSpec

open InputSpec (Jams ofDeclaration?)

/-! ## What an entry stands for -/

/-- What an object under a name holds, nothing if there is none. -/
def objectAt (fs : Fields) (name : String) : Fields :=
  match Entries.get? fs name with
  | some (.obj inner) => inner
  | _ => []

/-- The declarations of a group of inputs. -/
def declaredIn (fs : Fields) (group : String) : Fields := objectAt (objectAt fs "input") group

/-- The node type that the entries of an object define under a name, by themselves: the inputs that
are required come before the optional ones. -/
def NodeType.ofEntry (classType : String) (fs : Fields) : NodeType where
  classType := classType
  inputs := InputSpec.readable true (declaredIn fs "required") ++
    InputSpec.readable false (declaredIn fs "optional")
  outputs := Schema.readOutputs (Entries.get? fs "output") (Entries.get? fs "output_name")
  category := entryOf fs "category"
  displayName := entryOf fs "display_name"

/-- The choices of some combination input of an entry cannot be gone through. -/
def JamsIn (fs : Fields) : Prop :=
  ∃ e ∈ declaredIn fs "required" ++ declaredIn fs "optional", Jams e.2

namespace Schema

theorem comboOptions_eq (given : Option Json) :
    comboOptions given =
      if isListable (given.getD .null) then .ok (InputSpec.choicesIn (given.getD .null))
      else .error .wrongType := by
  have hplain (truthy : Bool) (v : Json) (hv : InputSpec.choicesIn v = []) :
      (if truthy then .error .wrongType else .ok [] : Except Fault (List Json)) =
        if (!truthy) = true then .ok (InputSpec.choicesIn v) else .error .wrongType := by
    rw [hv]
    cases truthy <;> rfl
  rw [comboOptions]
  cases given.getD .null with
  | arr _ | str _ | obj _ => rfl
  | null => exact hplain _ .null rfl
  | bool b => exact hplain _ (.bool b) rfl
  | int i => exact hplain _ (.int i) rfl
  | float x => exact hplain _ (.float x) rfl

variable {declared info : Json} {declarations fields : Fields}

/-! ## Declarations -/

theorem readInput_choices (name : String) (choices rest : List Json) (required : Bool) :
    readInput name (.arr (.arr choices :: rest)) required =
      .ok (ofDeclaration? name required (.arr (.arr choices :: rest))) := rfl

theorem readInput_type (name : String) {type : String} (htype : type ≠ "COMBO") (rest : List Json)
    (required : Bool) :
    readInput name (.arr (.str type :: rest)) required =
      .ok (some (.described name required (InputSpec.optionsIn rest) type [])) := by
  unfold readInput
  dsimp only
  split
  next h => cases h
  next h => exact absurd (Json.str.inj h) htype
  next h =>
    obtain rfl := Json.str.inj h
    rfl
  next h => exact absurd rfl (h type)

theorem readInput_combo (name : String) (rest : List Json) (required : Bool) :
    readInput name (.arr (.str "COMBO" :: rest)) required =
      (comboOptions (Entries.get? (InputSpec.optionsIn rest) "options")).map fun choices =>
        some (.described name required (InputSpec.optionsIn rest) choiceType choices) := rfl

theorem not_jams (h : ∀ rest, declared ≠ .arr (.str "COMBO" :: rest)) : ¬ Jams declared := by
  rintro ⟨rest, heq, -⟩
  exact h rest heq

/-- **How a declaration is read**: as what it stands for, unless its choices jam. -/
theorem readInput_eq (name : String) (declared : Json) (required : Bool) :
    (¬ Jams declared ∧
      readInput name declared required = .ok (ofDeclaration? name required declared)) ∨
    (Jams declared ∧ readInput name declared required = .error .wrongType) := by
  cases declared with
  | arr items =>
    cases items with
    | nil => exact .inl ⟨not_jams (by simp), rfl⟩
    | cons head rest =>
      cases head with
      | str type =>
        by_cases htype : type = "COMBO"
        · subst htype
          rw [readInput_combo, comboOptions_eq]
          by_cases hlist : isListable (entryOf (InputSpec.optionsIn rest) "options")
          · refine .inl ⟨?_, ?_⟩
            · rintro ⟨rest', heq, hjam⟩
              obtain rfl := (List.cons.inj (Json.arr.inj heq)).2
              cases hlist.symm.trans hjam
            · rw [entryOf] at hlist
              rw [if_pos hlist]
              rfl
          · refine .inr ⟨⟨rest, rfl, Bool.eq_false_iff.2 hlist⟩, ?_⟩
            rw [entryOf] at hlist
            rw [if_neg hlist]
            rfl
        · refine .inl ⟨not_jams (by simp [htype]), ?_⟩
          rw [readInput_type name htype, ofDeclaration?, if_neg htype]
      | arr choices => exact .inl ⟨not_jams (by simp), readInput_choices name choices rest required⟩
      | null | bool _ | int _ | float _ | obj _ => exact .inl ⟨not_jams (by simp), rfl⟩
  | null | bool _ | int _ | float _ | str _ | obj _ => exact .inl ⟨not_jams (by simp), rfl⟩

theorem readInputs_of_free {required : Bool} (h : ∀ e ∈ declarations, ¬ Jams e.2) :
    readInputs required declarations =
      .ok (InputSpec.readable required declarations) := by
  induction declarations with
  | nil => rfl
  | cons e rest ih =>
    obtain ⟨name, declared⟩ := e
    rw [List.forall_mem_cons] at h
    obtain ⟨-, hread⟩ | ⟨hjam, -⟩ := readInput_eq name declared required
    · rw [readInputs, hread, ih h.2, InputSpec.readable, InputSpec.readable, List.filterMap_cons]
      cases ofDeclaration? name required declared <;> rfl
    · exact absurd hjam h.1

theorem readInputs_of_jams {required : Bool} (h : ∃ e ∈ declarations, Jams e.2) :
    readInputs required declarations = .error .wrongType := by
  induction declarations with
  | nil => simp at h
  | cons e rest ih =>
    obtain ⟨name, declared⟩ := e
    rw [List.exists_mem_cons_iff] at h
    obtain ⟨hfree, hread⟩ | ⟨-, hread⟩ := readInput_eq name declared required
    · rw [readInputs, hread, ih (h.resolve_left hfree)]
      cases ofDeclaration? name required declared <;> rfl
    · rw [readInputs, hread]

/-! ## Entries -/

theorem readGroup_eq (block : Fields) (group : String) (required : Bool) :
    readGroup block group required = readInputs required (objectAt block group) := by
  rw [readGroup, objectAt]
  cases Entries.get? block group with
  | none => rfl
  | some v => cases v <;> rfl

theorem readType_obj (classType : String) (fs : Fields) :
    readType classType (.obj fs) =
      readInputs true (declaredIn fs "required") >>= fun required =>
        readInputs false (declaredIn fs "optional") >>= fun optional =>
          .ok (some { NodeType.ofEntry classType fs with inputs := required ++ optional }) := by
  rw [readType]
  split
  next block h =>
    have hblock : objectAt fs "input" = block := by rw [objectAt, h]
    simp only [declaredIn, hblock, readGroup_eq]
    rfl
  next h =>
    have hblock : objectAt fs "input" = [] := by
      rw [objectAt]
      split
      next block h' => exact absurd h' (h block)
      next => rfl
    simp only [declaredIn, hblock]
    rfl

theorem readType_of_free {fs : Fields} (classType : String) (h : ¬ JamsIn fs) :
    readType classType (.obj fs) = .ok (some (.ofEntry classType fs)) := by
  have hfree : ∀ e ∈ declaredIn fs "required" ++ declaredIn fs "optional", ¬ Jams e.2 :=
    fun e he hjams => h ⟨e, he, hjams⟩
  rw [List.forall_mem_append] at hfree
  rw [readType_obj, readInputs_of_free hfree.1, readInputs_of_free hfree.2]
  rfl

theorem readType_of_jams {fs : Fields} (classType : String) (h : JamsIn fs) :
    readType classType (.obj fs) = .error .wrongType := by
  obtain ⟨e, he, hjams⟩ := h
  rw [readType_obj]
  by_cases hfree : ∀ e ∈ declaredIn fs "required", ¬ Jams e.2
  · have hoptional : e ∈ declaredIn fs "optional" :=
      (List.mem_append.1 he).resolve_left fun hrequired => hfree e hrequired hjams
    rw [readInputs_of_free hfree, readInputs_of_jams ⟨e, hoptional, hjams⟩]
    rfl
  · push Not at hfree
    rw [readInputs_of_jams hfree]
    rfl

/-- The node type that an entry stands for, if it is an object. -/
def defined? (classType : String) (info : Json) : Option NodeType :=
  info.fields?.map (.ofEntry classType)

theorem readTypes_of_free (h : ∀ classType fs, (classType, .obj fs) ∈ fields → ¬ JamsIn fs) :
    readTypes fields =
      .ok (fields.filterMap fun e => (defined? e.1 e.2).map fun t => (e.1, t)) := by
  induction fields with
  | nil => rfl
  | cons e rest ih =>
    obtain ⟨classType, info⟩ := e
    have hrest := ih fun c fs hmem => h c fs (List.mem_cons_of_mem _ hmem)
    cases info with
    | obj fs =>
      rw [readTypes, readType_of_free classType (h classType fs List.mem_cons_self), hrest]
      rfl
    | null | bool _ | int _ | float _ | str _ | arr _ => exact hrest

theorem readTypes_of_jams {classType : String} {fs : Fields} (hmem : (classType, .obj fs) ∈ fields)
    (h : JamsIn fs) : readTypes fields = .error .wrongType := by
  induction fields with
  | nil => cases hmem
  | cons e rest ih =>
    obtain ⟨c, info⟩ := e
    rcases List.mem_cons.1 hmem with heq | hmem
    · obtain ⟨rfl, rfl⟩ := Prod.mk.inj heq
      rw [readTypes, readType_of_jams classType h]
    · have hrest := ih hmem
      cases info with
      | obj fs' =>
        by_cases hjams : JamsIn fs'
        · rw [readTypes, readType_of_jams c hjams]
        · rw [readTypes, readType_of_free c hjams, hrest]
          rfl
      | null | bool _ | int _ | float _ | str _ | arr _ => exact hrest

/-! ## Documents -/

variable {document : Dict Json}

/-- Nowhere in a document is there a combination input whose choices cannot be gone through. -/
def IsFree (document : Dict Json) : Prop :=
  ∀ classType fs, document.get? classType = some (.obj fs) → ¬ JamsIn fs

theorem ofFields_of_free (h : IsFree document) :
    ofFields document.entries = .ok ⟨document.filterMap defined?⟩ := by
  have hread := readTypes_of_free fun classType fs hmem =>
    h classType fs (Dict.get?_eq_some_iff.2 hmem)
  have hentries : (document.entries.filterMap fun e => (defined? e.1 e.2).map fun t => (e.1, t)) =
      (document.filterMap defined?).entries := rfl
  rw [ofFields, hread, hentries, Except.map, Dict.ofList_entries]

theorem ofFields_of_not_free (h : ¬ IsFree document) :
    ofFields document.entries = .error .wrongType := by
  unfold IsFree at h
  push Not at h
  obtain ⟨classType, fs, hget, hjams⟩ := h
  rw [ofFields, readTypes_of_jams (Dict.get?_eq_some_iff.1 hget) hjams]
  rfl

/-- A schema defines what each entry of a document stands for by itself, and nothing else. -/
structure DefinesEach (document : Dict Json) (s : Schema) : Prop where
  /-- The class types that are defined are those whose entry is an object. -/
  has_iff (classType : String) :
    s.has classType ↔ ∃ fs, document.get? classType = some (.obj fs)
  /-- The definition of a class type is that of its own entry, in which each input is that of its
  own declaration. -/
  get?_eq {classType : String} {fs : Fields} (h : document.get? classType = some (.obj fs)) :
    s.get? classType = some (.ofEntry classType fs)
  /-- Its inputs are the readable required ones and then the readable optional ones, in the order of
  the document. -/
  inputs_eq {classType : String} {fs : Fields} {t : NodeType}
    (h : document.get? classType = some (.obj fs)) (ht : s.get? classType = some t) :
    t.inputs.map (fun i => (i.name, i.required)) =
      ((declaredIn fs "required").filter fun e => InputSpec.isReadable e.2).map
        (fun e => (e.1, true)) ++
      ((declaredIn fs "optional").filter fun e => InputSpec.isReadable e.2).map
        fun e => (e.1, false)

theorem definesEach_filterMap (document : Dict Json) :
    DefinesEach document ⟨document.filterMap defined?⟩ := by
  have hget (classType : String) (fs : Fields) (h : document.get? classType = some (.obj fs)) :
      (document.filterMap defined?).get? classType = some (.ofEntry classType fs) := by
    rw [Dict.get?_filterMap, h]
    rfl
  refine ⟨fun classType => ?_, hget _ _, ?_⟩
  · rw [has, Dict.contains, Dict.get?_filterMap]
    cases document.get? classType with
    | none => simp
    | some info => cases info <;> simp [defined?, Json.fields?]
  · intro classType fs t h ht
    obtain rfl := Option.some.inj ((hget classType fs h).symm.trans ht)
    rw [NodeType.ofEntry, List.map_append, InputSpec.map_signature_readable,
      InputSpec.map_signature_readable]

/-- How a document is read. -/
inductive Reading (document : Dict Json) : Except Fault Schema → Prop where
  /-- As what each entry defines, where the choices of all combination inputs can be gone
  through. -/
  | read {s : Schema} (hfree : IsFree document) (hdefines : DefinesEach document s) :
      Reading document (.ok s)
  /-- Not at all, where those of a single one cannot be. -/
  | lost (hjammed : ¬ IsFree document) : Reading document (.error .wrongType)

theorem result_load (source : Json) : (load source).result = ofDocument source := by
  rw [load]
  cases ofDocument source <;> rfl

theorem ofDocument_of_heldBy {source : Json} {fs : Fields} (h : heldBy source = .ok (.obj fs)) :
    ofDocument source = ofFields fs := by
  cases source with
  | str text =>
    rw [heldBy] at h
    rw [ofDocument, h]
    rfl
  | obj held =>
    obtain rfl := Json.obj.inj (Except.ok.inj h)
    rfl
  | null | bool _ | int _ | float _ | arr _ => cases h

/-- **How a schema is loaded**, for every source that holds a document: with the definitions of its
entries, each by itself, unless one of them holds a combination input whose choices cannot be gone
through. -/
theorem reading_load {source : Json} {document : Dict Json}
    (h : heldBy source = .ok (.obj document.entries)) :
    Reading document (load source).result := by
  rw [result_load, ofDocument_of_heldBy h]
  by_cases hfree : IsFree document
  · rw [ofFields_of_free hfree]
    exact .read hfree (definesEach_filterMap document)
  · rw [ofFields_of_not_free hfree]
    exact .lost hfree

/-- A document with an entry that is no object, and with declarations that are headed by nothing and
by a number. -/
def withMalformed : Dict Json :=
  ⟨[("Good", .obj [("input", .obj [("required", .obj [("x", .arr [.str "INT"])])]),
      ("output", .arr [.str "INT"])]),
    ("Bad", .str "not a node"),
    ("Partial", .obj [("input", .obj [("required", .obj [("y", .arr []),
      ("z", .arr [.int 42])])])])], by decide⟩

theorem withMalformed_reading :
    heldBy (.obj withMalformed.entries) = .ok (.obj withMalformed.entries) ∧
      Reading withMalformed (load (.obj withMalformed.entries)).result :=
  ⟨rfl, reading_load rfl⟩

/-- A class type without inputs. -/
def plain : Fields := [("B", .obj [])]

/-- One before it, whose combination input has a number in place of its choices. -/
def numberOfChoices : Json :=
  .obj [("input", .obj [("required", .obj [("x", .arr [.str "COMBO",
    .obj [("options", .int 5)]])])])]

/-- **Choices that cannot be gone through cost a schema its other definitions.** -/
theorem not_ok_numberOfChoices :
    (∀ s, (load (.obj (("A", numberOfChoices) :: plain))).result ≠ .ok s) ∧
      ∃ s, (load (.obj plain)).result = .ok s ∧ s.has "B" := by
  have hraised : (load (.obj (("A", numberOfChoices) :: plain))).result = .error .wrongType := rfl
  rw [hraised]
  constructor
  · intro s hs
    cases hs
  · exact ⟨⟨.ofList [("B", { classType := "B" })]⟩, rfl, rfl⟩

end Schema

end NodeFlow
