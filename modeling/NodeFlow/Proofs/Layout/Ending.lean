import NodeFlow.Outcome
import NodeFlow.Proofs.Layout.Tidied
/-!
# How an import ends

A source that holds no object is refused with a report. A document whose
malformed parts are all of the kind that is passed over is imported, as if
these parts were empty. But some malformed parts are not passed over, and
neither are integers that become texts and are too long to be written; then
there is neither a workflow nor a report. Which of these it is depends on the
source alone: `ending_ofDocument`.
-/

namespace NodeFlow

/-! ## Sources -/

/-- The value that a source holds: the one that its text spells, or the source itself. -/
def heldBy : Json → Except Json.ReadError Json
  | .str text => Json.read text
  | v => .ok v

/-- A source holds no document: its text is not JSON, or what it holds is no object. A text with an
integer that is too long is not counted among these. -/
def HoldsNone (source : Json) : Prop :=
  (∃ e, heldBy source = .error e ∧ ∀ n, e.flaw ≠ .longInteger n) ∨
    ∃ v, heldBy source = .ok v ∧ v.fields? = none

/-- **What comes of a source**: the entries of a document, a report, or a failure that is not
reported. -/
theorem documentFields_cases (source : Json) :
    (∃ document, heldBy source = .ok (.obj document) ∧ documentFields source = .ok document) ∨
    (HoldsNone source ∧
      ∃ r : Report, r.kind = .unreadable ∧ documentFields source = .error (.reported r)) ∨
    ∃ e n, heldBy source = .error e ∧ e.flaw = .longInteger n ∧
      documentFields source = .error (.badValue (.longInteger n)) := by
  have hother : ∀ v : Json, v.fields? = none → heldBy source = .ok v → HoldsNone source :=
    fun v hv hheld => Or.inr ⟨v, hheld, hv⟩
  cases source with
  | obj document => exact Or.inl ⟨document, rfl, rfl⟩
  | str text =>
    rw [documentFields]
    cases hread : Json.read text with
    | ok v =>
      cases v with
      | obj document => exact Or.inl ⟨document, hread, rfl⟩
      | _ => exact Or.inr (Or.inl ⟨hother _ rfl hread, _, rfl, rfl⟩)
    | error e =>
      by_cases hlong : ∃ n, e.flaw = .longInteger n
      · obtain ⟨n, hn⟩ := hlong
        have hfault : Fault.ofRead e = .badValue (.longInteger n) := by rw [Fault.ofRead, hn]
        exact Or.inr (Or.inr ⟨e, n, hread, hn, by simp only [hfault]⟩)
      · have hfault : Fault.ofRead e = .notJson e := by
          rw [Fault.ofRead]
          split
          · rename_i n hn
            exact absurd ⟨n, hn⟩ hlong
          · rfl
        refine Or.inr (Or.inl ⟨Or.inl ⟨e, hread, fun n hn => hlong ⟨n, hn⟩⟩, ?_⟩)
        exact ⟨(DocumentError.notJson e).report (some text), rfl, by simp only [hfault]⟩
  | _ => exact Or.inr (Or.inl ⟨hother _ rfl rfl, _, rfl, rfl⟩)

/-! ## Documents -/

/-- Everything that must be readable in a document is. -/
def IsImportable (document : Fields) : Prop :=
  if isLayout document then Layout.IsReadable document else GroupsListable document

/-- The integers that become texts as a document is imported can be written. -/
def TextsShort (document : Fields) : Prop :=
  if isLayout document then Layout.IsShort document else EntriesShort document

/-- A document of either kind with empty parts in place of malformed ones. -/
def tidied (document : Fields) : Fields :=
  if isLayout document then Layout.tidy document else tidyEntries document

theorem isLayout_tidied (document : Fields) : isLayout (tidied document) = isLayout document := by
  rw [tidied]
  cases h : isLayout document with
  | false => rw [if_neg (by decide), isLayout_tidyEntries, h]
  | true =>
    rw [if_pos rfl, isLayout, Layout.tidy, get?_amend]
    rw [isLayout] at h
    cases hv : Entries.get? document "nodes" with
    | none => simp [hv] at h
    | some v => rfl

/-- A document whose nodes are in a list is read as a layout. -/
theorem exists_ofFields {document : Fields} (h : isLayout document) :
    ∃ l, Layout.ofFields document = .ok l := by
  rw [Layout.ofFields]
  rw [isLayout] at h
  split at h
  · rename_i items hnodes
    rw [hnodes]
    exact ⟨_, rfl⟩
  · cases h

theorem isImportable_tidied (document : Fields) : IsImportable (tidied document) := by
  rw [IsImportable, isLayout_tidied, tidied]
  cases isLayout document with
  | true => exact Layout.isReadable_tidy document
  | false => exact groupsListable_tidyEntries document

theorem TextsShort.tidied {document : Fields} (h : TextsShort document) :
    TextsShort (tidied document) := by
  rw [TextsShort] at h
  rw [TextsShort, isLayout_tidied, NodeFlow.tidied]
  cases hlayout : isLayout document with
  | true =>
    rw [hlayout] at h
    obtain ⟨l, hl⟩ := exists_ofFields hlayout
    exact Layout.IsShort.tidy hl h
  | false =>
    rw [hlayout] at h
    exact EntriesShort.tidyEntries h

namespace Imported

variable {document : Fields} {schema : Schema} {i : Imported}

/-- What a layout is imported as. -/
theorem result_ofLayoutFields (document : Fields) (schema : Schema) :
    (ofLayoutFields document schema).result =
      Layout.ofFields document >>= fun l =>
        (l.toGraph schema).map fun g => ⟨g, l.warnings schema⟩ := by
  rw [ofLayoutFields, Log.Traced.result_bind, Log.Traced.result_timing]
  cases Layout.ofFields document with
  | error e => rfl
  | ok l =>
    show (l.toGraph schema).map _ >>= _ = (l.toGraph schema).map _
    cases l.toGraph schema <;> rfl

theorem result_ofLayout_obj (document : Fields) (schema : Schema) :
    (ofLayout (.obj document) schema).result =
      Layout.ofFields document >>= fun l =>
        (l.toGraph schema).map fun g => ⟨g, l.warnings schema⟩ := by
  rw [ofLayout, Log.Traced.result_bind]
  exact result_ofLayoutFields document schema

theorem result_ofDocument_obj (document : Fields) (schema : Schema) :
    (ofDocument (.obj document) schema).result =
      if isLayout document then
        Layout.ofFields document >>= fun l =>
          (l.toGraph schema).map fun g => ⟨g, l.warnings schema⟩
      else (Graph.ofEntries document (some schema)).map fun g => { graph := g } := by
  rw [ofDocument, Log.Traced.result_bind, Log.Traced.result_ofExcept]
  show (if isLayout document then ofLayoutFields document schema else _).result = _
  cases isLayout document with
  | true => exact result_ofLayoutFields document schema
  | false =>
    rw [if_neg (by decide), if_neg (by decide), Log.Traced.result_bind, Log.Traced.result_ofExcept]
    cases Graph.ofEntries document (some schema) <;> rfl

/-- **A document is imported exactly where what must be readable in it is**, and the integers that
become texts can be written. -/
theorem succeedsIff_ofDocument (document : Fields) (schema : Schema) :
    SucceedsIff (ofDocument (.obj document) schema).result (IsImportable document)
      (TextsShort document) := by
  rw [result_ofDocument_obj, IsImportable, TextsShort]
  cases hlayout : isLayout document with
  | true =>
    obtain ⟨l, hl⟩ := exists_ofFields hlayout
    rw [if_pos rfl, if_pos rfl, if_pos rfl, hl]
    exact (Layout.succeedsIff_toGraph hl schema).map _
  | false =>
    rw [if_neg (by decide), if_neg (by decide), if_neg (by decide)]
    exact (succeedsIff_ofEntries document (some schema)).map _

/-- **Malformed parts that are passed over are imported as empty ones.** -/
theorem ofDocument_tidied (h : (ofDocument (.obj document) schema).result = .ok i) :
    ∃ i', (ofDocument (.obj (tidied document)) schema).result = .ok i' ∧ i'.graph = i.graph := by
  rw [result_ofDocument_obj] at h
  rw [result_ofDocument_obj, isLayout_tidied, tidied]
  cases hlayout : isLayout document with
  | true =>
    rw [hlayout, if_pos rfl] at h
    obtain ⟨l, hl, h⟩ := exists_of_bind_eq_ok h
    obtain ⟨g, hg, rfl⟩ := exists_of_map_eq_ok h
    have htidied : Layout.ofFields (Layout.tidy document) = .ok l.tidied := Layout.ofFields_tidy hl
    rw [if_pos rfl, if_pos rfl, htidied]
    show ∃ i', (l.tidied.toGraph schema).map _ = .ok i' ∧ _
    rw [Layout.toGraph_tidied hg]
    exact ⟨_, rfl, rfl⟩
  | false =>
    rw [hlayout, if_neg (by decide)] at h
    obtain ⟨g, hg, rfl⟩ := exists_of_map_eq_ok h
    rw [if_neg (by decide), if_neg (by decide), Graph.ofEntries_tidyEntries hg]
    exact ⟨_, rfl, rfl⟩

/-! ## Endings -/

/-- How an import ends. -/
inductive Ending (schema : Schema) (source : Json) : Except Fault (Outcome Imported) → Prop where
  /-- With a workflow, where the source holds a document in which everything that must be readable
  is, and no integer that becomes a text is too long. All else that is malformed is as if it were
  empty. -/
  | imported {document : Fields} {i i' : Imported} (hheld : heldBy source = .ok (.obj document))
      (hreadable : IsImportable document) (hshort : TextsShort document)
      (htidied : (ofDocument (.obj (tidied document)) schema).result = .ok i')
      (hgraph : i'.graph = i.graph) : Ending schema source (.ok (.success i))
  /-- With the report of an unreadable document, where it holds no object. -/
  | refused {r : Report} (hnone : HoldsNone source) (hkind : r.kind = .unreadable) :
      Ending schema source (.ok (.failure r))
  /-- With neither, where something that must be readable is not, although the document with empty
  parts could be imported, unless an integer in it is too long. -/
  | raised {document : Fields} {e : Fault} (hheld : heldBy source = .ok (.obj document))
      (hunreadable : ¬ IsImportable document)
      (htidied : TextsShort document →
        ∃ i', (ofDocument (.obj (tidied document)) schema).result = .ok i')
      (hfault : e.IsMalformed) : Ending schema source (.error e)
  /-- With neither, where an integer that becomes a text is too long to be written. -/
  | outgrown {document : Fields} (hheld : heldBy source = .ok (.obj document))
      (hlong : ¬ TextsShort document) :
      Ending schema source (.error (.badValue .unwritableInteger))
  /-- With neither, where its text has an integer that is too long. -/
  | overlong {e : Json.ReadError} {n : Nat} (hheld : heldBy source = .error e)
      (hlong : e.flaw = .longInteger n) : Ending schema source (.error (.badValue (.longInteger n)))

/-- **How an import ends**, for every source and schema. What the endings ask of a source excludes
one another, so each of them comes about exactly where this is given; only of a document that has
something unreadable in it and something too long, either may end the import. -/
theorem ending_ofDocument (source : Json) (schema : Schema) :
    Ending schema source (Outcome.ofExcept (ofDocument source schema).result) := by
  have hresult : ∀ e, documentFields source = .error e →
      (ofDocument source schema).result = .error e := by
    intro e he
    rw [ofDocument, Log.Traced.result_bind, Log.Traced.result_ofExcept, he]
    rfl
  rcases documentFields_cases source with ⟨document, hheld, hfields⟩ | ⟨hnone, r, hkind, hr⟩ |
    ⟨e, n, hheld, hlong, he⟩
  · -- a document: its failures are those of readers, none of which reports
    have hobj : (ofDocument source schema).result = (ofDocument (.obj document) schema).result := by
      rw [ofDocument, ofDocument, hfields]
      rfl
    have hsucceeds := succeedsIff_ofDocument document schema
    rw [hobj]
    cases hrun : (ofDocument (.obj document) schema).result with
    | ok i =>
      obtain ⟨i', hi', hgraph⟩ := ofDocument_tidied hrun
      obtain ⟨hreadable, hshort⟩ := hsucceeds.of_ok hrun
      exact .imported hheld hreadable hshort hi' hgraph
    | error e =>
      rcases hsucceeds.fails e hrun with ⟨hfault, hunreadable⟩ | ⟨rfl, hlong⟩
      · have hplain : Outcome.ofExcept (.error e : Except Fault Imported) = .error e := by
          rcases hfault with rfl | rfl <;> rfl
        rw [hplain]
        refine .raised hheld hunreadable (fun hshort => ?_) hfault
        exact (succeedsIff_ofDocument (tidied document) schema).ok_iff.2
          ⟨isImportable_tidied document, hshort.tidied⟩
      · exact .outgrown hheld hlong
  · rw [hresult _ hr]
    exact .refused hnone hkind
  · rw [hresult _ he]
    exact .overlong hheld hlong

/-- A layout whose only node has a number in place of its slots. -/
def slotsAsNumber : Fields :=
  [("nodes", .arr [.obj [("id", .int 1), ("type", .str "A"), ("inputs", .int 5)]])]

/-- The workflow of a node without inputs. -/
def lone : Graph where
  nodes := .ofList [("1", { id := "1", classType := "A" })]

/-- **Some malformed parts are not passed over**: slots that are a number leave neither a workflow
nor a report, although without slots there is a workflow. -/
theorem not_isOk_slotsAsNumber :
    (∀ o, Outcome.ofExcept (ofDocument (.obj slotsAsNumber) .empty).result ≠ .ok o) ∧
      ∃ i, (ofDocument (.obj (tidied slotsAsNumber)) .empty).result = .ok i ∧ i.graph = lone := by
  have hraised :
      (Outcome.ofExcept (ofDocument (.obj slotsAsNumber) .empty).result).isOk = false := by
    decide +kernel
  have hgraph : (ofDocument (.obj (tidied slotsAsNumber)) .empty).result.toOption.map
      Imported.graph = some lone := by decide +kernel
  constructor
  · intro o ho
    rw [ho] at hraised
    cases hraised
  · obtain ⟨i, hi, hlone⟩ := Option.map_eq_some_iff.1 hgraph
    exact ⟨i, eq_ok_of_toOption hi, hlone⟩

end Imported
end NodeFlow
