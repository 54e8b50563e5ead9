import NodeFlow.Proofs.Document.Readable
import NodeFlow.Proofs.Document.RoundTrip
/-!
# Documents whose malformed parts are emptied

Where the inputs of a node are no object, or the groups of a document or the
members of a group are in no list, a document can be changed to have an empty
object or an empty list there (`tidyEntries`). Such a document can always be
read, and wherever the document itself can, the workflow is the same:
`ofEntries_tidyEntries`.
-/

namespace NodeFlow

/-! ## Changing values -/

/-- Changes the values that stand under some names. -/
def amend (changes : List (String × (Json → Json))) (fs : Fields) : Fields :=
  fs.map fun e => (e.1, ((Entries.get? changes e.1).getD id) e.2)

theorem get?_amend (changes : List (String × (Json → Json))) (fs : Fields) (name : String) :
    Entries.get? (amend changes fs) name =
      (Entries.get? fs name).map ((Entries.get? changes name).getD id) :=
  Entries.get?_map fs (fun name v => ((Entries.get? changes name).getD id) v) name

/-- What stands under any other name is left alone. -/
theorem get?_amend_of_not_mem {changes : List (String × (Json → Json))} {name : String}
    (h : name ∉ Entries.keys changes) (fs : Fields) :
    Entries.get? (amend changes fs) name = Entries.get? fs name := by
  rw [get?_amend, Entries.get?_eq_none_iff.2 h, Option.getD_none, Option.map_id]
  rfl

/-- Changes the entries of an object. -/
def onFields (f : Fields → Fields) : Json → Json
  | .obj fs => .obj (f fs)
  | v => v

@[simp] theorem fields?_onFields (f : Fields → Fields) (v : Json) :
    (onFields f v).fields? = v.fields?.map f := by
  cases v <;> rfl

/-- Changes the items of a list; what is no list becomes one. -/
def onItems (f : List Json → List Json) (v : Json) : Json := .arr (f (v.items?.getD []))

theorem itemsOf_map_onItems {f : List Json → List Json} (hf : f [] = []) (v : Option Json) :
    itemsOf (v.map (onItems f)) = f (itemsOf v) := by
  cases v with
  | none => exact hf.symm
  | some v => rfl

/-! ## Reading what was changed -/

/-- The result of an operation, or another one in its place. -/
def settled {α : Type} (x : Except Fault α) (fallback : α) : Except Fault α :=
  .ok (x.toOption.getD fallback)

theorem settled_of_ok {α : Type} {x : Except Fault α} {a : α} (h : x = .ok a) (fallback : α) :
    settled x fallback = .ok a := by
  rw [h]
  rfl

theorem settled_ite_error {α : Type} (fails : Bool) (e : Fault) (a : α) :
    settled (if fails then .error e else .ok a) a = .ok a := by
  cases fails <;> rfl

/-- What is read of an entry, if it is there or not, is read of what it is changed to. -/
theorem entryOf_amend {α : Type} {changes : List (String × (Json → Json))} {name : String}
    {f : Json → Json} (read read' : Json → α) (h : ∀ v, read (f v) = read' v)
    (hnull : read .null = read' .null) (fs : Fields)
    (hchange : (Entries.get? changes name).getD id = f) :
    read (entryOf (amend changes fs) name) = read' (entryOf fs name) := by
  rw [entryOf, entryOf, get?_amend, hchange]
  cases Entries.get? fs name with
  | none => exact hnull
  | some v => exact h v

/-! ## Groups -/

/-- The members of a group as a list of them: those of a list, the characters of a text, the keys
of an object, or none. -/
def tidyMembers : Json → Json
  | .arr items => .arr (items.filter isMember)
  | .str s => .arr (s.toList.map fun c => .str c.toString)
  | .obj fs => .arr (fs.map fun e => .str e.1)
  | _ => .arr []

/-- A group whose members are a list of them. -/
def tidyGroup : Fields → Fields := amend [("member_nodes", tidyMembers)]

theorem isListable_tidyMembers (v : Json) : isListable (tidyMembers v) = true := by
  cases v <;> rfl

/-- What can be read of members, and no members where they cannot be gone through. -/
theorem readMembers_tidyMembers (v : Json) :
    readMembers (tidyMembers v) = if isListable v then readMembers v else .ok [] := by
  have htruthy : ∀ b : Bool, (.ok [] : Except Fault (List String)) =
      if (!b) = true then (if b then .error .wrongType else .ok []) else .ok [] := by
    intro b
    cases b <;> rfl
  cases v with
  | arr items =>
    rw [tidyMembers, readMembers, List.filter_filter]
    simp only [Bool.and_self]
    rfl
  | str s =>
    have hchars := readMembers_map_str (s.toList.map Char.toString)
    rwa [List.map_map] at hchars
  | obj fs =>
    have hkeys := readMembers_map_str (fs.map Prod.fst)
    rwa [List.map_map] at hkeys
  | null => rfl
  | _ => exact htruthy _

theorem readMembers_entryOf_tidyGroup (fs : Fields) :
    readMembers (entryOf (tidyGroup fs) "member_nodes") =
      if isListable (entryOf fs "member_nodes") then readMembers (entryOf fs "member_nodes")
      else .ok [] :=
  entryOf_amend readMembers (fun v => if isListable v then readMembers v else .ok [])
    readMembers_tidyMembers rfl fs rfl

theorem givenText_tidyGroup (fs : Fields) :
    givenText (tidyGroup fs) "title" "Group" = givenText fs "title" "Group" := by
  have htitle : Entries.get? (tidyGroup fs) "title" = Entries.get? fs "title" :=
    get?_amend_of_not_mem (by decide) fs
  rw [givenText, givenText, htitle]

/-- A group has no other integers once it is tidied. -/
theorem GroupShort.tidyGroup {fs : Fields} (h : GroupShort fs) : GroupShort (tidyGroup fs) where
  title := by
    rw [givenText_tidyGroup]
    exact h.title
  members := by
    have hread := readMembers_entryOf_tidyGroup fs
    have hshort := succeedsIff_readMembers (entryOf (NodeFlow.tidyGroup fs) "member_nodes")
    split at hread
    · rename_i hlist
      obtain ⟨members, hmembers⟩ := (succeedsIff_readMembers _).ok_iff.2 ⟨hlist, h.members⟩
      exact (hshort.of_ok (hread.trans hmembers)).2
    · exact (hshort.of_ok hread).2

theorem readGroups_tidyGroup {vs : List Json} {n : Nat} {gs : List Group}
    (h : readGroups n vs = .ok gs) : readGroups n (vs.map (onFields tidyGroup)) = .ok gs := by
  induction vs generalizing n gs with
  | nil => exact h
  | cons v rest ih =>
    cases v with
    | obj fs =>
      rw [readGroups_obj] at h
      obtain ⟨title, htitle, h⟩ := exists_of_bind_eq_ok h
      obtain ⟨members, hmembers, h⟩ := exists_of_bind_eq_ok h
      obtain ⟨gs, hgs, rfl⟩ := exists_of_map_eq_ok h
      have hlist : isListable (entryOf fs "member_nodes") :=
        ((succeedsIff_readMembers _).of_ok hmembers).1
      have htidy : readMembers (entryOf (tidyGroup fs) "member_nodes") = .ok members := by
        rw [readMembers_entryOf_tidyGroup, if_pos hlist, hmembers]
      have hid : Entries.get? (tidyGroup fs) "id" = Entries.get? fs "id" :=
        get?_amend_of_not_mem (by decide) fs
      rw [List.map_cons, onFields, readGroups_obj, givenText_tidyGroup, htitle, htidy, hid]
      show Except.map _ (readGroups (n + 1) (rest.map (onFields tidyGroup))) = _
      rw [ih hgs]
      rfl
    | _ => exact ih h

/-! ## Nodes -/

/-- The inputs of a node, or none where they are no object. -/
def tidyInputs : Json → Json
  | .obj fs => .obj fs
  | _ => .obj []

/-- A node whose inputs are an object. -/
def tidyNode : Fields → Fields := amend [("inputs", tidyInputs)]

/-- An entry of a document, which may describe a node. -/
def tidyEntry (v : Json) : Json := if (nodeFields? v).isSome then onFields tidyNode v else v

theorem nodeFields?_tidyEntry (v : Json) :
    nodeFields? (tidyEntry v) = (nodeFields? v).map tidyNode := by
  rw [tidyEntry]
  cases hv : nodeFields? v with
  | none => simp [hv]
  | some fs =>
    rw [nodeFields?, Option.filter_eq_some_iff] at hv
    have hclass : Entries.get? (tidyNode fs) "class_type" = Entries.get? fs "class_type" :=
      get?_amend_of_not_mem (by decide) fs
    simp [nodeFields?, hv.1, Option.filter, hclass, hv.2]

theorem get?_tidyNode_of_ne {name : String} (h : name ≠ "inputs") (fs : Fields) :
    Entries.get? (tidyNode fs) name = Entries.get? fs name :=
  get?_amend_of_not_mem (by simpa [Entries.keys] using h) fs

theorem givenInputs_tidyNode (fs : Fields) : givenInputs (tidyNode fs) = givenInputs fs := by
  have hinputs : Entries.get? (tidyNode fs) "inputs" =
      (Entries.get? fs "inputs").map tidyInputs := get?_amend _ fs "inputs"
  rw [givenInputs, givenInputs, hinputs]
  cases Entries.get? fs "inputs" with
  | none => rfl
  | some v => cases v <;> rfl

theorem asRead_tidyNode (key : String) (fs : Fields) (schema : Option Schema) :
    Node.asRead key (tidyNode fs) schema = Node.asRead key fs schema := by
  rw [Node.asRead, Node.asRead, Node.givenClass, Node.givenClass, readTitle, readTitle,
    givenInputs_tidyNode, get?_tidyNode_of_ne (by decide), get?_tidyNode_of_ne (by decide),
    get?_tidyNode_of_ne (by decide)]

theorem isReadable_tidyNode (fs : Fields) :
    Node.isReadable (tidyNode fs) = Node.isReadable fs := by
  rw [Node.isReadable, Node.isReadable, Node.givenClass, Node.givenClass, givenInputs_tidyNode,
    get?_tidyNode_of_ne (by decide)]

namespace Graph

theorem nodesAmong_tidyEntry (candidates : Dict Json) (schema : Option Schema) :
    nodesAmong (candidates.map fun _ v => tidyEntry v) schema = nodesAmong candidates schema := by
  rw [nodesAmong, nodesAmong, Dict.filterMap_map]
  congr 1
  funext key v
  rw [nodeFields?_tidyEntry, Option.map_map]
  congr 1
  funext fs
  exact asRead_tidyNode key fs schema

theorem areReadable_tidyEntry (candidates : Dict Json) :
    areReadable (candidates.map fun _ v => tidyEntry v) = areReadable candidates := by
  have hfields : ((candidates.map fun _ v => tidyEntry v).filterMap fun _ v => nodeFields? v) =
      (candidates.filterMap fun _ v => nodeFields? v).map fun _ fs => tidyNode fs := by
    rw [Dict.filterMap_map, Dict.map_filterMap]
    congr 1
    funext _ v
    exact nodeFields?_tidyEntry v
  rw [areReadable, areReadable, hfields, Dict.map, List.all_map]
  exact List.all_congr rfl fun e => isReadable_tidyNode e.2

theorem notNodes_tidyEntry (candidates : Dict Json) :
    notNodes (candidates.map fun _ v => tidyEntry v) = notNodes candidates := by
  have hsame : (candidates.filter fun _ v => (nodeFields? (tidyEntry v)).isNone) =
      candidates.filter fun _ v => (nodeFields? v).isNone := by
    congr 1
    funext _ v
    rw [nodeFields?_tidyEntry, Option.isNone_map]
  rw [notNodes, notNodes, Dict.filter_map, hsame]
  refine Dict.map_eq_self fun e he => ?_
  obtain ⟨-, hnone⟩ := List.mem_filter.1 he
  rw [tidyEntry, if_neg]
  rw [Option.isNone_iff_eq_none.1 hnone]
  decide

end Graph

/-! ## Documents -/

/-- The entries of an object, of which some may describe nodes. -/
def tidyAll (fs : Fields) : Fields := fs.map fun e => (e.1, tidyEntry e.2)

/-- The groups of a document, whose members are lists of them. -/
def tidyGroups : Json → Json := onItems (List.map (onFields tidyGroup))

/-- A document that keeps its nodes in no list, with empty parts in place of malformed ones. -/
def tidyEntries (document : Fields) : Fields :=
  match (Entries.get? document "nodes").bind Json.fields? with
  | some _ => amend [("nodes", onFields tidyAll), ("groups", tidyGroups)] document
  | none => amend [("groups", tidyGroups)] (tidyAll document)

theorem get?_tidyAll (fs : Fields) (name : String) :
    Entries.get? (tidyAll fs) name = (Entries.get? fs name).map tidyEntry :=
  Entries.get?_map fs (fun _ v => tidyEntry v) name

/-- Only objects describe nodes. -/
theorem tidyEntry_of_fields?_eq_none {v : Json} (h : v.fields? = none) : tidyEntry v = v := by
  rw [tidyEntry, if_neg]
  simp [nodeFields?, h]

theorem items?_tidyEntry (v : Json) : (tidyEntry v).items? = v.items? := by
  cases v with
  | obj fs =>
    rw [tidyEntry]
    split <;> rfl
  | _ => rw [tidyEntry_of_fields?_eq_none rfl]

/-! What stands under the names with a meaning, in either form of a document. -/

theorem get?_tidyEntries_of_some {document nodes : Fields}
    (h : (Entries.get? document "nodes").bind Json.fields? = some nodes) (name : String) :
    Entries.get? (tidyEntries document) name =
      (Entries.get? document name).map ((Entries.get?
        [("nodes", onFields tidyAll), ("groups", tidyGroups)] name).getD id) := by
  rw [tidyEntries, h]
  exact get?_amend _ document name

theorem get?_tidyEntries_of_none {document : Fields}
    (h : (Entries.get? document "nodes").bind Json.fields? = none) (name : String) :
    Entries.get? (tidyEntries document) name =
      ((Entries.get? document name).map tidyEntry).map
        ((Entries.get? [("groups", tidyGroups)] name).getD id) := by
  rw [tidyEntries, h]
  exact (get?_amend _ (tidyAll document) name).trans (by rw [get?_tidyAll])

/-- Nodes that stand apart are tidied, and others stay apart. -/
theorem fields?_nodes_tidyEntries (document : Fields) :
    (Entries.get? (tidyEntries document) "nodes").bind Json.fields? =
      ((Entries.get? document "nodes").bind Json.fields?).map tidyAll := by
  cases hinner : (Entries.get? document "nodes").bind Json.fields? with
  | some nodes =>
    obtain ⟨v, hv, hfields⟩ := Option.bind_eq_some_iff.1 hinner
    rw [get?_tidyEntries_of_some hinner, hv]
    show (onFields tidyAll v).fields? = _
    rw [fields?_onFields, hfields]
  | none =>
    rw [get?_tidyEntries_of_none hinner]
    cases hv : Entries.get? document "nodes" with
    | none => rfl
    | some v =>
      have hfields : v.fields? = none := by simpa [hv] using hinner
      show (tidyEntry v).fields? = _
      rw [tidyEntry_of_fields?_eq_none hfields, hfields]
      rfl

theorem isLayout_tidyEntries (document : Fields) :
    isLayout (tidyEntries document) = isLayout document := by
  cases hinner : (Entries.get? document "nodes").bind Json.fields? with
  | some nodes =>
    obtain ⟨v, hv, hfields⟩ := Option.bind_eq_some_iff.1 hinner
    rw [isLayout, isLayout, get?_tidyEntries_of_some hinner, hv]
    cases v with
    | obj fs => rfl
    | _ => cases hfields
  | none =>
    rw [isLayout, isLayout, get?_tidyEntries_of_none hinner]
    cases hv : Entries.get? document "nodes" with
    | none => rfl
    | some v =>
      have hfields : v.fields? = none := by simpa [hv] using hinner
      rw [Option.map_some, tidyEntry_of_fields?_eq_none hfields]
      rfl

theorem itemsOf_groups_tidyEntries (document : Fields) :
    itemsOf (Entries.get? (tidyEntries document) "groups") =
      (itemsOf (Entries.get? document "groups")).map (onFields tidyGroup) := by
  cases hinner : (Entries.get? document "nodes").bind Json.fields? with
  | some nodes =>
    rw [get?_tidyEntries_of_some hinner]
    exact itemsOf_map_onItems List.map_nil _
  | none =>
    rw [get?_tidyEntries_of_none hinner]
    refine (itemsOf_map_onItems List.map_nil _).trans ?_
    cases Entries.get? document "groups" with
    | none => rfl
    | some v => rw [Option.map_some, itemsOf, itemsOf, Option.bind_some, Option.bind_some,
        items?_tidyEntry]

theorem itemsOf_notes_tidyEntries (document : Fields) :
    itemsOf (Entries.get? (tidyEntries document) "notes") =
      itemsOf (Entries.get? document "notes") := by
  cases hinner : (Entries.get? document "nodes").bind Json.fields? with
  | some nodes =>
    rw [get?_tidyEntries_of_some hinner]
    exact congrArg itemsOf (Option.map_id' (x := Entries.get? document "notes"))
  | none =>
    rw [get?_tidyEntries_of_none hinner]
    cases Entries.get? document "notes" with
    | none => rfl
    | some v =>
      exact congrArg (fun items : Option (List Json) => items.getD []) (items?_tidyEntry v)

namespace Graph

variable {document : Fields} {schema : Option Schema} {g : Graph}

/-- Entries with a meaning of their own are none of the others. -/
theorem outside_amend {changes : List (String × (Json → Json))}
    (h : ∀ name ∈ Entries.keys changes, name ∈ reservedKeys) (document : Fields) :
    outside (amend changes document) = outside document := by
  have hmap : Dict.ofList (amend changes document) =
      (Dict.ofList document).map fun name v => ((Entries.get? changes name).getD id) v :=
    (Dict.map_ofList document fun name v => ((Entries.get? changes name).getD id) v).symm
  rw [outside, outside, hmap, Dict.filter_map]
  refine Dict.map_eq_self fun e he => ?_
  obtain ⟨-, hkey⟩ := List.mem_filter.1 he
  have hnone : Entries.get? changes e.1 = none :=
    Entries.get?_eq_none_iff.2 fun hmem => by simp [h e.1 hmem] at hkey
  rw [hnone]
  rfl

theorem outside_tidyAll (document : Fields) :
    outside (tidyAll document) = (outside document).map fun _ v => tidyEntry v := by
  have hmap : Dict.ofList (tidyAll document) =
      (Dict.ofList document).map fun _ v => tidyEntry v :=
    (Dict.map_ofList document fun _ v => tidyEntry v).symm
  rw [outside, outside, hmap, Dict.filter_map]

/-- The entries that may be nodes are tidied one by one. -/
theorem possibleNodes_tidyEntries (document : Fields) :
    possibleNodes (tidyEntries document) = (possibleNodes document).map fun _ v => tidyEntry v := by
  have hfields := fields?_nodes_tidyEntries document
  rw [possibleNodes, possibleNodes, hfields]
  cases hinner : (Entries.get? document "nodes").bind Json.fields? with
  | some nodes => exact (Dict.map_ofList nodes fun _ v => tidyEntry v).symm
  | none =>
    rw [Option.map_none, tidyEntries, hinner]
    exact (outside_amend (by decide) _).trans (outside_tidyAll document)

/-- **Malformed parts are read as empty ones**, unless reading fails. -/
theorem ofEntries_tidyEntries (h : ofEntries document schema = .ok g) :
    ofEntries (tidyEntries document) schema = .ok g := by
  have hgroups : readGroups 1 (itemsOf (Entries.get? document "groups")) = .ok g.groups →
      readGroups 1 (itemsOf (Entries.get? (tidyEntries document) "groups")) = .ok g.groups := by
    rw [itemsOf_groups_tidyEntries]
    exact readGroups_tidyGroup
  have hfields := fields?_nodes_tidyEntries document
  have hcandidates := possibleNodes_tidyEntries document
  rw [possibleNodes, possibleNodes, hfields] at hcandidates
  cases hinner : (Entries.get? document "nodes").bind Json.fields? with
  | some nodes =>
    rw [hinner] at hfields hcandidates
    dsimp only [Option.map_some] at hcandidates
    have houtside : outside (tidyEntries document) = outside document := by
      rw [tidyEntries, hinner]
      exact outside_amend (by decide) document
    rw [ofEntries_wrapped schema hinner, readParts_eq_ok_iff] at h
    rw [ofEntries_wrapped schema hfields, readParts_eq_ok_iff, hcandidates, houtside,
      itemsOf_notes_tidyEntries, areReadable_tidyEntry, nodesAmong_tidyEntry]
    exact ⟨h.1, hgroups h.2.1, h.2.2⟩
  | none =>
    rw [hinner] at hfields hcandidates
    dsimp only [Option.map_none] at hcandidates
    rw [ofEntries_raw schema hinner, readParts_eq_ok_iff] at h
    rw [ofEntries_raw schema hfields, readParts_eq_ok_iff, hcandidates,
      itemsOf_notes_tidyEntries, areReadable_tidyEntry, nodesAmong_tidyEntry, notNodes_tidyEntry]
    exact ⟨h.1, hgroups h.2.1, h.2.2⟩

end Graph

/-- The members of all groups of such a document can be gone through. -/
theorem groupsListable_tidyEntries (document : Fields) :
    GroupsListable (tidyEntries document) := by
  intro fs hfs
  rw [itemsOf_groups_tidyEntries] at hfs
  obtain ⟨v, -, hv⟩ := List.mem_map.1 hfs
  cases v with
  | obj gs =>
    obtain rfl := Json.obj.inj hv
    exact entryOf_amend isListable (fun _ => true) isListable_tidyMembers rfl gs rfl
  | _ => cases hv

/-- No other integers become texts once a document is tidied. -/
theorem EntriesShort.tidyEntries {document : Fields} (h : EntriesShort document) :
    EntriesShort (tidyEntries document) where
  nodes := by
    have hreadable : Graph.areReadable (Graph.possibleNodes (NodeFlow.tidyEntries document)) := by
      rw [Graph.possibleNodes_tidyEntries, Graph.areReadable_tidyEntry]
      exact Graph.areReadable_iff.2 h.nodes
    exact Graph.areReadable_iff.1 hreadable
  groups := by
    intro fs hfs
    rw [itemsOf_groups_tidyEntries] at hfs
    obtain ⟨v, hv, hfs⟩ := List.mem_map.1 hfs
    cases v with
    | obj gs =>
      obtain rfl := Json.obj.inj hfs
      exact (h.groups gs hv).tidyGroup
    | _ => cases hfs
  notes := by
    rw [itemsOf_notes_tidyEntries]
    exact h.notes

end NodeFlow
