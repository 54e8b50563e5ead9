import Mathlib.Logic.Function.Basic
import NodeFlow.Modifier.Splice
import NodeFlow.Proofs.Modifier.FreshId
import NodeFlow.Proofs.Validation.Soundness
/-!
# Splicing keeps a workflow sound

A splice is a row of two small changes: a modifier is put in under a fresh
id, and an input is wired to the end of the row. `SoundBy` is what each of
them keeps, soundness together with the rank that shows it. A fresh modifier
ranks just above the node that feeds it, and the old ranks are spread out
first, so the whole row fits between its source and the inputs that are
wired to its end. A splice can fail only where an id would have too many
digits to be written.
-/

namespace NodeFlow.Graph

variable {g h : Graph} {schema : Schema} {rank : String → Nat} {cfg : CompilerSettings}
variable {id input source : String} {l : Link} {n : Node}

/-! ## The two changes -/

theorem node?_put_of_ne (hne : n.id ≠ id) : (g.put n).node? id = g.node? id := by
  rw [node?_put, if_neg hne]

theorem has_put_iff : (g.put n).has id ↔ id = n.id ∨ g.has id := by
  simp only [has_iff, node?_put]
  by_cases he : n.id = id
  · simp [he]
  · simp [he, Ne.symm he]

@[simp]
theorem id_modifierNode (classType id : String) (s : Selection) (source : String) (output : Int) :
    (modifierNode classType id s source output).id = id :=
  rfl

theorem link?_modifierNode (classType id : String) (s : Selection) (source : String)
    (output : Int) (input : String) :
    (modifierNode classType id s source output).link? input =
      if input = "model" then some ⟨source, output⟩ else none := by
  have hnodup : (Entries.keys [("lora_name", InputValue.literal (.str s.name)),
      ("strength_model", .literal (.float s.strength)),
      ("model", .connection source output)]).Nodup := by simp [Entries.keys]
  rw [Node.link?, modifierNode, Dict.get?, Dict.entries_ofList hnodup]
  by_cases hname : "lora_name" = input
  · subst hname
    simp [Entries.get?, InputValue.connection?]
  · by_cases hstrength : "strength_model" = input
    · subst hstrength
      simp [Entries.get?, InputValue.connection?]
    · by_cases hmodel : "model" = input
      · subst hmodel
        simp [Entries.get?, InputValue.connection?]
      · simp [Entries.get?, hname, hstrength, hmodel, Ne.symm hmodel]

theorem node?_setInput (g : Graph) (id input : String) (v : InputValue) (key : String) :
    (g.setInput id input v).node? key =
      if key = id then (g.node? key).map fun n => n.setInput input v else g.node? key :=
  node?_modify _ _ _ _

theorem WellKeyed.setInput (hk : g.WellKeyed) (id input : String) (v : InputValue) :
    (g.setInput id input v).WellKeyed :=
  hk.modify (f := fun n => n.setInput input v) (fun _ => rfl) id

theorem has_setInput_iff {v : InputValue} {key : String} :
    (g.setInput id input v).has key ↔ g.has key := by
  rw [has_iff_mem_keys, has_iff_mem_keys, setInput, modify, Dict.keys_modify]

theorem link?_setInput (n : Node) (input name : String) (l : Link) :
    (n.setInput input l.toInput).link? name = if input = name then some l else n.link? name := by
  rw [Node.link?, Node.setInput, Dict.get?_insert]
  by_cases he : input = name
  · simp [he, Link.toInput, InputValue.connection?]
  · simp [he, Node.link?]

/-- The links of a new node are those it brings along. -/
theorem linkAt?_put (g : Graph) (n : Node) (id input : String) :
    (g.put n).linkAt? id input = if n.id = id then n.link? input else g.linkAt? id input := by
  rw [linkAt?, linkAt?, node?_put]
  split <;> rfl

/-- Wiring an input changes the link of this input and no other. -/
theorem linkAt?_setInput (g : Graph) (id input : String) (l : Link) (key name : String) :
    (g.setInput id input l.toInput).linkAt? key name =
      if key = id ∧ input = name ∧ g.has id then some l else g.linkAt? key name := by
  rw [linkAt?, linkAt?, node?_setInput]
  by_cases hkey : key = id
  · subst hkey
    cases hn : g.node? key with
    | none => simp [has_iff, hn]
    | some n => simp [has_iff, hn, link?_setInput]
  · simp [hkey]

/-! ## Graphs that keep the nodes of another -/

/-- Every node is kept, with its class type, its outputs and its mode. -/
def Keeps (g h : Graph) : Prop :=
  ∀ id n, g.node? id = some n →
    ∃ m, h.node? id = some m ∧ m.classType = n.classType ∧ m.outputs = n.outputs ∧ m.mode = n.mode

theorem Keeps.refl (g : Graph) : g.Keeps g :=
  fun _ n hn => ⟨n, hn, rfl, rfl, rfl⟩

theorem Keeps.trans {k : Graph} (hgh : g.Keeps h) (hhk : h.Keeps k) : g.Keeps k := by
  intro id n hn
  obtain ⟨m, hm, hclass, houtputs, hmode⟩ := hgh id n hn
  obtain ⟨p, hp, hclass', houtputs', hmode'⟩ := hhk id m hm
  exact ⟨p, hp, hclass'.trans hclass, houtputs'.trans houtputs, hmode'.trans hmode⟩

theorem Keeps.has (hkeeps : g.Keeps h) (hid : g.has id) : h.has id := by
  obtain ⟨n, hn⟩ := has_iff.1 hid
  obtain ⟨m, hm, -⟩ := hkeeps id n hn
  exact has_iff.2 ⟨m, hm⟩

/-- Outputs are known from the class type and the outputs of a node, so they stay known. -/
theorem Keeps.admits (hkeeps : g.Keeps h) (hl : g.Admits schema l) : h.Admits schema l := by
  obtain ⟨n, hn, houtput⟩ := hl
  obtain ⟨m, hm, hclass, houtputs, -⟩ := hkeeps l.source n hn
  refine ⟨m, hm, ?_⟩
  rw [knownOutputs, hclass, houtputs]
  exact houtput

/-- A link from the first output is admitted wherever it starts. -/
theorem admits_first (hid : g.has id) : g.Admits schema ⟨id, 0⟩ := by
  obtain ⟨n, hn⟩ := has_iff.1 hid
  exact ⟨n, hn, fun hpos => Int.natCast_pos.2 hpos⟩

theorem keeps_put (hfresh : ¬ g.has n.id) : g.Keeps (g.put n) := by
  intro id m hm
  have hne : n.id ≠ id := fun he => hfresh (he ▸ has_iff.2 ⟨m, hm⟩)
  exact ⟨m, by rw [node?_put_of_ne hne, hm], rfl, rfl, rfl⟩

theorem keeps_setInput (g : Graph) (id input : String) (v : InputValue) :
    g.Keeps (g.setInput id input v) := by
  intro key n hn
  by_cases he : key = id
  · exact ⟨n.setInput input v, by rw [node?_setInput, if_pos he, hn, Option.map_some],
      rfl, rfl, rfl⟩
  · exact ⟨n, by rw [node?_setInput, if_neg he, hn], rfl, rfl, rfl⟩

/-! ## Soundness with its rank -/

/-- Nodes stand under their ids, links start at outputs that exist as far as outputs are known, and
the rank falls along dependencies. -/
structure SoundBy (g : Graph) (schema : Schema) (rank : String → Nat) : Prop where
  wellKeyed : g.WellKeyed
  admits : ∀ id input l, g.linkAt? id input = some l → g.Admits schema l
  ranked : g.RankedBy rank

theorem SoundBy.lt (hg : g.SoundBy schema rank) (hl : g.linkAt? id input = some l) :
    rank l.source < rank id :=
  hg.ranked.lt hl (hg.admits id input l hl).has

theorem SoundBy.scale (hg : g.SoundBy schema rank) (k : Nat) :
    g.SoundBy schema fun id => (k + 1) * rank id :=
  ⟨hg.wellKeyed, hg.admits, hg.ranked.scale k⟩

/-- What is asked of a rank, put in terms of links. -/
theorem rankedBy_of_links
    (hlt : ∀ id input l, g.linkAt? id input = some l → rank l.source < rank id) :
    g.RankedBy rank := by
  rintro a b ⟨-, input, l, hl, rfl⟩
  exact hlt a input l hl

/-- **What a change may do to a sound workflow**: it keeps the nodes and their ranks, and adds a
link from the first output of a node to one that ranks above it. -/
theorem SoundBy.of_keeps {rank' : String → Nat} (hg : g.SoundBy schema rank) (target : String)
    (hk : h.WellKeyed) (hkeeps : g.Keeps h) (hsource : g.has source)
    (hold : ∀ key, g.has key → rank' key = rank key) (hr : rank source < rank' target)
    (hlinks : ∀ key name l, h.linkAt? key name = some l →
      (key = target ∧ l = ⟨source, 0⟩) ∨ g.linkAt? key name = some l) :
    h.SoundBy schema rank' := by
  refine ⟨hk, ?_, rankedBy_of_links ?_⟩
  · intro key name l hl
    rcases hlinks key name l hl with ⟨-, rfl⟩ | hl
    · exact admits_first (hkeeps.has hsource)
    · exact hkeeps.admits (hg.admits key name l hl)
  · intro key name l hl
    rcases hlinks key name l hl with ⟨rfl, rfl⟩ | hl
    · rw [hold source hsource]
      exact hr
    · rw [hold _ (hg.admits key name l hl).has, hold _ (has_of_linkAt? hl)]
      exact hg.lt hl

/-- **Step: a modifier under a fresh id**, ranked above the node that feeds it. -/
theorem SoundBy.put_modifier (hg : g.SoundBy schema rank) (classType : String) (s : Selection)
    (hfresh : ¬ g.has id) (hsource : g.has source) {r : Nat} (hr : rank source < r) :
    (g.put (modifierNode classType id s source 0)).SoundBy schema (Function.update rank id r) := by
  refine hg.of_keeps id (hg.wellKeyed.put _) (keeps_put hfresh) hsource ?_ ?_ ?_
  · intro key hkey
    -- no node had the fresh id, so no rank of a node is overwritten
    have hne : key ≠ id := fun he => hfresh (he ▸ hkey)
    exact Function.update_of_ne hne _ _
  · rw [Function.update_self]
    exact hr
  · intro key input l hl
    rw [linkAt?_put, id_modifierNode, link?_modifierNode] at hl
    split at hl
    · rename_i he
      split at hl
      · exact Or.inl ⟨he.symm, (Option.some.inj hl).symm⟩
      · cases hl
    · exact Or.inr hl

/-- **Step: an input wired to the first output of a node** that ranks lower. -/
theorem SoundBy.setInput (hg : g.SoundBy schema rank) (hsource : g.has source)
    (hr : rank source < rank id) :
    (g.setInput id input (.connection source 0)).SoundBy schema rank := by
  refine hg.of_keeps id (hg.wellKeyed.setInput id input _) (keeps_setInput g id input _) hsource
    (fun _ _ => rfl) hr ?_
  intro key name l hl
  have hlink : InputValue.connection source 0 = (⟨source, 0⟩ : Link).toInput := rfl
  rw [hlink, linkAt?_setInput] at hl
  split at hl
  · rename_i hwired
    exact Or.inl ⟨hwired.1, (Option.some.inj hl).symm⟩
  · exact Or.inr hl

/-! ## Runs -/

/-- The failure of a chain that would need an id with too many digits. -/
def idTooLong : Fault := .badValue .unwritableInteger

theorem appendChain_cons (s : Selection) (rest : Chain) (n : Nat) :
    g.appendChain cfg (s :: rest) source n =
      if n < Numeral.unwritable then
        (g.put (modifierNode cfg.modifierClassType (Json.int n).display s source 0)).appendChain cfg
          rest (Json.int n).display (n + 1 : Nat)
      else .error idTooLong := by
  rw [appendChain, textOfInteger_natCast]
  by_cases hn : n < Numeral.unwritable
  · rw [if_pos hn, if_pos hn]
    rfl
  · rw [if_neg hn, if_neg hn]
    rfl

theorem idsBelow_put_display {n : Nat} {m : Node} (hids : g.IdsBelow n)
    (hn : n < Numeral.unwritable) (hm : m.id = (Json.int n).display) :
    (g.put m).IdsBelow (n + 1 : Nat) := by
  intro key hkey hdigits
  rcases has_put_iff.1 hkey with rfl | hkey
  · refine ⟨n, ?_, by omega⟩
    rw [hm, integerOfText_display_natCast, if_pos hn]
  · exact hids.mono (by omega) key hkey hdigits

/-- **Run: a whole row behind a node.** Old nodes keep their ranks, and the last of the row ranks no
further above the source than the row is long. -/
theorem SoundBy.appendChain {n : Nat} (hg : g.SoundBy schema rank) (cfg : CompilerSettings)
    (chain : Chain) (hids : g.IdsBelow n) (hsource : g.has source) :
    (∃ longer last rank', g.appendChain cfg chain source n = .ok (longer, last) ∧
      longer.SoundBy schema rank' ∧ g.Keeps longer ∧ longer.IdsBelow (n + chain.length) ∧
      longer.has last ∧ (∀ id, g.has id → rank' id = rank id) ∧
      rank' last ≤ rank source + chain.length) ∨
    (g.appendChain cfg chain source n = .error idTooLong ∧
      Numeral.unwritable < n + chain.length) := by
  -- along the chain, because each node is fed by the one before and takes the next number
  induction chain generalizing g source n rank with
  | nil =>
    refine Or.inl ⟨g, source, rank, rfl, hg, Keeps.refl g, ?_, hsource, fun _ _ => rfl, ?_⟩
    · simpa using hids
    · simp
  | cons s rest ih =>
    rw [appendChain_cons]
    by_cases hn : n < Numeral.unwritable
    · rw [if_pos hn]
      have hfresh : ¬ g.has (Json.int n).display := not_has_of_idsBelow hids (Int.le_refl _)
      have hstep := hg.put_modifier cfg.modifierClassType s hfresh hsource
        (Nat.lt_succ_self (rank source))
      have hkeeps : g.Keeps
          (g.put (modifierNode cfg.modifierClassType (Json.int n).display s source 0)) :=
        keeps_put hfresh
      have hids' : (g.put (modifierNode cfg.modifierClassType (Json.int n).display s
          source 0)).IdsBelow (n + 1 : Nat) :=
        idsBelow_put_display hids hn (id_modifierNode ..)
      rcases ih hstep hids' (has_put_iff.2 (Or.inl rfl)) with
        ⟨longer, last, rank', hrun, hsound, hkeeps', hbelow, hlast, hold, hle⟩ | ⟨hrun, hlong⟩
      · refine Or.inl ⟨longer, last, rank', hrun, hsound, hkeeps.trans hkeeps', ?_, hlast, ?_, ?_⟩
        · refine hbelow.mono ?_
          rw [List.length_cons]
          omega
        · intro key hkey
          rw [hold key (hkeeps.has hkey)]
          exact Function.update_of_ne (fun he => hfresh (by rwa [he] at hkey)) _ _
        · rw [id_modifierNode, Function.update_self] at hle
          rw [List.length_cons]
          omega
      · refine Or.inr ⟨hrun, ?_⟩
        rw [List.length_cons]
        omega
    · rw [if_neg hn, List.length_cons]
      exact Or.inr ⟨rfl, by omega⟩

/-- **Run: inputs wired to one node**, all of which rank above it. -/
theorem SoundBy.wire {targets : List (String × String)} (hg : g.SoundBy schema rank)
    (hsource : g.has source) (htargets : ∀ t ∈ targets, rank source < rank t.1) :
    (targets.foldl (fun h t => h.setInput t.1 t.2 (.connection source 0)) g).SoundBy schema rank ∧
      g.Keeps (targets.foldl (fun h t => h.setInput t.1 t.2 (.connection source 0)) g) ∧
      ∀ id, (targets.foldl (fun h t => h.setInput t.1 t.2 (.connection source 0)) g).has id ↔
        g.has id := by
  -- along the targets; wiring one moves no rank and leaves the source where it is
  induction targets generalizing g with
  | nil => exact ⟨hg, Keeps.refl g, fun _ => Iff.rfl⟩
  | cons t targets ih =>
    have hstep : (g.setInput t.1 t.2 (.connection source 0)).SoundBy schema rank :=
      hg.setInput hsource (htargets t (by simp))
    obtain ⟨hsound, hkeeps, hhas⟩ :=
      ih hstep (has_setInput_iff.2 hsource) fun t ht => htargets t (List.mem_cons_of_mem _ ht)
    refine ⟨hsound, (keeps_setInput g _ _ _).trans hkeeps, fun id => ?_⟩
    exact (hhas id).trans has_setInput_iff

/-- **A splice keeps a workflow sound**, if its targets rank above its source, and raises the bound
of the ids by the length of the chain. Otherwise an id would be too long. -/
theorem SoundBy.splice {targets : List (String × String)} {bound : Int}
    (hg : g.SoundBy schema rank) (chain : Chain) (hfloor : 0 ≤ cfg.injectedIdFloor)
    (hbound : cfg.injectedIdFloor ≤ bound) (hids : g.IdsBelow bound) (hsource : g.has source)
    (htargets : ∀ t ∈ targets, g.has t.1 ∧ rank source < rank t.1) :
    (∃ spliced rank', g.splice cfg chain source targets = .ok spliced ∧
      spliced.SoundBy schema rank' ∧ g.Keeps spliced ∧ spliced.IdsBelow (bound + chain.length)) ∨
    (g.splice cfg chain source targets = .error idTooLong ∧
      Numeral.unwritable < bound + chain.length) := by
  -- ids are numbered from a natural number on, since the floor is not negative
  obtain ⟨first, hfirst, hle⟩ := nextId_le_of_idsBelow hids hbound
  obtain ⟨hge, hbelow⟩ := idsBelow_nextId hfirst
  obtain ⟨n, rfl⟩ := Int.eq_ofNat_of_zero_le (by omega : 0 ≤ first)
  -- spread the ranks out, so that the row fits between its source and its targets
  rcases (hg.scale chain.length).appendChain cfg chain hbelow hsource with
    ⟨longer, last, rank', hrun, hsound, hkeeps, hlonger, hlast, hold, hrank⟩ | ⟨hrun, hlong⟩
  · have hwire : ∀ t ∈ targets, rank' last < rank' t.1 := by
      intro t ht
      obtain ⟨hhas, hlt⟩ := htargets t ht
      rw [hold t.1 hhas]
      calc rank' last ≤ (chain.length + 1) * rank source + chain.length := hrank
        _ < (chain.length + 1) * (rank source + 1) := by rw [Nat.mul_add]; omega
        _ ≤ (chain.length + 1) * rank t.1 := Nat.mul_le_mul_left _ hlt
    obtain ⟨hwired, hkeeps', hhas⟩ := hsound.wire hlast hwire
    refine Or.inl ⟨_, rank', ?_, hwired, hkeeps.trans hkeeps', ?_⟩
    · rw [Graph.splice, hfirst]
      simp only [bind, Except.bind, hrun, pure, Except.pure]
    · intro id hid hdigits
      exact hlonger.mono (by omega) id ((hhas id).1 hid) hdigits
  · refine Or.inr ⟨?_, by omega⟩
    rw [Graph.splice, hfirst]
    simp only [bind, Except.bind, hrun]

end NodeFlow.Graph
