import Mathlib.Data.List.Flatten
import Mathlib.Data.List.Perm.Subperm
import Mathlib.Logic.Relation
import NodeFlow.Proofs.Bypass.Account
/-!
# The limit of hops through bypassed nodes

A larger limit keeps whatever a smaller one keeps (`Widens`), and no limit
beyond the number of bypassed nodes keeps more (`resolveBypassed_limit`). The
next hop depends on the node at hand and on nothing else, so hops that come to
a node twice go round in a circle for ever, and hops that do not are no more
than there are bypassed nodes (`Leads.le_length`). What is lost under such a
limit is therefore lost under any: the hops come to a dead end or into a loop
(`Exhausts`).
-/

namespace NodeFlow

open Bypass
open Relation (ReflTransGen TransGen)

namespace Graph

variable {g : Graph} {limit limit' : Int} {id input type : String} {l l' next : Link} {hops : Nat}

/-! ## Circles and dead ends -/

/-- The hops from a link come into a circle. -/
def Circles (g : Graph) (type : String) (l : Link) : Prop :=
  ∃ m, ReflTransGen (g.Hop type) l m ∧ TransGen (g.Hop type) m m

/-- The hops from a link come to one that no hop leaves: its node is missing, or is bypassed and
has no fitting input. -/
def Stops (g : Graph) (type : String) (l : Link) : Prop :=
  ∃ hops m, g.Leads type hops l m ∧ (∀ next, ¬ g.Hop type m next) ∧ ¬ g.IsLive m

theorem IsLive.not_hop (h : g.IsLive l) : ¬ g.Hop type l next := by
  intro hhop
  have hby := (hop_iff.1 hhop).1
  rw [h.2] at hby
  cases hby

/-- On the way into a circle, and on the circle itself, there is always a next hop. -/
theorem Circles.exists_hop (h : g.Circles type l) :
    ∃ next, g.Hop type l next ∧ g.Circles type next := by
  obtain ⟨m, hto, hround⟩ := h
  rcases hto.cases_head with rfl | ⟨next, hnext, hto⟩
  · obtain ⟨next, hnext, hback⟩ := TransGen.head'_iff.1 hround
    exact ⟨next, hnext, l, hback, hround⟩
  · exact ⟨next, hnext, m, hto, hround⟩

/-- Hops come to one end. -/
theorem Leads.end_unique {hops' : Nat} {m : Link} (h : g.Leads type hops l l')
    (h' : g.Leads type hops' l m) (hend : ∀ next, ¬ g.Hop type l' next)
    (hend' : ∀ next, ¬ g.Hop type m next) : l' = m := by
  induction h generalizing hops' with
  | here =>
    cases h' with
    | here => rfl
    | hop hhop _ => exact absurd hhop (hend _)
  | hop hhop _ ih =>
    cases h' with
    | here => exact absurd hhop (hend' _)
    | hop hhop' hrest =>
      obtain rfl := hhop.unique hhop'
      exact ih hrest hend

/-- Hops that come into a circle do so from wherever they lead. -/
theorem Leads.circles (h : g.Leads type hops l l') (hcircles : g.Circles type l) :
    g.Circles type l' := by
  induction h with
  | here => exact hcircles
  | hop hhop _ ih =>
    obtain ⟨next, hnext, hcircles⟩ := hcircles.exists_hop
    obtain rfl := hnext.unique hhop
    exact ih hcircles

/-- A link at which no hop goes on is not on the way into a circle. -/
theorem Leads.not_circles (h : g.Leads type hops l l') (hend : ∀ next, ¬ g.Hop type l' next) :
    ¬ g.Circles type l := by
  intro hcircles
  obtain ⟨next, hnext, -⟩ := (h.circles hcircles).exists_hop
  exact hend next hnext

/-- **Hops visit different nodes**, each of them bypassed, unless they come into a circle. -/
theorem Leads.exists_sources (h : g.Leads type hops l l') (hno : ¬ g.Circles type l) :
    ∃ ids : List String, ids.length = hops ∧ ids.Nodup ∧ ∀ id ∈ ids, g.isBypassedAt id = true ∧
      ∃ m : Link, m.source = id ∧ ReflTransGen (g.Hop type) l m := by
  induction h with
  | here => exact ⟨[], rfl, List.nodup_nil, by simp⟩
  | @hop hops l next l' hhop _ ih =>
    have hno' : ¬ g.Circles type next := by
      rintro ⟨m, hto, hround⟩
      exact hno ⟨m, hto.head hhop, hround⟩
    obtain ⟨ids, hlength, hnodup, hids⟩ := ih hno'
    refine ⟨l.source :: ids, by rw [List.length_cons, hlength], List.nodup_cons.2 ⟨?_, hnodup⟩, ?_⟩
    · -- a node that is visited again passes on the same link again
      intro hmem
      obtain ⟨-, m, hm, hto⟩ := hids _ hmem
      have hagain : g.Hop type m next := by
        rw [Hop, hm]
        exact hhop
      exact hno ⟨next, .single hhop, .tail' hto hagain⟩
    · intro id hid
      rcases List.mem_cons.1 hid with rfl | hid
      · exact ⟨(hop_iff.1 hhop).1, l, rfl, .refl⟩
      · obtain ⟨hby, m, hm, hto⟩ := hids id hid
        exact ⟨hby, m, hm, hto.head hhop⟩

/-- **There are no more hops than bypassed nodes**, unless they come into a circle. -/
theorem Leads.le_length (h : g.Leads type hops l l') (hno : ¬ g.Circles type l) :
    hops ≤ g.bypassedIds.length := by
  obtain ⟨ids, rfl, hnodup, hids⟩ := h.exists_sources hno
  have hsub : ids ⊆ g.bypassedIds := fun id hid => isBypassedAt_iff_mem.1 (hids id hid).1
  exact (List.subperm_of_subset hnodup hsub).length_le

/-- Hops go on for as long as one likes, or come to an end before. -/
theorem exists_leads (g : Graph) (type : String) (hops : Nat) (l : Link) :
    (∃ l', g.Leads type hops l l') ∨
      ∃ fewer < hops, ∃ l', g.Leads type fewer l l' ∧ ∀ next, ¬ g.Hop type l' next := by
  induction hops generalizing l with
  | zero => exact Or.inl ⟨l, .here l⟩
  | succ hops ih =>
    by_cases hnext : ∃ next, g.Hop type l next
    · obtain ⟨next, hhop⟩ := hnext
      rcases ih next with ⟨l', hleads⟩ | ⟨fewer, hlt, l', hleads, hend⟩
      · exact Or.inl ⟨l', .hop hhop hleads⟩
      · exact Or.inr ⟨fewer + 1, by omega, l', .hop hhop hleads, hend⟩
    · exact Or.inr ⟨0, by omega, l, .here l, not_exists.1 hnext⟩

/-! ## Where an input is wired to, under some limit and under any -/

/-- Where an input that a bypassed node feeds is wired to if hops are not limited. -/
def ComesFrom (g : Graph) (input : String) (l l' : Link) : Prop :=
  ∃ type, typeOfName? input = some type ∧ ∃ hops, g.Leads type hops l l' ∧ g.IsLive l'

/-- **A larger limit** wires an input to the same link. -/
theorem RewiresTo.mono (h : g.RewiresTo limit input l l') (hle : limit ≤ limit') :
    g.RewiresTo limit' input l l' := by
  obtain ⟨type, htype, hops, hlimit, hleads⟩ := h
  exact ⟨type, htype, hops, hlimit.trans hle, hleads⟩

/-- **A limit as large as the number of bypassed nodes** is no limit. -/
theorem rewiresTo_iff_comesFrom (hle : g.bypassedIds.length ≤ limit) :
    g.RewiresTo limit input l l' ↔ g.ComesFrom input l l' := by
  constructor
  · rintro ⟨type, htype, hops, -, hleads⟩
    exact ⟨type, htype, hops, hleads⟩
  · rintro ⟨type, htype, hops, hleads, hlive⟩
    have hfew := hleads.le_length (hleads.not_circles fun _ => hlive.not_hop)
    exact ⟨type, htype, hops, by omega, hleads, hlive⟩

/-- An input that a bypassed node feeds comes to a dead end: its name tells no type, so nothing fits
it, or the hops stop. -/
def DeadEnds (g : Graph) (input : String) (l : Link) : Prop :=
  ∀ type, typeOfName? input = some type → g.Stops type l

/-- An input that a bypassed node feeds comes into a loop. -/
def Loops (g : Graph) (input : String) (l : Link) : Prop :=
  ∃ type, typeOfName? input = some type ∧ g.Circles type l

/-- **What is not wired to anything**, however far the hops may go, comes to a dead end or into a
loop. -/
theorem not_comesFrom_iff :
    (∀ l', ¬ g.ComesFrom input l l') ↔ g.DeadEnds input l ∨ g.Loops input l := by
  constructor
  · intro hnone
    by_contra hneither
    obtain ⟨hdead, hloops⟩ := not_or.1 hneither
    obtain ⟨type, htype, hstops⟩ : ∃ type, typeOfName? input = some type ∧ ¬ g.Stops type l := by
      simpa [DeadEnds] using hdead
    have hcircles : ¬ g.Circles type l := fun hcircles => hloops ⟨type, htype, hcircles⟩
    -- more hops than there are bypassed nodes would come into a circle
    rcases g.exists_leads type (g.bypassedIds.length + 1) l with
      ⟨l', hleads⟩ | ⟨hops, -, l', hleads, hend⟩
    · have := hleads.le_length hcircles
      omega
    · refine hstops ⟨hops, l', hleads, hend, fun hlive => ?_⟩
      exact hnone l' ⟨type, htype, hops, hleads, hlive⟩
  · rintro hlost l' ⟨type, htype, hops, hleads, hlive⟩
    have hend : ∀ next, ¬ g.Hop type l' next := fun _ => hlive.not_hop
    rcases hlost with hdead | ⟨type', htype', hcircles⟩
    · obtain ⟨hops', m, hleads', hend', hdead⟩ := hdead type htype
      obtain rfl := hleads.end_unique hleads' hend hend'
      exact hdead hlive
    · obtain rfl := Option.some.inj (htype.symm.trans htype')
      exact hleads.not_circles hend hcircles

/-! ## What the result keeps -/

/-- What is kept of a workflow as its bypassed nodes are resolved under one limit is kept under
another. -/
structure Widens (g : Graph) (r r' : Result) : Prop where
  /-- An input that is left holds the same: if it was rewired, then to the same link. -/
  inputs : ∀ id input v, r.graph.inputAt? id input = some v → r'.graph.inputAt? id input = some v
  /-- What is gone was gone, in the same order. -/
  gone : (g.goneInputs r'.graph).Sublist (g.goneInputs r.graph)
  /-- What is warned about was warned about. -/
  warnings : r'.warnings.Sublist r.warnings

/-- Nothing is lost of a workflow for want of hops. -/
structure Exhausts (g : Graph) (r : Result) : Prop where
  /-- An input that a bypassed node fed is wired to a live node wherever hops, however many, lead to
  one. -/
  rewired : ∀ id input l, g.isBypassedAt id = false → g.linkAt? id input = some l →
    g.isBypassedAt l.source = true → ∀ l', r.graph.linkAt? id input = some l' ↔
      g.ComesFrom input l l'
  /-- It is gone only where it comes to a dead end or into a loop. -/
  gone : ∀ id input l, g.isBypassedAt id = false → g.linkAt? id input = some l →
    g.isBypassedAt l.source = true →
      (r.graph.inputAt? id input = none ↔ g.DeadEnds input l ∨ g.Loops input l)

theorem resolveInput_mono (hle : limit ≤ limit') {v w : InputValue}
    (h : g.resolveInput limit input v = some w) : g.resolveInput limit' input v = some w := by
  cases v with
  | literal value => exact h
  | slot type => exact h
  | connection source output =>
    rw [resolveInput] at h ⊢
    split at h
    · rename_i hby
      obtain ⟨l', hl', rfl⟩ := Option.map_eq_some_iff.1 h
      have hlonger := (link?_resolution_eq_some_iff.1 hl').mono hle
      rw [if_pos hby, link?_resolution_eq_some_iff.2 hlonger, Option.map_some]
    · rename_i hlive
      rw [if_neg hlive, h]

/-- **Step: an input** that is left under a limit is left as it is under a larger one. -/
theorem inputAt?_resolveBypassed_mono (hk : g.WellKeyed) (hle : limit ≤ limit') {v : InputValue}
    (h : (g.resolveBypassed limit).graph.inputAt? id input = some v) :
    (g.resolveBypassed limit').graph.inputAt? id input = some v := by
  have hlive : g.isBypassedAt id = false := by
    obtain ⟨n, hn, -⟩ := inputAt?_eq_some_iff.1 h
    exact (has_resolveBypassed_iff.1 (has_iff.2 ⟨n, hn⟩)).2
  rw [inputAt?_resolveBypassed hk hlive, Option.bind_eq_some_iff] at h ⊢
  obtain ⟨w, hw, hv⟩ := h
  exact ⟨w, hw, resolveInput_mono hle hv⟩

theorem goneInputs_sublist (hk : g.WellKeyed) (hle : limit ≤ limit') :
    (g.goneInputs (g.resolveBypassed limit').graph).Sublist
      (g.goneInputs (g.resolveBypassed limit).graph) := by
  refine List.Sublist.flatMap_right _ fun n _ => List.Sublist.map _ ?_
  refine List.monotone_filter_right _ fun e he => ?_
  rw [Bool.and_eq_true, Option.isNone_iff_eq_none] at he ⊢
  refine ⟨has_resolveBypassed_iff.2 (has_resolveBypassed_iff.1 he.1), ?_⟩
  -- what were left under the smaller limit would be left under the larger one
  by_contra hleft
  obtain ⟨v, hv⟩ := Option.ne_none_iff_exists'.1 hleft
  cases he.2.symm.trans (inputAt?_resolveBypassed_mono hk hle hv)

/-- **A larger limit keeps what a smaller one keeps.** -/
theorem widens_resolveBypassed (hk : g.WellKeyed) (hle : limit ≤ limit') :
    g.Widens (g.resolveBypassed limit) (g.resolveBypassed limit') where
  inputs _ _ _ h := inputAt?_resolveBypassed_mono hk hle h
  gone := goneInputs_sublist hk hle
  warnings := by
    have hgone := (goneInputs_sublist hk hle).map
      fun e => warning? e.1 e.2.1 e.2.2 (lostAs e.2.1)
    rw [← warnings_eq_gone hk, ← warnings_eq_gone hk] at hgone
    simpa [List.filterMap_map] using hgone.filterMap id

/-- **The result depends on what inputs are wired to** and on nothing else about the limit. -/
theorem resolveBypassed_congr (h : ∀ input l,
    (g.resolution limit input l).link? = (g.resolution limit' input l).link?) :
    g.resolveBypassed limit = g.resolveBypassed limit' := by
  have hinput : g.resolveInput limit = g.resolveInput limit' := by
    funext input v
    cases v with
    | literal value => rfl
    | slot type => rfl
    | connection source output => rw [resolveInput, resolveInput, h]
  have hnode : g.resolveNode limit = g.resolveNode limit' := by
    funext n
    rw [resolveNode, resolveNode, hinput]
  have hwarnings : (g.nodeList.flatMap fun n =>
      (g.resolutions limit n).filterMap fun r => warning? n r.1 r.2.1 r.2.2) =
      g.nodeList.flatMap fun n =>
        (g.resolutions limit' n).filterMap fun r => warning? n r.1 r.2.1 r.2.2 := by
    refine List.flatMap_congr fun n _ => ?_
    rw [resolutions, resolutions]
    split
    · rfl
    · rw [List.filterMap_map, List.filterMap_map]
      refine List.filterMap_congr fun e _ => ?_
      rw [Function.comp_apply, Function.comp_apply, warning?_resolution, warning?_resolution, h]
  rw [resolveBypassed, resolveBypassed, withoutBypassed, withoutBypassed, hnode, hwarnings]

/-- **Limits beyond the number of bypassed nodes** give the same result. -/
theorem resolveBypassed_eq_of_length_le (hle : g.bypassedIds.length ≤ limit)
    (hle' : g.bypassedIds.length ≤ limit') :
    g.resolveBypassed limit = g.resolveBypassed limit' := by
  refine resolveBypassed_congr fun input l => Option.ext fun l' => ?_
  rw [link?_resolution_eq_some_iff, link?_resolution_eq_some_iff, rewiresTo_iff_comesFrom hle,
    rewiresTo_iff_comesFrom hle']

theorem exhausts_resolveBypassed (hk : g.WellKeyed) (hle : g.bypassedIds.length ≤ limit) :
    g.Exhausts (g.resolveBypassed limit) where
  rewired id input l hlive hl hby l' := by
    rw [linkAt?_resolveBypassed hk hlive, hl, Option.bind_some, if_pos hby,
      link?_resolution_eq_some_iff, rewiresTo_iff_comesFrom hle]
  gone id input l hlive hl hby := by
    rw [inputAt?_of_fed hk hlive hl hby, Option.map_eq_none_iff, ← not_comesFrom_iff,
      Option.eq_none_iff_forall_ne_some]
    refine forall_congr' fun l' => not_congr ?_
    rw [link?_resolution_eq_some_iff, rewiresTo_iff_comesFrom hle]

/-- **The limit of hops is monotone and saturates.** A larger limit keeps whatever a smaller one
keeps; limits that are at least the number of bypassed nodes all give the same result, and nothing
is lost in it but what no limit would keep. -/
theorem resolveBypassed_limit (hk : g.WellKeyed) :
    (∀ limit limit', limit ≤ limit' →
      g.Widens (g.resolveBypassed limit) (g.resolveBypassed limit')) ∧
    (∀ limit limit' : Int, g.bypassedIds.length ≤ limit → g.bypassedIds.length ≤ limit' →
      g.resolveBypassed limit = g.resolveBypassed limit') ∧
    ∀ limit : Int, g.bypassedIds.length ≤ limit → g.Exhausts (g.resolveBypassed limit) :=
  ⟨fun _ _ => widens_resolveBypassed hk, fun _ _ => resolveBypassed_eq_of_length_le,
    fun _ => exhausts_resolveBypassed hk⟩

/-- A sampler that gets its model through two bypassed modifiers in a row, asks the second of them
for a text encoder that none of the two has, and gets its latent from two bypassed nodes in a
circle. -/
def rowAndCircle : Graph where
  nodes := .ofList [
    ("1", { id := "1", classType := "UNETLoader" }),
    ("2", { id := "2", classType := "LoraLoader", mode := 4
            inputs := .ofList [("model", .connection "1" 0)] }),
    ("3", { id := "3", classType := "LoraLoader", mode := 4
            inputs := .ofList [("model", .connection "2" 0), ("clip", .connection "2" 1)] }),
    ("4", { id := "4", classType := "LatentBlend", mode := 4
            inputs := .ofList [("samples", .connection "5" 0)] }),
    ("5", { id := "5", classType := "LatentBlend", mode := 4
            inputs := .ofList [("samples", .connection "4" 0)] }),
    ("6", { id := "6", classType := "KSampler"
            inputs := .ofList [("model", .connection "3" 0), ("clip", .connection "3" 1),
              ("latent_image", .connection "4" 0)] })]

/-- The hypothesis of `resolveBypassed_limit` is met. A limit of one loses the model and a limit of
two keeps it; four nodes are bypassed, so a limit of four does as well as any larger one, and what
it loses ends in the row or runs in the circle. -/
theorem rowAndCircle_limit :
    rowAndCircle.WellKeyed ∧
      (rowAndCircle.Widens (rowAndCircle.resolveBypassed 1) (rowAndCircle.resolveBypassed 2) ∧
        (rowAndCircle.resolveBypassed 1).graph.edges = [] ∧
        (rowAndCircle.resolveBypassed 2).graph.edges = [⟨"1", 0, "6", "model"⟩]) ∧
      (rowAndCircle.bypassedIds.length = 4 ∧
        rowAndCircle.resolveBypassed 4 = rowAndCircle.resolveBypassed 100) ∧
      rowAndCircle.Exhausts (rowAndCircle.resolveBypassed 4) ∧
      (rowAndCircle.DeadEnds "clip" ⟨"3", 1⟩ ∨ rowAndCircle.Loops "clip" ⟨"3", 1⟩) ∧
      (rowAndCircle.DeadEnds "latent_image" ⟨"4", 0⟩ ∨
        rowAndCircle.Loops "latent_image" ⟨"4", 0⟩) := by
  have hk : rowAndCircle.WellKeyed := by decide +kernel
  have hfour : rowAndCircle.bypassedIds.length = 4 := by decide +kernel
  have hedges : (rowAndCircle.resolveBypassed 1).graph.edges = [] ∧
      (rowAndCircle.resolveBypassed 2).graph.edges = [⟨"1", 0, "6", "model"⟩] := by
    decide +kernel
  have hgone : (rowAndCircle.resolveBypassed 4).graph.inputAt? "6" "clip" = none ∧
      (rowAndCircle.resolveBypassed 4).graph.inputAt? "6" "latent_image" = none := by
    decide +kernel
  obtain ⟨hwidens, hsame, hexhausts⟩ := resolveBypassed_limit hk
  have hlost := (hexhausts 4 (by omega)).gone
  refine ⟨hk, ⟨hwidens 1 2 (by omega), hedges⟩, ⟨hfour, hsame 4 100 (by omega) (by omega)⟩,
    hexhausts 4 (by omega), ?_, ?_⟩
  · exact (hlost "6" "clip" ⟨"3", 1⟩ (by decide +kernel) (by decide +kernel) (by decide +kernel)).1
      hgone.1
  · exact (hlost "6" "latent_image" ⟨"4", 0⟩ (by decide +kernel) (by decide +kernel)
      (by decide +kernel)).1 hgone.2

end Graph

end NodeFlow
