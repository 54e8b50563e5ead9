import NodeFlow.Compiled
import NodeFlow.Proofs.Compiler.Passes
import NodeFlow.Proofs.Json.Injective
import NodeFlow.Proofs.Json.Reordering
/-!
# What a fingerprint tells apart

The text that is fingerprinted is that of the document with sorted keys.
Sorting picks one of the documents that are the same up to the order of
entries, and texts tell values apart, so two documents have one text exactly
when they are the same up to order (`canonicalText_eq_iff`). Their
fingerprints agree then, and otherwise only where the two texts themselves
collide under the shortened digest. Nothing is assumed of the digest.
-/

namespace NodeFlow

open Json (Keyed NaNFree Reorders Writable)

variable {d d' : Fields}

/-! ## The text that is fingerprinted -/

/-- Equal texts are those of the same document with sorted keys. -/
theorem sortKeys_eq_of_write (hn : NaNFree (.obj d)) (hn' : NaNFree (.obj d'))
    (h : Json.write .canonical (.obj d) = Json.write .canonical (.obj d')) :
    Json.sortKeys (.obj d) = Json.sortKeys (.obj d') := by
  have hchars : Json.chars .canonical 0 (Json.sortKeys (.obj d)) ++ [] =
      Json.chars .canonical 0 (Json.sortKeys (.obj d')) ++ [] := by
    rw [List.append_nil, List.append_nil]
    exact String.ofList_injective h
  have hsorted := (Json.reorders_sortKeys (.obj d)).allScalars hn
  have hsorted' := (Json.reorders_sortKeys (.obj d')).allScalars hn'
  exact (Json.chars_injective Json.Format.separates_canonical rfl _ _ 0 [] [] hsorted hsorted'
    Json.ends_nil Json.ends_nil hchars).1

/-- **Two documents are written alike exactly when they are the same up to the order of
entries.** -/
theorem write_eq_iff (hk : Keyed (.obj d)) (hn : NaNFree (.obj d)) (hn' : NaNFree (.obj d')) :
    Json.write .canonical (.obj d) = Json.write .canonical (.obj d') ↔
      Reorders (.obj d) (.obj d') := by
  rw [Json.reorders_iff hk]
  constructor
  · exact sortKeys_eq_of_write hn hn'
  · intro h
    rw [Json.write, Json.write]
    exact congrArg (fun v => String.ofList (Json.chars .canonical 0 v)) h

theorem canonicalText_eq_ok_iff {text : String} : canonicalText d = .ok text ↔
    Writable (.obj d) ∧ Json.write .canonical (.obj d) = text := by
  rw [canonicalText, withinLimit_eq_ok_iff, Json.isWritable_iff_writable]

theorem canonicalText_eq_error_iff {e : Fault} : canonicalText d = .error e ↔
    ¬ Writable (.obj d) ∧ e = .badValue .unwritableInteger := by
  rw [canonicalText, withinLimit_eq_error_iff, ← Json.isWritable_iff_writable, Bool.not_eq_true]

/-- What can be written still can be with its entries in another order. -/
theorem Json.Reorders.writable_iff {v w : Json} (h : Reorders v w) : Writable v ↔ Writable w :=
  ⟨h.allScalars, h.symm.allScalars⟩

/-- **A document has the text of another one exactly when they are the same up to order.** -/
theorem canonicalText_eq_ok_iff_reorders {text : String} (hk : Keyed (.obj d))
    (hn : NaNFree (.obj d)) (hn' : NaNFree (.obj d')) (htext : canonicalText d = .ok text) :
    canonicalText d' = .ok text ↔ Reorders (.obj d) (.obj d') := by
  obtain ⟨hw, rfl⟩ := canonicalText_eq_ok_iff.1 htext
  rw [canonicalText_eq_ok_iff, ← write_eq_iff hk hn hn']
  constructor
  · rintro ⟨-, h⟩
    exact h.symm
  · intro h
    exact ⟨((write_eq_iff hk hn hn').1 h).writable_iff.1 hw, h.symm⟩

/-! ## Fingerprints -/

/-- Two different texts whose digests agree in the part that a fingerprint keeps. -/
structure Digest.Collide (s t : String) : Prop where
  ne : s ≠ t
  prefix_eq : (Digest.sha256Hex s).toList.take 16 = (Digest.sha256Hex t).toList.take 16

/-- The texts of two documents collide. -/
def TextsCollide (d d' : Fields) : Prop :=
  ∃ text text', canonicalText d = .ok text ∧ canonicalText d' = .ok text' ∧
    Digest.Collide text text'

/-- Fingerprints are the same for the same text, and for texts that collide. -/
theorem fingerprint_eq_ok_iff {f : String} (hf : fingerprint d = .ok f) :
    fingerprint d' = .ok f ↔
      (∃ text, canonicalText d = .ok text ∧ canonicalText d' = .ok text) ∨ TextsCollide d d' := by
  obtain ⟨text, htext, rfl⟩ := exists_of_map_eq_ok hf
  constructor
  · intro h
    obtain ⟨text', htext', hsame⟩ := exists_of_map_eq_ok h
    by_cases heq : text = text'
    · exact .inl ⟨text, htext, heq ▸ htext'⟩
    · exact .inr ⟨text, text', htext, htext', heq, String.ofList_injective hsame.symm⟩
  · rintro (⟨t, ht, ht'⟩ | ⟨t, t', ht, ht', hcollide⟩)
    · obtain rfl := Except.ok.inj (htext.symm.trans ht)
      rw [fingerprint, ht', Except.map]
    · obtain rfl := Except.ok.inj (htext.symm.trans ht)
      rw [fingerprint, ht', Except.map, hcollide.prefix_eq]

theorem Text.length_hex (width n : Nat) : (Text.hex width n).length = width := by
  induction width generalizing n with
  | zero => rfl
  | succ width ih => rw [hex, List.length_append, ih, List.length_singleton]

/-- A digest has 64 digits, so a fingerprint is never the empty text. -/
theorem fingerprint_ne (d : Fields) : fingerprint d ≠ .ok "" := by
  have hwords (s : Digest.State) : s.words.length = 8 := rfl
  have hdigits (words : List UInt32) :
      (words.flatMap fun w => Text.hex 8 w.toNat).length = words.length * 8 := by
    rw [List.length_flatMap]
    simp [Text.length_hex]
  have hlength (text : String) : (Digest.sha256Hex text).toList.length = 64 := by
    rw [Digest.sha256Hex, String.toList_ofList, hdigits, Digest.sha256, hwords]
  intro h
  obtain ⟨text, -, hempty⟩ := exists_of_map_eq_ok h
  have hnil : (Digest.sha256Hex text).toList.take 16 = [] := String.ofList_injective hempty
  have htake := congrArg List.length hnil
  rw [List.length_take, hlength] at htake
  cases htake

/-- What the fingerprints of two documents, and the texts that they are taken of, tell. -/
structure TellApart (d d' : Fields) : Prop where
  /-- There is a text exactly where no integer in the document has too many digits. -/
  returns : (∃ text, canonicalText d = .ok text) ↔ Writable (.obj d)
  /-- Otherwise that is the failure. -/
  fails : ∀ e, canonicalText d = .error e ↔
    e = .badValue .unwritableInteger ∧ ¬ Writable (.obj d)
  /-- One text is that of the documents that are the same up to order. -/
  text : ∀ text, canonicalText d = .ok text →
    (canonicalText d' = .ok text ↔ Reorders (.obj d) (.obj d'))
  /-- One fingerprint is that of documents that are the same up to order, or whose texts collide. -/
  fingerprint : ∀ f, fingerprint d = .ok f →
    (NodeFlow.fingerprint d' = .ok f ↔ Reorders (.obj d) (.obj d') ∨ TextsCollide d d')
  /-- A document has a compiled workflow exactly where it has a text. -/
  compiles : (∃ c : Compiled, c.document = d) ↔ Writable (.obj d)
  /-- Compiled workflows carry one fingerprint if their documents are the same up to order. -/
  invariant : ∀ c c' : Compiled, c.document = d → c'.document = d' →
    Reorders (.obj d) (.obj d') → c.hash = c'.hash
  /-- Compiled workflows with other documents carry other fingerprints, or the texts collide. -/
  distinguishes : ∀ c c' : Compiled, c.document = d → c'.document = d' → c.hash = c'.hash →
    Reorders (.obj d) (.obj d') ∨ TextsCollide d d'

theorem Compiled.exists_document_iff :
    (∃ c : Compiled, c.document = d) ↔ Writable (.obj d) := by
  rw [← Json.isWritable_iff_writable]
  constructor
  · rintro ⟨c, rfl⟩
    exact c.isWritable_document
  · intro hw
    have hhash := hashOf_eq d
    rw [hw, withinLimit_true] at hhash
    exact ⟨{ document := d, hash := _, hash_eq := hhash }, rfl⟩

/-- A compiled workflow carries the fingerprint of its document, or none if that is empty. -/
theorem Compiled.hash_cases (c : Compiled) :
    c.document = [] ∧ c.hash = "" ∨
      c.document ≠ [] ∧ fingerprint c.document = .ok c.hash := by
  have h := c.hash_eq
  rw [hashOf] at h
  split at h
  · exact .inl ⟨List.isEmpty_iff.1 ‹_›, (Except.ok.inj h).symm⟩
  · exact .inr ⟨fun hnil => ‹¬ _› (List.isEmpty_iff.2 hnil), h⟩

/-- **Fingerprints are invariant under reordering and tell all else apart**, up to collisions of
the texts of the documents under the shortened digest. There is none exactly where an integer in
the document has too many digits to be written. -/
theorem tellApart_of_keyed (hk : Keyed (.obj d)) (hn : NaNFree (.obj d))
    (hn' : NaNFree (.obj d')) : TellApart d d' := by
  have htext : ∀ text, canonicalText d = .ok text →
      (canonicalText d' = .ok text ↔ Reorders (.obj d) (.obj d')) :=
    fun _ => canonicalText_eq_ok_iff_reorders hk hn hn'
  have hfingerprint : ∀ f, fingerprint d = .ok f →
      (NodeFlow.fingerprint d' = .ok f ↔ Reorders (.obj d) (.obj d') ∨ TextsCollide d d') := by
    intro f hf
    obtain ⟨text, hd, -⟩ := exists_of_map_eq_ok hf
    rw [fingerprint_eq_ok_iff hf, ← htext text hd]
    refine or_congr_left ⟨?_, fun h => ⟨text, hd, h⟩⟩
    rintro ⟨t, ht, ht'⟩
    rwa [← Except.ok.inj (ht.symm.trans hd)]
  refine ⟨?_, ?_, htext, hfingerprint, Compiled.exists_document_iff, ?_, ?_⟩
  · simp [canonicalText_eq_ok_iff]
  · intro e
    rw [canonicalText_eq_error_iff, and_comm]
  · rintro c c' rfl rfl h
    have hempty : c.document = [] ↔ c'.document = [] := by
      rw [← List.isEmpty_iff, ← List.isEmpty_iff, Bool.not_inj h.isTruthy_eq]
    obtain ⟨hnil, hhash⟩ | ⟨hne, hhash⟩ := c.hash_cases <;>
      obtain ⟨hnil', hhash'⟩ | ⟨hne', hhash'⟩ := c'.hash_cases
    · exact hhash.trans hhash'.symm
    · exact absurd (hempty.1 hnil) hne'
    · exact absurd (hempty.2 hnil') hne
    · exact Except.ok.inj (((hfingerprint _ hhash).2 (.inl h)).symm.trans hhash')
  · rintro c c' rfl rfl h
    obtain ⟨hnil, hhash⟩ | ⟨-, hhash⟩ := c.hash_cases <;>
      obtain ⟨hnil', hhash'⟩ | ⟨-, hhash'⟩ := c'.hash_cases
    · rw [hnil, hnil']
      exact .inl (.refl _)
    · rw [← h, hhash] at hhash'
      exact absurd hhash' (fingerprint_ne _)
    · rw [h, hhash'] at hhash
      exact absurd hhash (fingerprint_ne _)
    · rw [← h] at hhash'
      exact (hfingerprint _ hhash).1 hhash'

/-- A document with an object in it. -/
def nested : Fields :=
  [("b", .obj [("y", .int 1), ("x", .arr [.float .one, .str "é"])]), ("a", .null)]

/-- The same document with the entries of both objects in another order. -/
def nestedSorted : Fields :=
  [("a", .null), ("b", .obj [("x", .arr [.float .one, .str "é"]), ("y", .int 1)])]

theorem tellApart_nested :
    Keyed (.obj nested) ∧ NaNFree (.obj nested) ∧ NaNFree (.obj nestedSorted) ∧
      TellApart nested nestedSorted ∧
      ∃ text, canonicalText nested = .ok text ∧ canonicalText nestedSorted = .ok text := by
  have hone : ∀ x, Json.float .one = .float x → x.isNaN = false := by
    rintro x hx
    cases hx
    decide
  have hkeyed : Keyed (.obj nested) :=
    ⟨by decide, ⟨by decide, trivial, ⟨trivial, trivial, trivial⟩, trivial⟩, trivial, trivial⟩
  have hnan : NaNFree (.obj nested) :=
    ⟨⟨nofun, ⟨hone, nofun, trivial⟩, trivial⟩, nofun, trivial⟩
  have hnan' : NaNFree (.obj nestedSorted) :=
    ⟨nofun, ⟨⟨hone, nofun, trivial⟩, nofun, trivial⟩, trivial⟩
  have htell := tellApart_of_keyed hkeyed hnan hnan'
  have hreorders : Reorders (.obj nested) (.obj nestedSorted) :=
    (Reorders.value [] [("a", .null)] "b" (.entries (.swap _ _ []))).trans (.entries (.swap _ _ []))
  have hwritable : Writable (.obj nested) := (Json.isWritable_iff_writable _).1 (by decide +kernel)
  obtain ⟨text, htext⟩ := htell.returns.2 hwritable
  exact ⟨hkeyed, hnan, hnan', htell, text, htext, (htell.text text htext).2 hreorders⟩

/-- An integer and the double that denotes the same number are told apart. -/
example : (canonicalText [("a", .int 1)]).toOption ≠
    (canonicalText [("a", .float .one)]).toOption := by
  decide +kernel

end NodeFlow
