import NodeFlow.Proofs.Json.Scalars
/-!
# Values read back

A value is written with gaps between its parts and, where the format says
so, line breaks; the reader skips all of these. `Legible` lists what a value
needs so that its text reads back as the value: no key twice in an object,
integers that are not too long, and doubles that read back by themselves.
`read_write` is the round trip.
-/

namespace NodeFlow.Json

/-! ## Legible values -/

/-- The text of the double, by itself, is read as the double. -/
def ReadsBack (x : Binary64) : Prop :=
  Yields (scalar (Binary64.Notation.document.chars x)) (.float x) []

theorem readsBack_one : ReadsBack .one := ⟨by decide, rfl⟩

mutual

/-- The text of the value determines it for the reader. -/
def Legible : Json → Prop
  | .int i => i.natAbs < Numeral.unwritable
  | .float x => ReadsBack x
  | .arr items => LegibleItems items
  | .obj fields => (Entries.keys fields).Nodup ∧ LegibleFields fields
  | _ => True

/-- All of the values are legible. -/
def LegibleItems : List Json → Prop
  | [] => True
  | v :: rest => Legible v ∧ LegibleItems rest

/-- The values of all entries are legible. -/
def LegibleFields : List (String × Json) → Prop
  | [] => True
  | (_, v) :: rest => Legible v ∧ LegibleFields rest

end

theorem legibleItems_iff {items : List Json} : LegibleItems items ↔ ∀ v ∈ items, Legible v := by
  induction items with
  | nil => exact ⟨nofun, fun _ => trivial⟩
  | cons v items ih => rw [LegibleItems, ih, List.forall_mem_cons]

/-- What stands between items and between a key and its value is a comma or a colon, and blanks. -/
structure Format.Separates (f : Format) : Prop where
  itemGap : ∃ blanks, f.itemGap.toList = ',' :: blanks ∧ ∀ c ∈ blanks, isSpace c
  keyGap : ∃ blanks, f.keyGap.toList = ':' :: blanks ∧ ∀ c ∈ blanks, isSpace c

theorem Format.separates_saved : Format.saved.Separates :=
  ⟨⟨[' '], rfl, by simp [isSpace]⟩, ⟨[' '], rfl, by simp [isSpace]⟩⟩

theorem Format.separates_canonical : Format.canonical.Separates :=
  ⟨⟨[], rfl, nofun⟩, ⟨[], rfl, nofun⟩⟩

theorem Format.separates_readable (indent : Option Nat) : (Format.readable indent).Separates := by
  constructor
  · cases indent with
    | none => exact ⟨[' '], rfl, by simp [isSpace]⟩
    | some n => exact ⟨[], by simp [readable], nofun⟩
  · exact ⟨[' '], by simp [readable], by simp [isSpace]⟩

/-! ## Blanks -/

variable {f : Format} {l : Nat} {cs rest : List Char} {c : Char}

theorem skip_append {blanks : List Char} (h : ∀ c ∈ blanks, isSpace c) (cs : List Char) :
    skip (blanks ++ cs) = skip cs := by
  rw [skip, List.dropWhile_append_of_pos h, skip]

theorem skip_cons (h : isSpace c = false) : skip (c :: cs) = c :: cs := by
  simp [skip, h]

theorem isSpace_of_mem_lineBreak (h : c ∈ f.lineBreak l) : isSpace c := by
  rw [Format.lineBreak] at h
  split at h
  · cases h
  · rcases List.mem_cons.1 h with rfl | h
    · rfl
    · rw [List.eq_of_mem_replicate h]
      rfl

theorem skip_lineBreak_append (cs : List Char) : skip (f.lineBreak l ++ cs) = skip cs :=
  skip_append (fun _ => isSpace_of_mem_lineBreak) cs

theorem ends_lineBreak_append (h : c ∈ closers) : Ends (f.lineBreak l ++ c :: cs) := by
  rw [Format.lineBreak]
  split
  · exact ends_cons h
  · exact ends_cons (by simp [closers])

/-! ## One step of the reader -/

variable {text more next : List Char} {v : Json} {read vs : List Json} {fs fs' : Fields}
variable {s k : String}

/-- The characters that a number or word may start with. -/
def scalarStarts : List Char :=
  ['-', 'n', 't', 'f', 'N', 'I', '0', '1', '2', '3', '4', '5', '6', '7', '8', '9']

theorem mem_scalarStarts_of_integerPart? {w : List Char × List Char}
    (h : integerPart? (c :: cs) = some w) : c ∈ scalarStarts := by
  by_cases hzero : c = '0'
  · simp [scalarStarts, hzero]
  by_cases hrun : '1' ≤ c ∧ c ≤ '9'
  · have hall : ∀ n < 10, Char.ofNat (n + 48) ∈ scalarStarts := by decide
    have hlo : 49 ≤ c.toNat := hrun.1
    have hhi : c.toNat ≤ 57 := hrun.2
    have hmem := hall (c.toNat - 48) (by omega)
    rwa [Nat.sub_add_cancel (by omega), Char.ofNat_toNat] at hmem
  · simp [integerPart?, hrun] at h

theorem Scans.exists_start {p : NumberText → Prop} (h : Scans p text v rest) :
    ∃ c cs, text = c :: cs ∧ c ∈ scalarStarts := by
  rcases h with ⟨w, hw, -, -⟩ | ⟨-, n, hn, -, -⟩
  · have hwords : ∀ w ∈ words, w.1.head?.any (fun c => c ∈ scalarStarts) = true :=
      List.all_iff_forall_prop.1 (by decide)
    obtain ⟨c, hhead, hc⟩ := (Option.any_eq_true _ _).1 (hwords w (List.mem_of_find?_eq_some hw))
    obtain ⟨cs, hcs⟩ := List.head?_eq_some_iff.1 hhead
    obtain ⟨more, rfl⟩ := prefix_of_word? hw
    exact ⟨c, cs ++ more, by simp [hcs], of_decide_eq_true hc⟩
  · cases text with
    | nil => cases hn
    | cons c cs =>
      refine ⟨c, cs, rfl, ?_⟩
      by_cases hminus : c = '-'
      · simp [scalarStarts, hminus]
      · have hdrop : dropMinus (c :: cs) = c :: cs := by simp [dropMinus, hminus]
        rw [hdrop, numberText?, Option.map_eq_some_iff] at hn
        obtain ⟨w, hw, -⟩ := hn
        exact mem_scalarStarts_of_integerPart? hw

theorem value_of_scalar (h : Yields (scalar text) v rest) : Yields (value text) v rest := by
  obtain ⟨c, cs, rfl, hc⟩ := (scalar_yields_iff.1 h).exists_start
  have hall : ∀ c ∈ scalarStarts, c ≠ '"' ∧ c ≠ '[' ∧ c ≠ '\x7b' :=
    List.all_iff_forall_prop.1 (by decide)
  obtain ⟨hquote, hlist, hobject⟩ := hall c hc
  obtain ⟨hshort, h⟩ := h
  refine ⟨hshort, ?_⟩
  rw [value, h]
  all_goals
    intro more heq
    exact absurd (List.cons.inj heq).1 ‹_›

theorem value_of_string (h : Yields (string text [] text) s rest) :
    Yields (value ('"' :: text)) (.str s) rest := by
  obtain ⟨hshort, h⟩ := h
  refine ⟨by simp; omega, ?_⟩
  rw [value, h]

theorem value_of_noItems (h : skip text = ']' :: rest) :
    Yields (value ('[' :: text)) (.arr []) rest := by
  have hle := length_skip_le text
  rw [h] at hle
  refine ⟨by simp at hle ⊢; omega, ?_⟩
  rw [value]
  split
  next more hmore =>
    obtain rfl : rest = more := by simpa [h] using hmore
    rfl
  next hne => exact absurd h (hne rest)

theorem value_of_items (hne : ∀ more, skip text ≠ ']' :: more)
    (h : Yields (items [] (skip text)) vs rest) : Yields (value ('[' :: text)) (.arr vs) rest := by
  obtain ⟨hshort, h⟩ := h
  have hle := length_skip_le text
  refine ⟨by simp; omega, ?_⟩
  rw [value]
  split
  next more hmore => exact absurd hmore (hne more)
  next => rw [h]

theorem value_of_noFields (h : skip text = '\x7d' :: rest) :
    Yields (value ('\x7b' :: text)) (.obj []) rest := by
  have hle := length_skip_le text
  rw [h] at hle
  refine ⟨by simp at hle ⊢; omega, ?_⟩
  rw [value]
  split
  next more hmore =>
    obtain rfl : rest = more := by simpa [h] using hmore
    rfl
  next hne => exact absurd h (hne rest)

theorem value_of_fields (hne : ∀ more, skip text ≠ '\x7d' :: more)
    (h : Yields (fields [] (skip text)) fs rest) :
    Yields (value ('\x7b' :: text)) (.obj fs) rest := by
  obtain ⟨hshort, h⟩ := h
  have hle := length_skip_le text
  refine ⟨by simp; omega, ?_⟩
  rw [value]
  split
  next more hmore => exact absurd hmore (hne more)
  next => rw [h]

theorem items_last (h : Yields (value text) v more) (hmore : skip more = ']' :: rest) :
    Yields (items read text) (v :: read).reverse rest := by
  obtain ⟨hshort, h⟩ := h
  have hle := length_skip_le more
  rw [hmore] at hle
  refine ⟨by simp at hle; omega, ?_⟩
  rw [items]
  simp only [h]
  split
  next heq =>
    obtain rfl : rest = _ := by simpa [hmore] using heq
    rfl
  next heq => simp [hmore] at heq
  next hne _ => exact absurd hmore (hne _)

theorem items_more (h : Yields (value text) v more) (hmore : skip more = ',' :: next)
    (hnext : Yields (items (v :: read) (skip next)) vs rest) :
    Yields (items read text) vs rest := by
  obtain ⟨hshort, h⟩ := h
  obtain ⟨hshort', hnext⟩ := hnext
  have hle := length_skip_le more
  have hle' := length_skip_le next
  rw [hmore] at hle
  refine ⟨by simp at hle; omega, ?_⟩
  rw [items]
  simp only [h]
  split
  next heq => simp [hmore] at heq
  next heq =>
    obtain rfl : next = _ := by simpa [hmore] using heq
    simp only [hnext]
  next hne => exact absurd hmore (hne _)

theorem fields_last (hk : Yields (string text [] text) k cs) (hcs : skip cs = ':' :: next)
    (hv : Yields (value (skip next)) v more) (hmore : skip more = '\x7d' :: rest) :
    Yields (fields fs ('"' :: text)) (Entries.put fs k v) rest := by
  obtain ⟨hkey, hk⟩ := hk
  obtain ⟨hvalue, hv⟩ := hv
  have hcolon := length_skip_le cs
  have hafter := length_skip_le next
  have hend := length_skip_le more
  rw [hcs] at hcolon
  rw [hmore] at hend
  refine ⟨by simp at *; omega, ?_⟩
  rw [fields]
  simp only [hk]
  split
  next heq =>
    obtain rfl : next = _ := by simpa [hcs] using heq
    simp only [hv]
    split
    next heq' =>
      obtain rfl : rest = _ := by simpa [hmore] using heq'
      rfl
    next heq' => simp [hmore] at heq'
    next hne _ => exact absurd hmore (hne _)
  next hne => exact absurd hcs (hne _)

theorem fields_more {tail : List Char} (hk : Yields (string text [] text) k cs)
    (hcs : skip cs = ':' :: next) (hv : Yields (value (skip next)) v more)
    (hmore : skip more = ',' :: tail)
    (htail : Yields (fields (Entries.put fs k v) (skip tail)) fs' rest) :
    Yields (fields fs ('"' :: text)) fs' rest := by
  obtain ⟨hkey, hk⟩ := hk
  obtain ⟨hvalue, hv⟩ := hv
  obtain ⟨hothers, htail⟩ := htail
  have hcolon := length_skip_le cs
  have hafter := length_skip_le next
  have hcomma := length_skip_le more
  have hbehind := length_skip_le tail
  rw [hcs] at hcolon
  rw [hmore] at hcomma
  refine ⟨by simp at *; omega, ?_⟩
  rw [fields]
  simp only [hk]
  split
  next heq =>
    obtain rfl : next = _ := by simpa [hcs] using heq
    simp only [hv]
    split
    next heq' => simp [hmore] at heq'
    next heq' =>
      obtain rfl : tail = _ := by simpa [hmore] using heq'
      simp only [htail]
    next _ hne => exact absurd hmore (hne _)
  next hne => exact absurd hcs (hne _)

/-! ## Whole values -/

/-- The characters that a value may start with. -/
def valueStarts : List Char := '"' :: '[' :: '\x7b' :: scalarStarts

/-- A value that is no string, list or object is written as a number or word. -/
theorem scalar_chars (f : Format) (l : Nat) :
    ∀ {v : Json}, Legible v → (∀ s, v ≠ .str s) → (∀ vs, v ≠ .arr vs) → (∀ fs, v ≠ .obj fs) →
      Yields (scalar (chars f l v)) v []
  | .null, _, _, _, _ => by
    rw [chars]
    exact ⟨by decide, rfl⟩
  | .bool true, _, _, _, _ => by
    rw [chars]
    exact ⟨by decide, rfl⟩
  | .bool false, _, _, _, _ => by
    rw [chars]
    exact ⟨by decide, rfl⟩
  | .int _, h, _, _, _ => by
    rw [chars]
    exact scalar_intChars h
  | .float _, h, _, _, _ => by
    rw [chars]
    exact h
  | .str s, _, hs, _, _ => absurd rfl (hs s)
  | .arr vs, _, _, hvs, _ => absurd rfl (hvs vs)
  | .obj fs, _, _, _, hfs => absurd rfl (hfs fs)

theorem exists_valueStart_of_scans {p : NumberText → Prop} (f : Format) (l : Nat)
    (h : (∀ s, v ≠ .str s) → (∀ vs, v ≠ .arr vs) → (∀ fs, v ≠ .obj fs) →
      Scans p (chars f l v) v []) : ∃ c cs, chars f l v = c :: cs ∧ c ∈ valueStarts := by
  match v with
  | .str s => exact ⟨'"', _, rfl, by decide⟩
  | .arr [] => exact ⟨'[', _, by rw [chars], by decide⟩
  | .arr (_ :: _) => exact ⟨'[', _, by rw [chars], by decide⟩
  | .obj [] => exact ⟨'\x7b', _, by rw [chars], by decide⟩
  | .obj ((_, _) :: _) => exact ⟨'\x7b', _, by rw [chars], by decide⟩
  | .null | .bool _ | .int _ | .float _ =>
    obtain ⟨c, cs, hcs, hc⟩ := (h nofun nofun nofun).exists_start
    exact ⟨c, cs, hcs, by simp [valueStarts, hc]⟩

theorem exists_valueStart (f : Format) (l : Nat) (h : Legible v) :
    ∃ c cs, chars f l v = c :: cs ∧ c ∈ valueStarts :=
  exists_valueStart_of_scans f l fun hs hvs hfs =>
    scalar_yields_iff.1 (scalar_chars f l h hs hvs hfs)

theorem skip_chars_append (h : Legible v) (cs : List Char) :
    skip (chars f l v ++ cs) = chars f l v ++ cs := by
  obtain ⟨c, more, hcs, hc⟩ := exists_valueStart f l h
  have hall : ∀ c ∈ valueStarts, isSpace c = false := List.all_iff_forall_prop.1 (by decide)
  rw [hcs, List.cons_append]
  exact skip_cons (hall c hc)

/-- Where a value starts there is no bracket that closes a list. -/
theorem append_ne_of_valueStart (h : ∃ c cs, text = c :: cs ∧ c ∈ valueStarts) :
    text ++ rest ≠ ']' :: more := by
  obtain ⟨c, cs, rfl, hc⟩ := h
  have hall : ∀ c ∈ valueStarts, c ≠ ']' := List.all_iff_forall_prop.1 (by decide)
  exact fun he => hall c hc (List.cons.inj he).1

theorem skip_stringChars_append (asciiOnly : Bool) (k : String) (cs : List Char) :
    skip (stringChars asciiOnly k ++ cs) = stringChars asciiOnly k ++ cs :=
  skip_cons rfl

theorem stringChars_append_ne (asciiOnly : Bool) (k : String) (cs more : List Char) :
    stringChars asciiOnly k ++ cs ≠ '\x7d' :: more := by
  intro he
  exact absurd (List.cons.inj he).1 (by decide)

theorem put_eq_append {kvs : Fields} (h : (Entries.keys (fs ++ (k, v) :: kvs)).Nodup) :
    Entries.put fs k v = fs ++ [(k, v)] := by
  rw [Entries.keys, List.map_append, List.nodup_append] at h
  exact Entries.put_of_not_mem (fun hk => h.2.2 k hk k (by simp) rfl) v

mutual

/-- A written value is read as itself, in front of a text that may stand behind it. -/
theorem value_chars (hf : f.Separates) :
    ∀ (v : Json) (l : Nat) (rest : List Char), Legible v → Ends rest →
      Yields (value (chars f l v ++ rest)) v rest
  | .null, l, _, h, hrest | .bool _, l, _, h, hrest | .int _, l, _, h, hrest
  | .float _, l, _, h, hrest =>
    value_of_scalar (scalar_append hrest (scalar_chars f l h nofun nofun nofun))
  | .str s, _, rest, _, _ => by
    obtain ⟨text, htext, hs⟩ := string_stringChars f.asciiOnly s rest
    rw [chars, htext]
    exact value_of_string hs
  | .arr [], _, _, _, _ => by
    rw [chars]
    exact value_of_noItems rfl
  | .arr (v :: vs), l, rest, h, _ => by
    have htext : chars f l (.arr (v :: vs)) ++ rest = '[' :: (f.lineBreak (l + 1) ++
        (chars f (l + 1) v ++ (itemsChars f (l + 1) vs ++ (f.lineBreak l ++ ']' :: rest)))) := by
      simp [chars]
    have hskip : skip (f.lineBreak l ++ ']' :: rest) = ']' :: rest := by
      rw [skip_lineBreak_append, skip_cons rfl]
    rw [htext]
    apply value_of_items
    · rw [skip_lineBreak_append, skip_chars_append h.1]
      exact fun _ => append_ne_of_valueStart (exists_valueStart f _ h.1)
    · rw [skip_lineBreak_append, skip_chars_append h.1]
      exact items_itemsChars hf vs v (l + 1) [] _ rest h.2
        (ends_lineBreak_append (by simp [closers])) hskip fun rest => value_chars hf v _ rest h.1
  | .obj [], _, _, _, _ => by
    rw [chars]
    exact value_of_noFields rfl
  | .obj ((k, v) :: kvs), l, rest, h, _ => by
    have htext : chars f l (.obj ((k, v) :: kvs)) ++ rest = '\x7b' :: (f.lineBreak (l + 1) ++
        (stringChars f.asciiOnly k ++ (f.keyGap.toList ++ (chars f (l + 1) v ++
          (fieldsChars f (l + 1) kvs ++ (f.lineBreak l ++ '\x7d' :: rest)))))) := by
      simp [chars]
    have hskip : skip (f.lineBreak l ++ '\x7d' :: rest) = '\x7d' :: rest := by
      rw [skip_lineBreak_append, skip_cons rfl]
    rw [htext]
    apply value_of_fields
    · rw [skip_lineBreak_append, skip_stringChars_append]
      exact stringChars_append_ne _ _ _
    · rw [skip_lineBreak_append, skip_stringChars_append]
      exact fields_fieldsChars hf kvs k v (l + 1) [] _ rest h.1 h.2.1 h.2.2
        (ends_lineBreak_append (by simp [closers])) hskip fun rest => value_chars hf v _ rest h.2.1

/-- Written items are read as themselves, behind those read so far. -/
theorem items_itemsChars (hf : f.Separates) :
    ∀ (vs : List Json) (v : Json) (l : Nat) (read : List Json) (tail rest : List Char),
      LegibleItems vs → Ends tail → skip tail = ']' :: rest →
      (∀ rest, Ends rest → Yields (value (chars f l v ++ rest)) v rest) →
      Yields (items read (chars f l v ++ (itemsChars f l vs ++ tail)))
        (read.reverse ++ v :: vs) rest
  | [], v, l, read, tail, rest, _, htail, hskip, hv => by
    have hlast : Yields (items read (chars f l v ++ tail)) (v :: read).reverse rest :=
      items_last (hv tail htail) hskip
    simpa [itemsChars] using hlast
  | w :: ws, v, l, read, tail, rest, h, htail, hskip, hv => by
    obtain ⟨blanks, hgap, hblanks⟩ := hf.itemGap
    have htext : itemsChars f l (w :: ws) ++ tail = ',' :: (blanks ++ (f.lineBreak l ++
        (chars f l w ++ (itemsChars f l ws ++ tail)))) := by
      simp [itemsChars, hgap]
    have hws := items_itemsChars hf ws w l (v :: read) tail rest h.2 htail hskip fun rest =>
      value_chars hf w l rest h.1
    rw [htext]
    refine items_more (hv _ (ends_cons (by simp [closers]))) (skip_cons rfl) ?_
    rw [skip_append hblanks, skip_lineBreak_append, skip_chars_append h.1]
    simpa using hws

/-- Written entries are read as themselves, behind those read so far. -/
theorem fields_fieldsChars (hf : f.Separates) :
    ∀ (kvs : Fields) (k : String) (v : Json) (l : Nat) (fs : Fields) (tail rest : List Char),
      (Entries.keys (fs ++ (k, v) :: kvs)).Nodup → Legible v → LegibleFields kvs → Ends tail →
      skip tail = '\x7d' :: rest →
      (∀ rest, Ends rest → Yields (value (chars f l v ++ rest)) v rest) →
      Yields (fields fs (stringChars f.asciiOnly k ++ (f.keyGap.toList ++ (chars f l v ++
        (fieldsChars f l kvs ++ tail))))) (fs ++ (k, v) :: kvs) rest
  | [], k, v, l, fs, tail, rest, hkeys, hlegible, _, htail, hskip, hv => by
    obtain ⟨blanks, hgap, hblanks⟩ := hf.keyGap
    obtain ⟨text, htext, hk⟩ := string_stringChars f.asciiOnly k
      (f.keyGap.toList ++ (chars f l v ++ (fieldsChars f l [] ++ tail)))
    have hput := put_eq_append hkeys
    have hafter : skip (f.keyGap.toList ++ (chars f l v ++ (fieldsChars f l [] ++ tail))) =
        ':' :: (blanks ++ (chars f l v ++ tail)) := by
      rw [hgap, List.cons_append, skip_cons rfl, fieldsChars, List.nil_append]
    rw [htext, ← hput]
    refine fields_last hk hafter ?_ hskip
    rw [skip_append hblanks, skip_chars_append hlegible]
    exact hv tail htail
  | (k', w) :: kvs, k, v, l, fs, tail, rest, hkeys, hlegible, h, htail, hskip, hv => by
    obtain ⟨blanks, hgap, hblanks⟩ := hf.keyGap
    obtain ⟨blanks', hgap', hblanks'⟩ := hf.itemGap
    obtain ⟨text, htext, hk⟩ := string_stringChars f.asciiOnly k
      (f.keyGap.toList ++ (chars f l v ++ (fieldsChars f l ((k', w) :: kvs) ++ tail)))
    have hput := put_eq_append hkeys
    obtain ⟨more, hmore, hskipMore⟩ :
        ∃ more, fieldsChars f l ((k', w) :: kvs) ++ tail = ',' :: more ∧
        skip more = stringChars f.asciiOnly k' ++ (f.keyGap.toList ++ (chars f l w ++
          (fieldsChars f l kvs ++ tail))) := by
      refine ⟨blanks' ++ (f.lineBreak l ++ (stringChars f.asciiOnly k' ++ (f.keyGap.toList ++
        (chars f l w ++ (fieldsChars f l kvs ++ tail))))), by simp [fieldsChars, hgap'], ?_⟩
      rw [skip_append hblanks', skip_lineBreak_append, skip_stringChars_append]
    have hafter : skip (f.keyGap.toList ++ (chars f l v ++
        (fieldsChars f l ((k', w) :: kvs) ++ tail))) =
        ':' :: (blanks ++ (chars f l v ++ (fieldsChars f l ((k', w) :: kvs) ++ tail))) := by
      rw [hgap, List.cons_append, skip_cons rfl]
    have hkvs := fields_fieldsChars hf kvs k' w l (fs ++ [(k, v)]) tail rest (by simpa using hkeys)
      h.1 h.2 htail hskip fun rest => value_chars hf w l rest h.1
    have hvalue : Yields (value (skip (blanks ++ (chars f l v ++
        (fieldsChars f l ((k', w) :: kvs) ++ tail))))) v (',' :: more) := by
      rw [skip_append hblanks, skip_chars_append hlegible, hmore]
      exact hv _ (ends_cons (by simp [closers]))
    rw [htext]
    refine fields_more hk hafter hvalue (skip_cons rfl) ?_
    rw [hskipMore, hput]
    simpa using hkvs

end

/-- **The reader takes back what was written**, in every format that keeps the order of keys. -/
theorem read_write (hf : f.Separates) (hsorted : f.sorted = false) (h : Legible v) :
    Json.read (Json.write f v) = .ok v := by
  obtain ⟨c, cs, hcs, hc⟩ := exists_valueStart f 0 h
  have hstart : ∀ c ∈ valueStarts, c.toNat ≠ 0xFEFF := List.all_iff_forall_prop.1 (by decide)
  have hskip : skip (c :: cs) = c :: cs := by
    simpa [hcs] using skip_chars_append (f := f) (l := 0) h []
  obtain ⟨_, hvalue⟩ : Yields (value (skip (c :: cs))) v [] := by
    have hchars := value_chars hf v 0 [] h ends_nil
    rwa [List.append_nil, hcs, ← hskip] at hchars
  rw [write, hsorted, read, String.toList_ofList, if_neg (by simp), hcs, readChars,
    if_neg (hstart c hc), hvalue]
  rfl

end NodeFlow.Json
