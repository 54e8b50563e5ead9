import NodeFlow.Proofs.Json.Doubles
/-!
# Texts tell values apart

A text on one line is the text of one value only, as far as values without
not-a-numbers go: its first character tells strings, lists, objects and
scalars apart, a string ends at its quote, a scalar where the text does not
go on with it, and a list or object at its bracket. Nothing is assumed
about the number of digits of integers or about keys, as nothing is read.
-/

namespace NodeFlow.Json

variable {f : Format} {l : Nat} {cs rest rest' : List Char} {v w : Json} {p : NumberText → Prop}

/-! ## Strings and scalars -/

theorem Yields.unique {α : Type} {text : List Char} {r : Except Failure (Parsed α text)} {a b : α}
    (h : Yields r a rest) (h' : Yields r b rest') : a = b ∧ rest = rest' := by
  obtain ⟨_, rfl⟩ := h
  obtain ⟨_, h'⟩ := h'
  injection h' with h'
  injection h' with ha hrest
  exact ⟨ha, hrest⟩

theorem Scans.unique (h : Scans p cs v rest) (h' : Scans p cs w rest') : v = w ∧ rest = rest' := by
  rcases h with ⟨u, hu, rfl, rfl⟩ | ⟨hword, n, hn, -, rfl⟩
  · rcases h' with ⟨u', hu', rfl, rfl⟩ | ⟨hword, -⟩
    · obtain rfl := Option.some.inj (hu.symm.trans hu')
      exact ⟨rfl, rfl⟩
    · cases hu.symm.trans hword
  · rcases h' with ⟨u', hu', -⟩ | ⟨-, n', hn', -, rfl⟩
    · cases hword.symm.trans hu'
    · obtain ⟨rfl, rfl⟩ := Prod.mk.inj (Option.some.inj (hn.symm.trans hn'))
      exact ⟨rfl, rfl⟩

theorem Scans.mono {p' : NumberText → Prop} (hp : ∀ n, p n → p' n) (h : Scans p cs v rest) :
    Scans p' cs v rest :=
  Or.imp_right (fun ⟨hword, n, hn, hpn, hv⟩ => ⟨hword, n, hn, hp n hpn, hv⟩) h

theorem stringChars_injective {asciiOnly : Bool} {s t : String}
    (h : stringChars asciiOnly s ++ rest = stringChars asciiOnly t ++ rest') :
    s = t ∧ rest = rest' := by
  obtain ⟨text, htext, hs⟩ := string_stringChars asciiOnly s rest
  obtain ⟨text', htext', ht⟩ := string_stringChars asciiOnly t rest'
  obtain rfl : text = text' := (List.cons.inj (htext.symm.trans (h.trans htext'))).2
  exact hs.unique ht

/-- The character that opens a string, a list or an object. -/
def opener? : Json → Option Char
  | .str _ => some '"'
  | .arr _ => some '['
  | .obj _ => some '\x7b'
  | _ => none

/-- The text of a scalar is scanned as the scalar. -/
theorem scans_chars (f : Format) (l : Nat) : ∀ {v : Json}, opener? v = none → NaNFree v →
    Scans (fun _ => True) (chars f l v) v []
  | .null, _, _ => by
    rw [chars]
    exact .inl ⟨_, rfl, rfl, rfl⟩
  | .bool true, _, _ => by
    rw [chars]
    exact .inl ⟨_, rfl, rfl, rfl⟩
  | .bool false, _, _ => by
    rw [chars]
    exact .inl ⟨_, rfl, rfl, rfl⟩
  | .int i, _, _ => by
    rw [chars]
    exact scans_intChars trivial
  | .float x, _, h => by
    rw [chars]
    exact Scans.mono (fun _ _ => trivial) (scalar_yields_iff.1 (readsBack (h x rfl)))

/-! ## The first character -/

theorem exists_valueStart_of_nanFree (f : Format) (l : Nat) (h : NaNFree v) :
    ∃ c cs, chars f l v = c :: cs ∧ c ∈ valueStarts := by
  refine exists_valueStart_of_scans (p := fun _ => True) f l fun hs hvs hfs => ?_
  refine scans_chars f l ?_ h
  cases v with
  | str s => exact absurd rfl (hs s)
  | arr vs => exact absurd rfl (hvs vs)
  | obj fs => exact absurd rfl (hfs fs)
  | null | bool _ | int _ | float _ => rfl

/-- The first character of a text tells what it is the text of. -/
theorem opener?_eq (f : Format) (l : Nat) (h : NaNFree v) (rest : List Char) :
    opener? v = (chars f l v ++ rest).head?.filter (· ∉ scalarStarts) := by
  cases hopener : opener? v with
  | none =>
    obtain ⟨c, cs, hcs, hc⟩ := (scans_chars f l hopener h).exists_start
    rw [hcs, List.cons_append, List.head?_cons, Option.filter_some, if_neg (by simpa using hc)]
  | some c =>
    cases v with
    | str s =>
      cases hopener
      rfl
    | arr vs =>
      cases hopener
      cases vs with
      | nil => rw [chars]; rfl
      | cons v vs => rw [chars]; rfl
    | obj fs =>
      cases hopener
      cases fs with
      | nil => rw [chars]; rfl
      | cons e fs => rw [chars]; rfl
    | null | bool _ | int _ | float _ => cases hopener

/-- Texts that start alike are those of values of one kind. -/
theorem opener?_congr (hv : NaNFree v) (hw : NaNFree w)
    (h : chars f l v ++ rest = chars f l w ++ rest') : opener? v = opener? w := by
  rw [opener?_eq f l hv rest, h, ← opener?_eq f l hw rest']

/-- Where there is a value the list does not end. -/
theorem chars_append_ne (f : Format) (l : Nat) (h : NaNFree v) (cs more : List Char) :
    chars f l v ++ cs ≠ ']' :: more :=
  append_ne_of_valueStart (exists_valueStart_of_nanFree f l h)

/-! ## Values -/

theorem Format.lineBreak_eq_nil (hline : f.indent = none) (l : Nat) : f.lineBreak l = [] := by
  rw [lineBreak, hline]

/-- What is behind the items of a list, or the entries of an object. -/
theorem ends_itemsChars (hf : f.Separates) {c : Char} (hc : c ∈ closers) (vs : List Json) :
    Ends (itemsChars f l vs ++ c :: rest) := by
  cases vs with
  | nil => exact ends_cons hc
  | cons v vs =>
    obtain ⟨blanks, hgap, -⟩ := hf.itemGap
    rw [itemsChars, hgap]
    exact ends_cons (by decide)

theorem ends_fieldsChars (hf : f.Separates) {c : Char} (hc : c ∈ closers) (fs : Fields) :
    Ends (fieldsChars f l fs ++ c :: rest) := by
  cases fs with
  | nil => exact ends_cons hc
  | cons e fs =>
    obtain ⟨blanks, hgap, -⟩ := hf.itemGap
    rw [fieldsChars, hgap]
    exact ends_cons (by decide)

theorem chars_arr_append (hline : f.indent = none) (l : Nat) (v : Json) (vs : List Json)
    (rest : List Char) : chars f l (.arr (v :: vs)) ++ rest =
      '[' :: (chars f (l + 1) v ++ (itemsChars f (l + 1) vs ++ ']' :: rest)) := by
  simp [chars, Format.lineBreak_eq_nil hline]

theorem chars_obj_append (hline : f.indent = none) (l : Nat) (k : String) (v : Json) (fs : Fields)
    (rest : List Char) : chars f l (.obj ((k, v) :: fs)) ++ rest =
      '\x7b' :: (stringChars f.asciiOnly k ++ (f.keyGap.toList ++
        (chars f (l + 1) v ++ (fieldsChars f (l + 1) fs ++ '\x7d' :: rest)))) := by
  simp [chars, Format.lineBreak_eq_nil hline]

theorem itemsChars_append (hline : f.indent = none) (l : Nat) (v : Json) (vs : List Json)
    (rest : List Char) : itemsChars f l (v :: vs) ++ rest =
      f.itemGap.toList ++ (chars f l v ++ (itemsChars f l vs ++ rest)) := by
  simp [itemsChars, Format.lineBreak_eq_nil hline]

theorem fieldsChars_append (hline : f.indent = none) (l : Nat) (k : String) (v : Json) (fs : Fields)
    (rest : List Char) : fieldsChars f l ((k, v) :: fs) ++ rest =
      f.itemGap.toList ++ (stringChars f.asciiOnly k ++ (f.keyGap.toList ++
        (chars f l v ++ (fieldsChars f l fs ++ rest)))) := by
  simp [fieldsChars, Format.lineBreak_eq_nil hline]

theorem itemGap_append_ne (hf : f.Separates) {c : Char} (hc : c ≠ ',') (cs more : List Char) :
    f.itemGap.toList ++ cs ≠ c :: more := by
  obtain ⟨blanks, hgap, -⟩ := hf.itemGap
  rw [hgap, List.cons_append]
  exact fun he => hc (List.cons.inj he).1.symm

mutual

/-- Texts on one line that go on alike, where values may end, are those of the same value. -/
theorem chars_injective (hf : f.Separates) (hline : f.indent = none) :
    ∀ (v w : Json) (l : Nat) (rest rest' : List Char), NaNFree v → NaNFree w → Ends rest →
      Ends rest' → chars f l v ++ rest = chars f l w ++ rest' → v = w ∧ rest = rest'
  | .null, w, l, rest, rest', hv, hw, hrest, hrest', h
  | .bool _, w, l, rest, rest', hv, hw, hrest, hrest', h
  | .int _, w, l, rest, rest', hv, hw, hrest, hrest', h
  | .float _, w, l, rest, rest', hv, hw, hrest, hrest', h => by
    have hopener := opener?_congr hv hw h
    have hscans := (scans_chars f l rfl hv).append hrest
    rw [h] at hscans
    exact hscans.unique ((scans_chars f l hopener.symm hw).append hrest')
  | .str s, w, l, rest, rest', hv, hw, _, _, h => by
    have hopener := opener?_congr hv hw h
    cases w with
    | str t =>
      obtain ⟨rfl, hrest⟩ := stringChars_injective h
      exact ⟨rfl, hrest⟩
    | null | bool _ | int _ | float _ | arr _ | obj _ => cases hopener
  | .arr [], w, l, rest, rest', hv, hw, _, _, h => by
    have hopener := opener?_congr hv hw h
    cases w with
    | arr ws =>
      cases ws with
      | nil => exact ⟨rfl, List.append_cancel_left h⟩
      | cons w ws =>
        rw [chars_arr_append hline, chars] at h
        exact absurd (List.cons.inj h).2.symm (chars_append_ne f _ hw.1 _ _)
    | null | bool _ | int _ | float _ | str _ | obj _ => cases hopener
  | .arr (v :: vs), w, l, rest, rest', hv, hw, _, _, h => by
    have hopener := opener?_congr hv hw h
    cases w with
    | arr ws =>
      cases ws with
      | nil =>
        rw [chars_arr_append hline, chars] at h
        exact absurd (List.cons.inj h).2 (chars_append_ne f _ hv.1 _ _)
      | cons w ws =>
        rw [chars_arr_append hline, chars_arr_append hline] at h
        obtain ⟨rfl, hvs⟩ := chars_injective hf hline v w _ _ _ hv.1 hw.1
          (ends_itemsChars hf (by decide) vs) (ends_itemsChars hf (by decide) ws)
          (List.cons.inj h).2
        obtain ⟨rfl, hrest⟩ := itemsChars_injective hf hline vs ws _ rest rest' hv.2 hw.2 hvs
        exact ⟨rfl, hrest⟩
    | null | bool _ | int _ | float _ | str _ | obj _ => cases hopener
  | .obj [], w, l, rest, rest', hv, hw, _, _, h => by
    have hopener := opener?_congr hv hw h
    cases w with
    | obj ws =>
      match ws with
      | [] => exact ⟨rfl, List.append_cancel_left h⟩
      | (k', w) :: ws =>
        rw [chars_obj_append hline, chars] at h
        exact absurd (List.cons.inj h).2.symm (stringChars_append_ne _ _ _ _)
    | null | bool _ | int _ | float _ | str _ | arr _ => cases hopener
  | .obj ((k, v) :: fs), w, l, rest, rest', hv, hw, _, _, h => by
    have hopener := opener?_congr hv hw h
    cases w with
    | obj ws =>
      match ws with
      | [] =>
        rw [chars_obj_append hline, chars] at h
        exact absurd (List.cons.inj h).2 (stringChars_append_ne _ _ _ _)
      | (k', w) :: ws =>
        rw [chars_obj_append hline, chars_obj_append hline] at h
        obtain ⟨rfl, hvalue⟩ := stringChars_injective (List.cons.inj h).2
        obtain ⟨rfl, hfs⟩ := chars_injective hf hline v w _ _ _ hv.1 hw.1
          (ends_fieldsChars hf (by decide) fs) (ends_fieldsChars hf (by decide) ws)
          (List.append_cancel_left hvalue)
        obtain ⟨rfl, hrest⟩ := fieldsChars_injective hf hline fs ws _ rest rest' hv.2 hw.2 hfs
        exact ⟨rfl, hrest⟩
    | null | bool _ | int _ | float _ | str _ | arr _ => cases hopener

/-- Items up to the bracket behind them. -/
theorem itemsChars_injective (hf : f.Separates) (hline : f.indent = none) :
    ∀ (vs ws : List Json) (l : Nat) (rest rest' : List Char), NaNFree (.arr vs) →
      NaNFree (.arr ws) → itemsChars f l vs ++ ']' :: rest = itemsChars f l ws ++ ']' :: rest' →
      vs = ws ∧ rest = rest'
  | [], [], _, _, _, _, _, h => ⟨rfl, (List.cons.inj h).2⟩
  | [], w :: ws, l, rest, rest', _, _, h => by
    rw [itemsChars_append hline] at h
    exact absurd h.symm (itemGap_append_ne hf (by decide) _ _)
  | v :: vs, [], l, rest, rest', _, _, h => by
    rw [itemsChars_append hline] at h
    exact absurd h (itemGap_append_ne hf (by decide) _ _)
  | v :: vs, w :: ws, l, rest, rest', hv, hw, h => by
    rw [itemsChars_append hline, itemsChars_append hline] at h
    obtain ⟨rfl, hvs⟩ := chars_injective hf hline v w _ _ _ hv.1 hw.1
      (ends_itemsChars hf (by decide) vs) (ends_itemsChars hf (by decide) ws)
      (List.append_cancel_left h)
    obtain ⟨rfl, hrest⟩ := itemsChars_injective hf hline vs ws _ rest rest' hv.2 hw.2 hvs
    exact ⟨rfl, hrest⟩

/-- Entries up to the brace behind them. -/
theorem fieldsChars_injective (hf : f.Separates) (hline : f.indent = none) :
    ∀ (fs gs : Fields) (l : Nat) (rest rest' : List Char), NaNFree (.obj fs) →
      NaNFree (.obj gs) →
      fieldsChars f l fs ++ '\x7d' :: rest = fieldsChars f l gs ++ '\x7d' :: rest' →
      fs = gs ∧ rest = rest'
  | [], [], _, _, _, _, _, h => ⟨rfl, (List.cons.inj h).2⟩
  | [], (k', w) :: gs, l, rest, rest', _, _, h => by
    rw [fieldsChars_append hline] at h
    exact absurd h.symm (itemGap_append_ne hf (by decide) _ _)
  | (k, v) :: fs, [], l, rest, rest', _, _, h => by
    rw [fieldsChars_append hline] at h
    exact absurd h (itemGap_append_ne hf (by decide) _ _)
  | (k, v) :: fs, (k', w) :: gs, l, rest, rest', hv, hw, h => by
    rw [fieldsChars_append hline, fieldsChars_append hline] at h
    obtain ⟨rfl, hvalue⟩ := stringChars_injective (List.append_cancel_left h)
    obtain ⟨rfl, hfs⟩ := chars_injective hf hline v w _ _ _ hv.1 hw.1
      (ends_fieldsChars hf (by decide) fs) (ends_fieldsChars hf (by decide) gs)
      (List.append_cancel_left hvalue)
    obtain ⟨rfl, hrest⟩ := fieldsChars_injective hf hline fs gs _ rest rest' hv.2 hw.2 hfs
    exact ⟨rfl, hrest⟩

end

end NodeFlow.Json
