import NodeFlow.Json.Reader
import NodeFlow.Json.Writer
/-!
# Strings read back

A string is written character by character, some of them escaped, and the
reader takes the escapes apart again. `Yields` says what a reader makes of a
text without the proof that the rest is shorter, so that readers can be put
together.
-/

namespace NodeFlow.Json

/-- A reader succeeds with a value and leaves a rest. -/
def Yields {α : Type} {text : List Char} (r : Except Failure (Parsed α text)) (v : α)
    (rest : List Char) : Prop :=
  ∃ h, r = .ok ⟨v, rest, h⟩

/-! ## Escapes -/

theorem hexValue?_hexDigit (n : Nat) : hexValue? (Text.hexDigit n) = some (n % 16) := by
  have hall : ∀ d < 16, hexValue? (Nat.digitChar d) = some d := by decide
  exact hall (n % 16) (Nat.mod_lt n (by decide))

theorem hex_four (n : Nat) :
    Text.hex 4 n = [Text.hexDigit (n / 4096), Text.hexDigit (n / 256), Text.hexDigit (n / 16),
      Text.hexDigit n] := by
  simp [Text.hex, Nat.div_div_eq_div_mul]

theorem hexQuad?_hexDigit {n : Nat} (h : n < 0x10000) :
    hexQuad? (Text.hexDigit (n / 4096)) (Text.hexDigit (n / 256)) (Text.hexDigit (n / 16))
      (Text.hexDigit n) = some n := by
  simp only [hexQuad?, hexValue?_hexDigit, Option.pure_def, Option.bind_eq_bind,
    Option.bind_some, Option.some.injEq]
  omega

variable {start read rest more : List Char} {c : Char} {s : String}

/-- A unit that is not the first of a pair stands for its own character. -/
theorem codeEscape_hex {n : Nat} (h : n < 0x10000) (hsingle : n < 0xD800 ∨ 0xE000 ≤ n)
    (hrest : rest ≠ []) : Yields (codeEscape (Text.hex 4 n ++ rest)) (Char.ofNat n) rest := by
  obtain ⟨e, rest, rfl⟩ := List.exists_cons_of_ne_nil hrest
  have hpair : ¬ (0xD800 ≤ n ∧ n < 0xDC00) := by omega
  have hbroken : ¬ (0xD800 ≤ n ∧ n < 0xE000) := by omega
  rw [hex_four]
  refine ⟨by simp, ?_⟩
  simp only [codeEscape, List.cons_append, List.nil_append, hexQuad?_hexDigit h]
  simp only [ofUnit, Bool.and_eq_true, decide_eq_true_eq, hpair, hbroken, if_false]

/-- Two units of a pair stand for one character. -/
theorem codeEscape_pair {high low : Nat} (hhigh : 0xD800 ≤ high ∧ high < 0xDC00)
    (hlow : 0xDC00 ≤ low ∧ low < 0xE000) (hrest : rest ≠ []) :
    Yields (codeEscape (Text.hex 4 high ++ (unitEscape low ++ rest))) (ofPair high low) rest := by
  obtain ⟨e, rest, rfl⟩ := List.exists_cons_of_ne_nil hrest
  have hhigh' : high < 0x10000 := by omega
  have hlow' : low < 0x10000 := by omega
  rw [unitEscape, hex_four, hex_four]
  refine ⟨by simp, ?_⟩
  simp only [codeEscape, lowUnit?, List.cons_append, List.nil_append, hexQuad?_hexDigit hhigh',
    hexQuad?_hexDigit hlow']
  simp [hhigh, hlow]

/-! ## One character -/

theorem string_codeEscape {text : List Char} (hc : Yields (codeEscape text) c rest)
    (h : Yields (string start (c :: read) rest) s more) :
    Yields (string start read ('\\' :: 'u' :: text)) s more := by
  obtain ⟨hshort, hc⟩ := hc
  obtain ⟨hshort', h⟩ := h
  refine ⟨by simp; omega, ?_⟩
  rw [string]
  simp only [hc, h]

theorem string_shortEscape {letter : Char} (hc : shortEscape? letter = some c)
    (h : Yields (string start (c :: read) rest) s more) :
    Yields (string start read ('\\' :: letter :: rest)) s more := by
  obtain ⟨hshort, h⟩ := h
  have hu : letter ≠ 'u' := by
    rintro rfl
    cases hc
  refine ⟨by simp; omega, ?_⟩
  rw [string]
  · simp only [hc, h]
  · exact hu

theorem string_plain (hquote : c ≠ Text.doubleQuote) (hslash : c ≠ '\\') (hcontrol : 32 ≤ c.toNat)
    (h : Yields (string start (c :: read) rest) s more) :
    Yields (string start read (c :: rest)) s more := by
  obtain ⟨hshort, h⟩ := h
  refine ⟨by simp; omega, ?_⟩
  rw [string]
  · simp only [Nat.not_lt.2 hcontrol, if_false, h]
  · exact hquote
  · exact fun he _ => hslash he
  · exact fun _ he _ => hslash he
  · exact fun _ _ he _ => hslash he

/-- What a character is written as: a short escape, the escape of one unit or of two, or itself. -/
theorem stringChar_cases (asciiOnly : Bool) (c : Char) :
    (∃ letter, shortEscape? letter = some c ∧ stringChar asciiOnly c = ['\\', letter]) ∨
    (c.toNat < 0x10000 ∧ stringChar asciiOnly c = unitEscape c.toNat) ∨
    (0x10000 ≤ c.toNat ∧ stringChar asciiOnly c =
      unitEscape (0xD800 + (c.toNat - 0x10000) / 0x400) ++
        unitEscape (0xDC00 + (c.toNat - 0x10000) % 0x400)) ∨
    (c ≠ Text.doubleQuote ∧ c ≠ '\\' ∧ 32 ≤ c.toNat ∧ stringChar asciiOnly c = [c]) := by
  have hof {n : Nat} (h : c.toNat = n) : Char.ofNat n = c := h ▸ Char.ofNat_toNat c
  generalize hcs : stringChar asciiOnly c = cs
  simp only [stringChar] at hcs
  split at hcs
  next heq => exact .inl ⟨c, by rw [heq]; rfl, hcs.symm⟩
  next hquote =>
    split at hcs
    next heq => exact .inl ⟨'\\', by rw [heq]; rfl, hcs.symm⟩
    next hslash =>
      split at hcs
      next heq => exact .inl ⟨'n', by rw [heq]; rfl, hcs.symm⟩
      split at hcs
      next heq => exact .inl ⟨'r', by rw [heq]; rfl, hcs.symm⟩
      split at hcs
      next heq => exact .inl ⟨'t', by rw [heq]; rfl, hcs.symm⟩
      split at hcs
      next heq => exact .inl ⟨'b', by rw [← hof heq]; rfl, hcs.symm⟩
      split at hcs
      next heq => exact .inl ⟨'f', by rw [← hof heq]; rfl, hcs.symm⟩
      split at hcs
      next hcontrol => exact .inr (.inl ⟨by omega, hcs.symm⟩)
      split at hcs
      · split at hcs
        next hunit => exact .inr (.inl ⟨hunit, hcs.symm⟩)
        next hpair => exact .inr (.inr (.inl ⟨by omega, hcs.symm⟩))
      · exact .inr (.inr (.inr ⟨hquote, hslash, by omega, hcs.symm⟩))

/-- **A written character is read as itself**, in front of a text that goes on. -/
theorem string_stringChar (asciiOnly : Bool) (hrest : rest ≠ [])
    (h : Yields (string start (c :: read) rest) s more) :
    Yields (string start read (stringChar asciiOnly c ++ rest)) s more := by
  -- a character is never half of a pair
  have hvalid : c.toNat < 0xD800 ∨ 0xDFFF < c.toNat ∧ c.toNat < 0x110000 := c.valid
  rcases stringChar_cases asciiOnly c with ⟨letter, hletter, hc⟩ | ⟨hlt, hc⟩ | ⟨hge, hc⟩ |
    ⟨hquote, hslash, hcontrol, hc⟩
  · rw [hc]
    exact string_shortEscape hletter h
  · rw [hc]
    have hcode := codeEscape_hex hlt (by omega) hrest
    rw [Char.ofNat_toNat] at hcode
    exact string_codeEscape hcode h
  · have hpair : ofPair (0xD800 + (c.toNat - 0x10000) / 0x400)
        (0xDC00 + (c.toNat - 0x10000) % 0x400) = c := by
      refine Eq.trans (congrArg Char.ofNat ?_) (Char.ofNat_toNat c)
      omega
    have hhigh : 0xD800 ≤ 0xD800 + (c.toNat - 0x10000) / 0x400 ∧
        0xD800 + (c.toNat - 0x10000) / 0x400 < 0xDC00 := by omega
    have hlow : 0xDC00 ≤ 0xDC00 + (c.toNat - 0x10000) % 0x400 ∧
        0xDC00 + (c.toNat - 0x10000) % 0x400 < 0xE000 := by omega
    have hcode := codeEscape_pair hhigh hlow hrest
    rw [hpair] at hcode
    rw [hc, List.append_assoc]
    exact string_codeEscape hcode h
  · rw [hc]
    exact string_plain hquote hslash hcontrol h

/-! ## Whole strings -/

theorem string_flatMap (asciiOnly : Bool) (start rest cs : List Char) :
    ∀ read, Yields (string start read (cs.flatMap (stringChar asciiOnly) ++
      Text.doubleQuote :: rest)) (String.ofList (read.reverse ++ cs)) rest := by
  induction cs with
  | nil =>
    intro read
    rw [List.flatMap_nil, List.nil_append, List.append_nil]
    exact ⟨by simp, string.eq_2 start read rest⟩
  | cons c cs ih =>
    intro read
    rw [List.flatMap_cons, List.append_assoc]
    refine string_stringChar asciiOnly (by simp) ?_
    simpa using ih (c :: read)

/-- **A written string is read as itself.** -/
theorem string_stringChars (asciiOnly : Bool) (s : String) (rest : List Char) :
    ∃ text, stringChars asciiOnly s ++ rest = '"' :: text ∧
      Yields (string text [] text) s rest := by
  refine ⟨s.toList.flatMap (stringChar asciiOnly) ++ Text.doubleQuote :: rest, ?_, ?_⟩
  · simp [stringChars, Text.doubleQuote]
  · simpa using string_flatMap asciiOnly _ rest s.toList []

end NodeFlow.Json
