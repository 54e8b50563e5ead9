import NodeFlow.Json.Display
/-!
# Placeholders in text

A placeholder stands in a text as its name between doubled braces; a name
is made of ASCII letters, digits and underscores. `parts` cuts a text into
placeholders, leftmost first and without overlap, and the characters between
them; written one after the other they are the text again.
-/

namespace NodeFlow.Template

/-- Whether a character may stand in the name of a placeholder. -/
def isNameChar (c : Char) : Bool := c.isAlphanum || c = '_'

/-- A part of a text. -/
inductive Part where
  | char (c : Char)
  | token (name : List Char)
  deriving DecidableEq

/-- A part as it stands in the text. -/
def Part.chars : Part → List Char
  | .char c => [c]
  | .token name => ['\x7b', '\x7b'] ++ name ++ ['\x7d', '\x7d']

/-- The name of the placeholder at the beginning of a text, and what follows it. -/
def token? : List Char → Option (List Char × List Char)
  | '\x7b' :: '\x7b' :: cs =>
    match cs.dropWhile isNameChar with
    | '\x7d' :: '\x7d' :: rest =>
      if (cs.takeWhile isNameChar).isEmpty then none else some (cs.takeWhile isNameChar, rest)
    | _ => none
  | _ => none

/-- A text that begins with a placeholder is the placeholder and what follows it. -/
theorem eq_of_token? {cs name rest : List Char} (h : token? cs = some (name, rest)) :
    cs = (Part.token name).chars ++ rest := by
  unfold token? at h
  split at h
  · rename_i cs
    have hcs := List.takeWhile_append_dropWhile (p := isNameChar) (l := cs)
    split at h
    · rename_i rest hd
      split at h
      · simp at h
      · simp only [Option.some.injEq, Prod.mk.injEq] at h
        obtain ⟨rfl, rfl⟩ := h
        rw [hd] at hcs
        simpa [Part.chars] using hcs.symm
    · simp at h
  · simp at h

theorem length_of_token? {cs name rest : List Char} (h : token? cs = some (name, rest)) :
    rest.length < cs.length := by
  rw [eq_of_token? h]
  simp [Part.chars]
  omega

/-- The parts of a text. -/
def parts (cs : List Char) : List Part :=
  match _h : token? cs with
  | some (name, rest) => .token name :: parts rest
  | none =>
    match cs with
    | [] => []
    | c :: rest => .char c :: parts rest
termination_by cs.length
decreasing_by
  · exact length_of_token? ‹_›
  · simp

/-- The parts of a text make up the text. -/
theorem chars_parts (cs : List Char) : (parts cs).flatMap Part.chars = cs := by
  fun_induction parts cs with
  | case1 cs name rest h ih => simp [ih, eq_of_token? h]
  | case2 h => rfl
  | case3 c rest h ih => simp [ih, Part.chars]

/-- The names of the placeholders in a text, in order. -/
def tokens (text : String) : List String :=
  (parts text.toList).filterMap fun p =>
    match p with
    | .token name => some (String.ofList name)
    | .char _ => none

/-- Texts in the order of their characters, each once. -/
def sorted (names : List String) : List String :=
  names.eraseDups.mergeSort fun a b => decide (a ≤ b)

end NodeFlow.Template
