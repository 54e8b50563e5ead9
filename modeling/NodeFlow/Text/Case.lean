import NodeFlow.Text.CaseTable
/-!
# Changing the case of text

The three full case mappings, character by character. A capital sigma goes
to the medial small sigma wherever it stands.
-/

namespace NodeFlow.Text

/-- The image of a code point under a run, if the run covers it. -/
def CaseRun.apply? (r : CaseRun) (n : Nat) : Option Nat :=
  if r.first ≤ n ∧ n ≤ r.last ∧ (n - r.first) % r.stride = 0 then some ((n : Int) + r.shift).toNat
  else none

/-- The image of a character, which may be longer than one character. -/
def CaseMap.char (m : CaseMap) (c : Char) : List Char :=
  match m.special.find? fun e => e.1 = c.toNat with
  | some e => e.2.map Char.ofNat
  | none => [((m.runs.findSome? fun r => r.apply? c.toNat).map Char.ofNat).getD c]

/-- The image of a text. -/
def CaseMap.text (m : CaseMap) (s : String) : String :=
  String.ofList (s.toList.flatMap m.char)

/-- The text in lower case. -/
def lower (s : String) : String := lowerMap.text s

/-- The text in upper case. -/
def upper (s : String) : String := upperMap.text s

/-- The text with differences of case removed. -/
def fold (s : String) : String := foldMap.text s

/-- The text with its first character in upper case. -/
def capitalize (s : String) : String :=
  match s.toList with
  | [] => ""
  | c :: rest => String.ofList (upperMap.char c ++ rest)

end NodeFlow.Text
