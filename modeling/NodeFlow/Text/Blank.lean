/-!
# Blank characters

Two sets of blanks are in use. `isBlank` is Unicode's white space, which
surrounds numerals, and names in submission requests; `isSpacing` adds the
four separators of the C0 controls, and surrounds the names of saved chains.
-/

namespace NodeFlow.Text

/-- Unicode's white space. -/
def isBlank (c : Char) : Bool :=
  let n := c.toNat
  (9 ≤ n && n ≤ 13) || n = 32 || n = 0x85 || n = 0xA0 || n = 0x1680 ||
    (0x2000 ≤ n && n ≤ 0x200A) || n = 0x2028 || n = 0x2029 || n = 0x202F || n = 0x205F ||
    n = 0x3000

/-- White space and the information separators U+001C to U+001F. -/
def isSpacing (c : Char) : Bool := isBlank c || (0x1C ≤ c.toNat && c.toNat ≤ 0x1F)

/-- The characters without a run that satisfies `p` at either end. -/
def trimChars (p : Char → Bool) (cs : List Char) : List Char :=
  (((cs.dropWhile p).reverse).dropWhile p).reverse

/-- The text without blanks around it. -/
def trimBlank (s : String) : String := String.ofList (trimChars isBlank s.toList)

/-- The text without spacing around it. -/
def trimSpacing (s : String) : String := String.ofList (trimChars isSpacing s.toList)

/-- Every blank is spacing. -/
theorem isSpacing_of_isBlank {c : Char} (h : isBlank c) : isSpacing c := by
  simp [isSpacing, h]

end NodeFlow.Text
