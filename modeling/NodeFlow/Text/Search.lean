/-!
# Searching text

Whether one text begins another or occurs within it, character by character.
-/

namespace NodeFlow.Text

/-- Whether a run of characters occurs in a list of characters. -/
def occurs (part : List Char) : List Char → Bool
  | [] => part.isEmpty
  | c :: rest => part.isPrefixOf (c :: rest) || occurs part rest

/-- Whether a text occurs within another. -/
def occursIn (part whole : String) : Bool := occurs part.toList whole.toList

/-- Whether a text begins with another. -/
def startsWith (whole part : String) : Bool := part.toList.isPrefixOf whole.toList

end NodeFlow.Text
