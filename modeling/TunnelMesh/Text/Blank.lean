/-!
# Blank space

The characters of Unicode's `White_Space` property, and texts without the blanks at their two
ends. A text counts as blank when nothing is left of it; `nonBlank` is how every optional
setting is read before it is shown or compared.
-/

namespace TunnelMesh.Text

/-- The white space of Unicode: tab to carriage return, space, next line, the no-break space and
the spaces and separators of the general punctuation blocks. -/
def isBlank (c : Char) : Bool :=
  let n := c.toNat
  (0x09 ≤ n && n ≤ 0x0D) || n == 0x20 || n == 0x85 || n == 0xA0 || n == 0x1680 ||
    (0x2000 ≤ n && n ≤ 0x200A) || n == 0x2028 || n == 0x2029 || n == 0x202F || n == 0x205F ||
    n == 0x3000

/-- The characters from the first that is not blank to the last that is not blank. -/
def trimChars (cs : List Char) : List Char :=
  ((cs.dropWhile isBlank).reverse.dropWhile isBlank).reverse

/-- A text without the blanks at its two ends. -/
def trim (s : String) : String :=
  String.ofList (trimChars s.toList)

/-- A text of blanks only, the empty one included. -/
def isBlankText (s : String) : Bool :=
  s.toList.all isBlank

/-- An optional text, trimmed, or nothing where it is absent or blank. -/
def nonBlank (s : Option String) : Option String :=
  s.bind fun t => if isBlankText t then none else some (trim t)

/-- The entries of a list that are not blank, trimmed, in order. -/
def nonBlanks (ss : List String) : List String :=
  ss.filterMap fun s => nonBlank (some s)

end TunnelMesh.Text
