import TunnelMesh.Text.Decimal

/-!
# JSON values and their text

The values that documents of this library are written from, and one printer for them. A `Layout`
says which blanks stand between the tokens: none in the compact text, and a line for every member
and entry in the pretty one. Members keep the order in which they are given.
-/

namespace TunnelMesh.Json

/-- A value to be written: numbers are natural, as all numbers of the documents are. -/
inductive Value where
  | null
  | bool (b : Bool)
  | number (n : Nat)
  | text (s : String)
  | list (items : List Value)
  | record (members : List (String × Value))
  deriving Inhabited

namespace Value

/-- A text, or `null` where there is none. -/
def ofText? : Option String → Value
  | none => .null
  | some s => .text s

/-- A number, or `null` where there is none. -/
def ofNumber? : Option Nat → Value
  | none => .null
  | some n => .number n

/-- A list of texts. -/
def ofTexts (ss : List String) : Value :=
  .list (ss.map .text)

end Value

/-! ## Texts in quotes -/

/-- The hexadecimal digit of a value below sixteen. -/
def hexDigit (n : Nat) : Char :=
  if n < 10 then Char.ofNat ('0'.toNat + n) else Char.ofNat ('a'.toNat + (n - 10))

/-- How a character is written between quotes: the quote, the backslash and the control
characters below U+0020 are escaped, all others stand for themselves. -/
def escapeChar (c : Char) : List Char :=
  if c = '"' then ['\\', '"']
  else if c = '\\' then ['\\', '\\']
  else if c = '\n' then ['\\', 'n']
  else if c = '\r' then ['\\', 'r']
  else if c = '\t' then ['\\', 't']
  else if c = '\x08' then ['\\', 'b']
  else if c = '\x0c' then ['\\', 'f']
  else if c.toNat < 32 then
    ['\\', 'u', '0', '0', hexDigit (c.toNat / 16), hexDigit (c.toNat % 16)]
  else [c]

/-- A text between quotes. -/
def quoted (s : String) : List Char :=
  '"' :: (s.toList.flatMap escapeChar ++ ['"'])

/-! ## Layouts -/

/-- The blanks of a printed value. -/
structure Layout where
  /-- What stands before an entry or a closing bracket at a depth of nesting. -/
  line : Nat → List Char
  /-- What stands between the colon of a member and its value. -/
  gap : List Char

/-- No blanks at all. -/
def compactLayout : Layout :=
  ⟨fun _ => [], []⟩

/-- Each entry on a line of its own, indented by two spaces for each depth. -/
def prettyLayout : Layout :=
  ⟨fun depth => '\n' :: List.replicate (2 * depth) ' ', [' ']⟩

mutual

/-- The text of a value that begins at a depth of nesting. Lists and records without entries are
written without blanks inside. -/
def Value.chars (l : Layout) (depth : Nat) : Value → List Char
  | .null => ['n', 'u', 'l', 'l']
  | .bool true => ['t', 'r', 'u', 'e']
  | .bool false => ['f', 'a', 'l', 's', 'e']
  | .number n => Decimal.digits n
  | .text s => quoted s
  | .list [] => ['[', ']']
  | .list (v :: vs) => '[' :: (entryChars l (depth + 1) (v :: vs) ++ (l.line depth ++ [']']))
  | .record [] => ['\x7b', '\x7d']
  | .record (m :: ms) =>
    '\x7b' :: (memberChars l (depth + 1) (m :: ms) ++ (l.line depth ++ ['\x7d']))

/-- The entries of a list, with commas between them. -/
def entryChars (l : Layout) (depth : Nat) : List Value → List Char
  | [] => []
  | [v] => l.line depth ++ v.chars l depth
  | v :: vs => l.line depth ++ (v.chars l depth ++ ',' :: entryChars l depth vs)

/-- The members of a record, with commas between them. -/
def memberChars (l : Layout) (depth : Nat) : List (String × Value) → List Char
  | [] => []
  | [(k, v)] => l.line depth ++ (quoted k ++ ':' :: (l.gap ++ v.chars l depth))
  | (k, v) :: ms =>
    l.line depth ++ (quoted k ++
      ':' :: (l.gap ++ (v.chars l depth ++ ',' :: memberChars l depth ms)))

end

/-- The text of a value without blanks. -/
def Value.compact (v : Value) : String :=
  String.ofList (v.chars compactLayout 0)

/-- The text of a value with a line for each entry. -/
def Value.pretty (v : Value) : String :=
  String.ofList (v.chars prettyLayout 0)

end TunnelMesh.Json
