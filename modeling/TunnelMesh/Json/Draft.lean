import TunnelMesh.Json.Token

/-!
# Drafts

A draft is what a JSON text says as far as it can be read: a value, or a value that breaks off.
Each place at which the text breaks off carries what a reader is told when it comes there, so a
reader that walks through a draft in order meets the first problem of the text first, whether
that is a fault of the text or a value of the wrong shape.

The tokens are put together by a machine with the lists and records that are still open on a
stack. It takes one step for each token, and `State.finish` closes what is open when the tokens
end.
-/

namespace TunnelMesh.Json

/-- How the members of a record end. -/
inductive RecordEnd where
  /-- By the closing bracket. -/
  | closed
  /-- By something that is neither a comma nor the closing bracket after a member. -/
  | unclosed (d : Defect)
  /-- By something that is no name where a name is due. -/
  | nameless (d : Defect)
  deriving DecidableEq, Repr

/-- A value as far as it can be read. A list that breaks off carries the defect. -/
inductive Draft where
  | null
  | bool (b : Bool)
  | number (n : Numeral)
  | text (q : Quoted)
  | list (items : List Draft) (defect : Option Defect)
  | record (members : List (Quoted × Draft)) (ending : RecordEnd)
  | broken (f : Fault)
  deriving Inhabited

/-! ## Numbers that no double holds

A reader that finds a number of the wrong kind still reads it, as a double, and takes a number
beyond all doubles for no number at all. -/

/-- A whole number rounded to the 53 most significant bits, ties to even. -/
def roundToDouble (n : Nat) : Nat :=
  let spare := n.log2 + 1 - 53
  let unit := Nat.pow 2 spare
  let low := n / unit
  let twice := 2 * (n % unit)
  if unit < twice ∨ (unit = twice ∧ low % 2 = 1) then (low + 1) * unit else low * unit

/-- Digits appended to a significand of 64 bits: the significand, and how many digits are left
when the next one does not fit. -/
def pushDigits (n : Nat) : List Char → Nat × Nat
  | [] => (n, 0)
  | d :: ds =>
    let m := n * 10 + (d.toNat - '0'.toNat)
    if m < UInt64.size then pushDigits m ds else (n, ds.length + 1)

/-- The number is too large for a double: the significand and the power of ten are rounded first,
and so is their product. -/
def Numeral.isHuge (n : Numeral) : Bool :=
  let (whole, dropped) := pushDigits 0 n.whole
  let (significand, left) := pushDigits whole n.fraction
  let shift : Int := Int.ofNat dropped - Int.ofNat (n.fraction.length - left)
  let power : Int :=
    match n.exponent with
    | none => shift
    | some (true, ds) => shift - Int.ofNat (Decimal.value ds)
    | some (false, ds) => shift + Int.ofNat (Decimal.value ds)
  if power < 0 ∨ significand = 0 then false
  else if 308 < power then true
  else
    Nat.pow 2 1024 - Nat.pow 2 970 ≤
      roundToDouble significand * roundToDouble (Nat.pow 10 power.toNat)

/-- What a number is to a reader that wants something else. -/
def Numeral.asMismatch (n : Numeral) : Defect :=
  if n.isHuge then .malformed else .mismatched

/-! ## Readers of drafts -/

/-- What a draft is to a reader that wants a value of another kind. -/
def Draft.mismatch : Draft → Defect
  | .null | .bool _ | .list _ _ | .record _ _ => .mismatched
  | .number n => n.asMismatch
  | .text q =>
    match q.text with
    | .ok _ => .mismatched
    | .error d => d
  | .broken f => f.whenWanted

mutual

/-- The first fault of a draft whose value nobody wants. The pieces of its texts need not form
characters and its numbers may be of any size. -/
def Draft.skip : Draft → Option Defect
  | .null | .bool _ | .number _ => none
  | .text q => q.defect
  | .list items defect => (skipItems items).or defect
  | .record members ending =>
    (skipMembers members).or <|
      match ending with
      | .closed => none
      | .unclosed d | .nameless d => some d
  | .broken f => some f.whenSkipped

/-- The first fault of the entries of a list. -/
def skipItems : List Draft → Option Defect
  | [] => none
  | d :: ds => d.skip.or (skipItems ds)

/-- The first fault of the members of a record. -/
def skipMembers : List (Quoted × Draft) → Option Defect
  | [] => none
  | (k, d) :: ms => k.defect.or (d.skip.or (skipMembers ms))

end

/-! ## From tokens to drafts -/

/-- A list or record that is open: what has been read of it, last first. -/
inductive Frame where
  | list (items : List Draft)
  | record (members : List (Quoted × Draft)) (name : Quoted)

/-- What is due next. The stack of open lists and records has the innermost first. -/
inductive State where
  /-- A value. -/
  | value (outer : List Frame)
  /-- The first entry of a list, or its end. -/
  | firstItem (outer : List Frame)
  /-- A name, or the end of the record if it has no member yet. -/
  | name (members : List (Quoted × Draft)) (outer : List Frame)
  /-- A colon. -/
  | colon (members : List (Quoted × Draft)) (name : Quoted) (outer : List Frame)
  /-- A comma or the end of the innermost list or record; the end of the text if none is open. -/
  | after (d : Draft) (outer : List Frame)
  /-- Nothing: the text has broken off, or goes on after its value. -/
  | done (d : Draft) (trailing : Bool)

/-- The draft of a text that breaks off with a draft inside open lists and records. -/
def plug (d : Draft) : List Frame → Draft
  | [] => d
  | .list items :: fs => plug (.list (d :: items).reverse none) fs
  | .record ms k :: fs => plug (.record ((k, d) :: ms).reverse .closed) fs

/-- The draft of a token that is a value by itself. -/
def Token.scalar? : Token → Option Draft
  | .null => some .null
  | .bool b => some (.bool b)
  | .number n => some (.number n)
  | .text q => some (.text q)
  | .broken f => some (.broken f)
  | _ => none

/-- A value begins with a token. -/
def startValue (t : Token) (fs : List Frame) : State :=
  match t with
  | .openList => .firstItem fs
  | .openRecord => .name [] fs
  | t =>
    match t.scalar? with
    | some (.broken f) => .done (plug (.broken f) fs) false
    | some d => .after d fs
    | none => .done (plug (.broken .malformed) fs) false

/-- One token. -/
def State.step : State → Token → State
  | .value fs, t => startValue t fs
  | .firstItem fs, .closeList => .after (.list [] none) fs
  | .firstItem fs, t => startValue t (.list [] :: fs)
  | .name ms fs, .text k => .colon ms k fs
  | .name [] fs, .closeRecord => .after (.record [] .closed) fs
  | .name ms fs, _ => .done (plug (.record ms.reverse (.nameless .malformed)) fs) false
  | .colon ms k fs, .colon => .value (.record ms k :: fs)
  | .colon ms k fs, _ => .done (plug (.broken .malformed) (.record ms k :: fs)) false
  | .after d [], _ => .done d true
  | .after d (.list items :: fs), .comma => .value (.list (d :: items) :: fs)
  | .after d (.list items :: fs), .closeList => .after (.list (d :: items).reverse none) fs
  | .after d (.list items :: fs), _ =>
    .done (plug (.list (d :: items).reverse (some .malformed)) fs) false
  | .after d (.record ms k :: fs), .comma => .name ((k, d) :: ms) fs
  | .after d (.record ms k :: fs), .closeRecord =>
    .after (.record ((k, d) :: ms).reverse .closed) fs
  | .after d (.record ms k :: fs), _ =>
    .done (plug (.record ((k, d) :: ms).reverse (.unclosed .malformed)) fs) false
  | .done d trailing, _ => .done d trailing

/-- The draft when no token is left, and whether anything follows its value. -/
def State.finish : State → Draft × Bool
  | .value fs => (plug (.broken .absent) fs, false)
  | .firstItem fs => (plug (.list [] (some .ended)) fs, false)
  | .name ms fs => (plug (.record ms.reverse (.nameless .ended)) fs, false)
  | .colon ms k fs => (plug (.broken .absent) (.record ms k :: fs), false)
  | .after d [] => (d, false)
  | .after d (.list items :: fs) => (plug (.list (d :: items).reverse (some .ended)) fs, false)
  | .after d (.record ms k :: fs) =>
    (plug (.record ((k, d) :: ms).reverse (.unclosed .ended)) fs, false)
  | .done d trailing => (d, trailing)

/-- The state after all tokens. -/
def run (s : State) (ts : List Token) : State :=
  ts.foldl State.step s

/-- The draft of a text, and whether anything but blanks follows its value. -/
def draft (cs : List Char) : Draft × Bool :=
  (run (.value []) (lex cs)).finish

end TunnelMesh.Json
