import TunnelMesh.Text.Decimal

/-!
# JSON tokens

A text is cut into tokens from left to right, up to the first place where no token can be read.
What is wrong there is itself the last token (`Token.broken`, or a quoted text with a defect), so
that a reader which goes through the tokens in order meets the faults of a text in the order of
the text. `nextToken_lt` says that each token takes at least one character, and `lex` ends by it.
-/

namespace TunnelMesh.Json

/-- What is wrong with a document, as far as its readers are told. -/
inductive Defect where
  /-- The text ends too early. -/
  | ended
  /-- The text is not JSON. -/
  | malformed
  /-- The text is JSON of another shape than the document's. -/
  | mismatched
  deriving DecidableEq, Repr

/-- Why no token can be read at a place. A reader that wants a value, one that looks for a name
and one that skips the value tell these apart in different ways. -/
inductive Fault where
  /-- Nothing follows. -/
  | absent
  /-- The text ends inside a word. -/
  | cut
  /-- The text ends inside a number, where a digit is due. -/
  | digitDue
  /-- A character that does not fit. -/
  | malformed
  deriving DecidableEq, Repr

/-- What a fault is to a reader that wants a value there. -/
def Fault.whenWanted : Fault → Defect
  | .malformed => .malformed
  | _ => .ended

/-- What a fault is to a reader that skips a value there. -/
def Fault.whenSkipped : Fault → Defect
  | .absent | .cut => .ended
  | .digitDue | .malformed => .malformed

/-- What a fault is to a reader that looks at the first character only. -/
def Fault.atFirstSight : Fault → Defect
  | .absent => .ended
  | _ => .malformed

/-! ## Quoted texts -/

/-- A piece of a quoted text: a character, or sixteen bits that `\u` and four digits denote. -/
inductive Piece where
  | char (c : Char)
  | unit (n : Nat)
  deriving DecidableEq, Repr

/-- A quoted text as far as it can be read, with the defect at which it breaks off, if any. -/
structure Quoted where
  pieces : List Piece
  defect : Option Defect
  deriving DecidableEq, Repr

/-- The value of a hexadecimal digit of either case. -/
def hexValue? (c : Char) : Option Nat :=
  if '0' ≤ c ∧ c ≤ '9' then some (c.toNat - '0'.toNat)
  else if 'a' ≤ c ∧ c ≤ 'f' then some (c.toNat - 'a'.toNat + 10)
  else if 'A' ≤ c ∧ c ≤ 'F' then some (c.toNat - 'A'.toNat + 10)
  else none

/-- The sixteen bits that four hexadecimal digits denote. -/
def unit? (a b c d : Char) : Option Nat := do
  let a ← hexValue? a
  let b ← hexValue? b
  let c ← hexValue? c
  let d ← hexValue? d
  return ((a * 16 + b) * 16 + c) * 16 + d

/-- The character that a backslash and a letter denote. -/
def escaped? (c : Char) : Option Char :=
  if c = '"' then some '"'
  else if c = '\\' then some '\\'
  else if c = '/' then some '/'
  else if c = 'b' then some '\x08'
  else if c = 'f' then some '\x0c'
  else if c = 'n' then some '\n'
  else if c = 'r' then some '\r'
  else if c = 't' then some '\t'
  else none

/-- How many bytes characters take in UTF-8. -/
def utf8Length (cs : List Char) : Nat :=
  cs.foldr (fun c n => c.utf8Size + n) 0

/-- The pieces up to the closing quote and what follows it, or the defect before it. Four digits
are looked for in the next four bytes, and fewer bytes than that mean that the text has ended. -/
def scanQuoted : List Char → List Piece × Except Defect (List Char)
  | [] => ([], .error .ended)
  | '"' :: rest => ([], .ok rest)
  | ['\\'] => ([], .error .ended)
  | '\\' :: 'u' :: a :: b :: c :: d :: rest =>
    match unit? a b c d with
    | some n => let (ps, e) := scanQuoted rest; (.unit n :: ps, e)
    | none => ([], .error .malformed)
  | '\\' :: 'u' :: rest =>
    ([], .error (if utf8Length rest < 4 then .ended else .malformed))
  | '\\' :: c :: rest =>
    match escaped? c with
    | some x => let (ps, e) := scanQuoted rest; (.char x :: ps, e)
    | none => ([], .error .malformed)
  | c :: rest =>
    if c.toNat < 32 then ([], .error .malformed)
    else let (ps, e) := scanQuoted rest; (.char c :: ps, e)

theorem scanQuoted_le {cs rest : List Char} (h : (scanQuoted cs).2 = .ok rest) :
    rest.length ≤ cs.length := by
  fun_induction scanQuoted cs <;> simp_all <;> omega

/-- Sixteen bits that begin a character of two units. -/
def isLeading (n : Nat) : Bool := 0xD800 ≤ n && n ≤ 0xDBFF

/-- Sixteen bits that end a character of two units. -/
def isTrailing (n : Nat) : Bool := 0xDC00 ≤ n && n ≤ 0xDFFF

/-- The characters that pieces denote, up to the defect at the end of them. Units that form no
character are malformed. -/
def charsOfPieces (defect : Option Defect) : List Piece → Except Defect (List Char)
  | [] =>
    match defect with
    | none => .ok []
    | some d => .error d
  | .char c :: ps => (charsOfPieces defect ps).map (c :: ·)
  | [.unit n] =>
    if isLeading n then .error (defect.getD .malformed)
    else if isTrailing n then .error .malformed
    else (charsOfPieces defect []).map (Char.ofNat n :: ·)
  | .unit n :: p :: ps =>
    if isLeading n then
      match p with
      | .unit m =>
        if isTrailing m then
          (charsOfPieces defect ps).map
            (Char.ofNat (0x10000 + (n - 0xD800) * 0x400 + (m - 0xDC00)) :: ·)
        else .error .malformed
      | .char _ => .error .malformed
    else if isTrailing n then .error .malformed
    else (charsOfPieces defect (p :: ps)).map (Char.ofNat n :: ·)

/-- The text between the quotes. -/
def Quoted.text (q : Quoted) : Except Defect String :=
  (charsOfPieces q.defect q.pieces).map String.ofList

/-! ## Numbers -/

/-- A number as written: digits before the point, digits after it (none where there is no
point), and the sign and digits of the exponent. -/
structure Numeral where
  negative : Bool
  whole : List Char
  fraction : List Char
  exponent : Option (Bool × List Char)
  deriving DecidableEq, Repr

/-- What is wrong where a digit is due and `rest` follows. -/
def digitFault (rest : List Char) : Fault :=
  if rest.isEmpty then .digitDue else .malformed

/-- Whether a minus sign stands here, and what follows the sign, if there is one. -/
def signless : List Char → Bool × List Char
  | '+' :: rest => (false, rest)
  | '-' :: rest => (true, rest)
  | rest => (false, rest)

/-- The exponent that begins here, if one does. -/
def scanExponent : List Char → Except Fault (Option (Bool × List Char) × List Char)
  | [] => .ok (none, [])
  | c :: rest =>
    if c = 'e' ∨ c = 'E' then
      let ds := (signless rest).2.takeWhile Char.isDigit
      let after := (signless rest).2.dropWhile Char.isDigit
      if ds.isEmpty then .error (digitFault after) else .ok (some ((signless rest).1, ds), after)
    else .ok (none, c :: rest)

/-- The digits after the point that stands here, if one does. -/
def scanFraction : List Char → Except Fault (List Char × List Char)
  | '.' :: rest =>
    let ds := rest.takeWhile Char.isDigit
    let after := rest.dropWhile Char.isDigit
    if ds.isEmpty then .error (digitFault after) else .ok (ds, after)
  | rest => .ok ([], rest)

/-- The number whose digits begin here, and what follows it. A zero is followed by no digit. -/
def scanNumeral (negative : Bool) (cs : List Char) : Except Fault (Numeral × List Char) := do
  let whole := cs.takeWhile Char.isDigit
  let rest := cs.dropWhile Char.isDigit
  if whole.isEmpty then throw (digitFault rest)
  if whole.head? = some '0' ∧ 1 < whole.length then throw .malformed
  let (fraction, rest) ← scanFraction rest
  let (exponent, rest) ← scanExponent rest
  return (⟨negative, whole, fraction, exponent⟩, rest)

/-! ## Tokens -/

/-- A token, or the fault in its place. -/
inductive Token where
  | openList
  | closeList
  | openRecord
  | closeRecord
  | comma
  | colon
  | null
  | bool (b : Bool)
  | number (n : Numeral)
  | text (q : Quoted)
  | broken (f : Fault)
  deriving DecidableEq, Repr

/-- The blanks between tokens: space, tab, line feed and carriage return. -/
def isSpace (c : Char) : Bool :=
  c == ' ' || c == '\t' || c == '\n' || c == '\r'

/-- What follows the rest of a word. -/
def scanWord : List Char → List Char → Except Fault (List Char)
  | [], cs => .ok cs
  | _ :: _, [] => .error .cut
  | e :: es, c :: cs => if e = c then scanWord es cs else .error .malformed

/-- The token that a bracket, comma or colon is. -/
def mark? (c : Char) : Option Token :=
  if c = '[' then some .openList
  else if c = ']' then some .closeList
  else if c = '\x7b' then some .openRecord
  else if c = '\x7d' then some .closeRecord
  else if c = ',' then some .comma
  else if c = ':' then some .colon
  else none

/-- The word that begins with a letter: what follows the letter, and the token. -/
def word? (c : Char) : Option (List Char × Token) :=
  if c = 'n' then some (['u', 'l', 'l'], .null)
  else if c = 't' then some (['r', 'u', 'e'], .bool true)
  else if c = 'f' then some (['a', 'l', 's', 'e'], .bool false)
  else none

/-- A token with what follows it, or the last token of a text that breaks off in it. -/
def tokenOf {α : Type} (token : α → Token) :
    Except Fault (α × List Char) → Token × Option (List Char)
  | .ok (a, rest) => (token a, some rest)
  | .error f => (.broken f, none)

/-- The token of a quoted text whose opening quote has been read. -/
def quotedToken (cs : List Char) : Token × Option (List Char) :=
  match scanQuoted cs with
  | (ps, .ok rest) => (.text ⟨ps, none⟩, some rest)
  | (ps, .error d) => (.text ⟨ps, some d⟩, none)

/-- The token that begins with a character, and what follows unless the text breaks off in it. -/
def firstToken (c : Char) (rest : List Char) : Token × Option (List Char) :=
  match mark? c, word? c with
  | some t, _ => (t, some rest)
  | none, some (w, t) => tokenOf (fun _ => t) ((scanWord w rest).map fun r => ((), r))
  | none, none =>
    if c = '"' then quotedToken rest
    else if c = '-' then tokenOf .number (scanNumeral true rest)
    else if c.isDigit then tokenOf .number (scanNumeral false (c :: rest))
    else (.broken .malformed, none)

/-- The first token of a text, if anything but blanks is left. -/
def nextToken (cs : List Char) : Option (Token × Option (List Char)) :=
  match cs.dropWhile isSpace with
  | [] => none
  | c :: rest => some (firstToken c rest)

/-! ### What follows a token is shorter -/

theorem scanWord_le {es cs rest : List Char} (h : scanWord es cs = .ok rest) :
    rest.length ≤ cs.length := by
  fun_induction scanWord es cs with
  | case1 cs => cases h; exact Nat.le_refl _
  | case2 => cases h
  | case3 es c cs ih => exact Nat.le_succ_of_le (ih h)
  | case4 => cases h

theorem length_dropWhile_le (p : Char → Bool) (cs : List Char) :
    (cs.dropWhile p).length ≤ cs.length :=
  (List.dropWhile_sublist p).length_le

theorem scanFraction_le {cs ds rest : List Char} (h : scanFraction cs = .ok (ds, rest)) :
    rest.length ≤ cs.length := by
  unfold scanFraction at h
  split at h
  · rename_i r
    have hr := length_dropWhile_le Char.isDigit r
    dsimp only at h
    split at h
    · cases h
    · cases h; simp only [List.length_cons]; omega
  · cases h; exact Nat.le_refl _

theorem signless_le (rest : List Char) : (signless rest).2.length ≤ rest.length := by
  unfold signless
  split <;> simp

theorem scanExponent_le {cs rest : List Char} {e : Option (Bool × List Char)}
    (h : scanExponent cs = .ok (e, rest)) : rest.length ≤ cs.length := by
  unfold scanExponent at h
  split at h
  · cases h; exact Nat.le_refl _
  · rename_i c r
    have hs := signless_le r
    have hr := length_dropWhile_le Char.isDigit (signless r).2
    dsimp only at h
    split at h
    · split at h
      · cases h
      · cases h; simp only [List.length_cons]; omega
    · cases h; exact Nat.le_refl _

theorem scanNumeral_le {neg : Bool} {cs rest : List Char} {n : Numeral}
    (h : scanNumeral neg cs = .ok (n, rest)) :
    rest.length ≤ (cs.dropWhile Char.isDigit).length := by
  simp only [scanNumeral, bind, Except.bind, pure, Except.pure, throw, throwThe,
    MonadExceptOf.throw] at h
  split at h
  · cases h
  · split at h
    · cases h
    · split at h
      · cases h
      · rename_i f hf
        have h1 := scanFraction_le hf
        split at h
        · cases h
        · rename_i e he
          have h2 := scanExponent_le he
          cases h; omega

theorem tokenOf_le {α : Type} {token : α → Token} {r : Except Fault (α × List Char)} {m : Nat}
    {t : Token} {rest : List Char} (hm : ∀ a s, r = .ok (a, s) → s.length ≤ m)
    (h : tokenOf token r = (t, some rest)) : rest.length ≤ m := by
  unfold tokenOf at h
  split at h
  · cases h; exact hm _ _ rfl
  · cases h

theorem quotedToken_le {cs rest : List Char} {t : Token} (h : quotedToken cs = (t, some rest)) :
    rest.length ≤ cs.length := by
  unfold quotedToken at h
  split at h
  · rename_i hq; cases h; exact scanQuoted_le (congrArg Prod.snd hq)
  · cases h

theorem firstToken_le {c : Char} {rest after : List Char} {t : Token}
    (h : firstToken c rest = (t, some after)) : after.length ≤ rest.length := by
  unfold firstToken at h
  split at h
  · cases h; exact Nat.le_refl _
  · refine tokenOf_le (fun _ s hw => ?_) h
    cases hr : scanWord _ rest with
    | error => rw [hr] at hw; cases hw
    | ok r => rw [hr] at hw; cases hw; exact scanWord_le hr
  · split at h
    · exact quotedToken_le h
    · split at h
      · exact tokenOf_le
          (fun _ _ hn => Nat.le_trans (scanNumeral_le hn) (length_dropWhile_le _ _)) h
      · split at h
        · rename_i hd
          refine tokenOf_le (fun _ _ hn => Nat.le_trans (scanNumeral_le hn) ?_) h
          rw [List.dropWhile_cons_of_pos hd]
          exact length_dropWhile_le _ _
        · cases h

/-- A token takes at least one character. -/
theorem nextToken_lt {cs rest : List Char} {t : Token} (h : nextToken cs = some (t, some rest)) :
    rest.length < cs.length := by
  unfold nextToken at h
  have hd := length_dropWhile_le isSpace cs
  split at h
  · cases h
  · rename_i c r hc
    rw [hc, List.length_cons] at hd
    have := firstToken_le (Option.some.inj h)
    omega

/-- The tokens of a text, up to and with the first that is broken. -/
def lex (cs : List Char) : List Token :=
  match _h : nextToken cs with
  | none => []
  | some (t, none) => [t]
  | some (t, some rest) => t :: lex rest
termination_by cs.length
decreasing_by exact nextToken_lt _h

end TunnelMesh.Json
