import Mathlib
import TunnelMesh.Json.Token
import TunnelMesh.Json.Value
import TunnelMesh.Proofs.Text.Decimal

/-!
# Tokens of printed values

What the printer writes is read back token by token: a text in quotes (`quotedToken_quoted`), the
digits of a number where no number goes on (`scanNumeral_digits`), and the words and marks between
them. `lex_blanks` skips the blanks of a layout.
-/

namespace TunnelMesh.Json

/-! ## Texts in quotes -/

/-- How a character is read back: a control character that no letter stands for is written as
sixteen bits. -/
def pieceOf (c : Char) : Piece :=
  if c.toNat < 32 ∧ c ∉ ['\n', '\r', '\t', '\x08', '\x0c'] then .unit c.toNat else .char c

/-- A text as it is read back. -/
def Quoted.ofText (s : String) : Quoted :=
  ⟨s.toList.map pieceOf, none⟩

/-- A hexadecimal digit is read back. -/
theorem hexValue?_hexDigit : ∀ n < 16, hexValue? (hexDigit n) = some n := by decide

/-- Four hexadecimal digits of a number below 32. -/
theorem unit?_of_lt {n : Nat} (h : n < 32) :
    unit? '0' '0' (hexDigit (n / 16)) (hexDigit (n % 16)) = some n := by
  have hhigh := hexValue?_hexDigit (n / 16) (by omega)
  have hlow := hexValue?_hexDigit (n % 16) (by omega)
  have hzero : hexValue? '0' = some 0 := by decide
  have hvalue : ((0 * 16 + 0) * 16 + n / 16) * 16 + n % 16 = n := by omega
  simp only [unit?, hzero, hhigh, hlow, Option.bind_eq_bind, Option.bind_some, Option.pure_def,
    hvalue]

/-- A character is read back before anything else. -/
theorem scanQuoted_escapeChar (c : Char) (rest : List Char) :
    scanQuoted (escapeChar c ++ rest) =
      (pieceOf c :: (scanQuoted rest).1, (scanQuoted rest).2) := by
  by_cases hletter : c ∈ ['"', '\\', '\n', '\r', '\t', '\x08', '\x0c']
  · fin_cases hletter <;> simp [escapeChar, scanQuoted, escaped?, pieceOf]
  · simp only [List.mem_cons, List.not_mem_nil, or_false, not_or] at hletter
    obtain ⟨hquote, hslash, hn, hr, ht, hb, hf⟩ := hletter
    by_cases hlt : c.toNat < 32
    · simp [escapeChar, hquote, hslash, hn, hr, ht, hb, hf, hlt, scanQuoted, unit?_of_lt hlt,
        pieceOf]
    · simp [escapeChar, hquote, hslash, hn, hr, ht, hb, hf, hlt, scanQuoted, pieceOf]

/-- A quoted text ends at the first quote that is not part of an escape. -/
theorem scanQuoted_flatMap (cs rest : List Char) :
    scanQuoted (cs.flatMap escapeChar ++ '"' :: rest) = (cs.map pieceOf, .ok rest) := by
  induction cs with
  | nil => rfl
  | cons c cs ih =>
    rw [List.flatMap_cons, List.append_assoc, scanQuoted_escapeChar, ih, List.map_cons]

/-- A text in quotes is read up to its closing quote. -/
theorem quotedToken_quoted (s : String) (rest : List Char) :
    quotedToken (s.toList.flatMap escapeChar ++ '"' :: rest) =
      (.text (.ofText s), some rest) := by
  rw [quotedToken, scanQuoted_flatMap]
  rfl

/-- Sixteen bits that are neither half of a character of two units are a character. -/
theorem charsOfPieces_unit {n : Nat} (h : n < 32) (defect : Option Defect) (ps : List Piece) :
    charsOfPieces defect (.unit n :: ps) =
      (charsOfPieces defect ps).map (Char.ofNat n :: ·) := by
  have hleading : isLeading n = false := by simp [isLeading]; omega
  have htrailing : isTrailing n = false := by simp [isTrailing]; omega
  cases ps <;> simp [charsOfPieces, hleading, htrailing]

/-- The characters of a text are read back from the pieces that they are written as. -/
theorem charsOfPieces_map_pieceOf (cs : List Char) :
    charsOfPieces none (cs.map pieceOf) = .ok cs := by
  induction cs with
  | nil => rfl
  | cons c cs ih =>
    rw [List.map_cons, pieceOf]
    split
    · next hunit =>
      rw [charsOfPieces_unit hunit.1, ih, Char.ofNat_toNat]
      rfl
    · rw [charsOfPieces, ih]
      rfl

/-- A text is what it is read back as. -/
@[simp] theorem Quoted.text_ofText (s : String) : (Quoted.ofText s).text = .ok s := by
  rw [text, ofText, charsOfPieces_map_pieceOf, Except.map, String.ofList_toList]

/-! ## Numbers -/

/-- A number as it is read back. -/
def Numeral.ofNat (n : Nat) : Numeral :=
  ⟨false, Decimal.digits n, [], none⟩

/-- No number goes on here. -/
def Delimited (rest : List Char) : Prop :=
  ∀ c ∈ rest.head?, c.isDigit = false ∧ c ≠ '.' ∧ c ≠ 'e' ∧ c ≠ 'E'

theorem delimited_nil : Delimited [] := by
  simp [Delimited]

/-- A character that no number goes on with ends a number. -/
theorem delimited_cons {c : Char} (h : c.isDigit = false ∧ c ≠ '.' ∧ c ≠ 'e' ∧ c ≠ 'E')
    (rest : List Char) : Delimited (c :: rest) := by
  simpa [Delimited] using h

/-- A number is read up to where no number goes on. -/
theorem scanNumeral_digits (n : Nat) {rest : List Char} (h : Delimited rest) :
    scanNumeral false (Decimal.digits n ++ rest) = .ok (.ofNat n, rest) := by
  have hdigits : ∀ c ∈ Decimal.digits n, c.isDigit = true := fun c hc =>
    Decimal.isDigit_of_mem_digits hc
  have htake : rest.takeWhile Char.isDigit = [] := by
    cases rest with
    | nil => rfl
    | cons c cs => exact List.takeWhile_cons_of_neg (by simp [(h c rfl).1])
  have hdrop : rest.dropWhile Char.isDigit = rest := by
    cases rest with
    | nil => rfl
    | cons c cs => exact List.dropWhile_cons_of_neg (by simp [(h c rfl).1])
  have hfraction : scanFraction rest = .ok ([], rest) := by
    cases rest with
    | nil => rfl
    | cons c cs => simp [scanFraction, (h c rfl).2.1]
  have hexponent : scanExponent rest = .ok (none, rest) := by
    cases rest with
    | nil => rfl
    | cons c cs => simp [scanExponent, (h c rfl).2.2]
  have hplain : ¬ ((Decimal.digits n).head? = some '0' ∧ 1 < (Decimal.digits n).length) := by
    rcases Decimal.length_digits_or_head?_digits n with hlength | hhead
    · omega
    · exact fun hzero => hhead hzero.1
  simp only [scanNumeral, List.takeWhile_append_of_pos hdigits, htake, List.append_nil,
    List.dropWhile_append_of_pos hdigits, hdrop, List.isEmpty_iff, Decimal.digits_ne_nil,
    if_false, if_neg hplain, hfraction, hexponent, bind, Except.bind]
  rfl

/-! ## Tokens -/

@[simp] theorem lex_nil : lex [] = [] := by
  rw [lex]
  rfl

/-- The tokens of a text are its first one and those of what follows it. -/
theorem lex_cons {c : Char} {rest after : List Char} {t : Token} (hc : isSpace c = false)
    (h : firstToken c rest = (t, some after)) : lex (c :: rest) = t :: lex after := by
  have hnext : nextToken (c :: rest) = some (t, some after) := by
    rw [nextToken, List.dropWhile_cons_of_neg (by simp [hc])]
    exact congrArg some h
  rw [lex]
  split
  · next hnone => simp [hnone] at hnext
  · next t' hlast => simp [hlast] at hnext
  · next t' rest' hmore =>
    rw [hmore] at hnext
    cases hnext
    rfl

/-- Blanks before a token do not count. -/
theorem lex_blanks {ws : List Char} (h : ∀ c ∈ ws, isSpace c = true) (cs : List Char) :
    lex (ws ++ cs) = lex cs := by
  have hnext : nextToken (ws ++ cs) = nextToken cs := by
    rw [nextToken, nextToken, List.dropWhile_append_of_pos h]
  rw [lex, lex]
  split <;> split <;> simp_all

theorem ne_of_isDigit {c x : Char} (h : c.isDigit = true) (hx : x.isDigit = false) : c ≠ x := by
  rintro rfl
  simp [hx] at h

/-- A digit begins a number. -/
theorem firstToken_of_isDigit {c : Char} (h : c.isDigit = true) (rest : List Char) :
    firstToken c rest = tokenOf .number (scanNumeral false (c :: rest)) := by
  simp [firstToken, mark?, word?, ne_of_isDigit h, h]

/-- A number is a token where no number goes on. -/
theorem lex_digits (n : Nat) {rest : List Char} (h : Delimited rest) :
    lex (Decimal.digits n ++ rest) = .number (.ofNat n) :: lex rest := by
  obtain ⟨d, ds, hds⟩ := List.exists_cons_of_ne_nil (Decimal.digits_ne_nil n)
  have hdigit : d.isDigit = true := Decimal.isDigit_of_mem_digits (hds ▸ List.mem_cons_self)
  have hscan := scanNumeral_digits n h
  rw [hds, List.cons_append] at hscan ⊢
  refine lex_cons ?_ ?_
  · simp [isSpace, ne_of_isDigit hdigit]
  · rw [firstToken_of_isDigit hdigit, hscan]
    rfl

/-- A text in quotes is a token. -/
theorem lex_quoted (s : String) (rest : List Char) :
    lex (quoted s ++ rest) = .text (.ofText s) :: lex rest := by
  rw [quoted, List.cons_append, List.append_assoc]
  exact lex_cons rfl (quotedToken_quoted s rest)

end TunnelMesh.Json
