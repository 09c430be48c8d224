import TunnelMesh.Text.Octets
import TunnelMesh.Text.Decimal

/-!
# Base64

The standard alphabet with padding. Three bytes are written as four symbols of six bits; one or
two bytes left over are written as two or three symbols and filled up with `=`. Reading accepts
the written form only: padding is required, and the bits of the last symbol that no byte uses are
zero. A text that is refused says where and why (`Defect`).
-/

namespace TunnelMesh.Base64

/-- Why a text is not base64. Offsets count the bytes of the text. -/
inductive Defect where
  /-- A byte that may not stand where it stands. -/
  | symbol (byte : UInt8) (offset : Nat)
  /-- A last group of fewer than two symbols; the number is that of the symbols before its end. -/
  | length (count : Nat)
  /-- A last symbol with bits that belong to no byte. -/
  | lastSymbol (byte : UInt8) (offset : Nat)
  /-- Padding that is missing or does not fill the last group. -/
  | padding
  deriving DecidableEq, Repr

/-- The wording of a refusal. -/
def Defect.message : Defect → String
  | .symbol b i => "Invalid symbol " ++ Decimal.text b.toNat ++ ", offset " ++ Decimal.text i ++ "."
  | .length n => "Invalid input length: " ++ Decimal.text n
  | .lastSymbol b i =>
    "Invalid last symbol " ++ Decimal.text b.toNat ++ ", offset " ++ Decimal.text i ++ "."
  | .padding => "Invalid padding"

/-! ## Writing -/

/-- The symbol of a six-bit value: the capitals, the small letters, the digits, `+` and `/`. -/
def symbol (v : Nat) : Char :=
  if v < 26 then Char.ofNat ('A'.toNat + v)
  else if v < 52 then Char.ofNat ('a'.toNat + (v - 26))
  else if v < 62 then Char.ofNat ('0'.toNat + (v - 52))
  else if v = 62 then '+'
  else '/'

/-- The symbols of a byte string. -/
def encodeChars : List UInt8 → List Char
  | [] => []
  | [a] => [symbol (a.toNat / 4), symbol (a.toNat % 4 * 16), '=', '=']
  | [a, b] =>
    [symbol (a.toNat / 4), symbol (a.toNat % 4 * 16 + b.toNat / 16), symbol (b.toNat % 16 * 4), '=']
  | a :: b :: c :: rest =>
    symbol (a.toNat / 4) :: symbol (a.toNat % 4 * 16 + b.toNat / 16) ::
      symbol (b.toNat % 16 * 4 + c.toNat / 64) :: symbol (c.toNat % 64) :: encodeChars rest

/-- The base64 text of a byte string. -/
def encode (bs : List UInt8) : String :=
  String.ofList (encodeChars bs)

/-! ## Reading -/

/-- The byte of `=`. -/
def pad : UInt8 := 61

/-- The six-bit value of a symbol. -/
def sextet? (b : UInt8) : Option Nat :=
  let n := b.toNat
  if 65 ≤ n ∧ n ≤ 90 then some (n - 65)
  else if 97 ≤ n ∧ n ≤ 122 then some (n - 97 + 26)
  else if 48 ≤ n ∧ n ≤ 57 then some (n - 48 + 52)
  else if n = 43 then some 62
  else if n = 47 then some 63
  else none

/-- The values of symbols that begin at `offset`; the first byte that is no symbol is refused. -/
def sextets (offset : Nat) : List UInt8 → Except Defect (List Nat)
  | [] => .ok []
  | b :: rest =>
    match sextet? b with
    | none => .error (.symbol b offset)
    | some v => (sextets (offset + 1) rest).map (v :: ·)

/-- The bytes that six-bit values denote, four values for three bytes. Bits that do not fill a
byte at the end are dropped. -/
def bytesOfSextets : List Nat → List UInt8
  | a :: b :: c :: d :: rest =>
    UInt8.ofNat (a * 4 + b / 16) :: UInt8.ofNat (b % 16 * 16 + c / 4) ::
      UInt8.ofNat (c % 4 * 64 + d) :: bytesOfSextets rest
  | [a, b, c] => [UInt8.ofNat (a * 4 + b / 16), UInt8.ofNat (b % 16 * 16 + c / 4)]
  | [a, b] => [UInt8.ofNat (a * 4 + b / 16)]
  | _ => []

/-- The bits of the last symbol that no byte uses: four after two symbols, two after three. -/
def spareBits : List Nat → Nat
  | [_, b] => b % 16
  | [_, _, c] => c % 4
  | _ => 0

/-- Where the last group of a text of `n` bytes begins. -/
def lastGroup (n : Nat) : Nat :=
  if n % 4 = 0 then n - 4 else n - n % 4

/-- The values of the last group, which begins at `start`. -/
def lastSextets (start : Nat) (group : List UInt8) : Except Defect (List Nat) := do
  let symbols := group.takeWhile (· != pad)
  let padding := group.dropWhile (· != pad)
  let values ← sextets start symbols
  if padding ≠ [] ∧ (symbols.length < 2 ∨ padding.any (· != pad)) then
    throw (.symbol pad (start + symbols.length))
  if group ≠ [] ∧ symbols.length < 2 then
    throw (.length (start + symbols.length))
  if group.length % 4 ≠ 0 then
    throw .padding
  if spareBits values ≠ 0 then
    throw (.lastSymbol (symbols.getLast?.getD pad) (start + symbols.length - 1))
  return values

/-- The byte string that a text's bytes denote. A last byte that stands alone and is neither a
symbol nor padding is refused before all else. -/
def decodeBytes (bs : List UInt8) : Except Defect (List UInt8) := do
  let n := bs.length
  if let some last := bs.getLast? then
    if n % 4 = 1 ∧ last ≠ pad ∧ (sextet? last).isNone then
      throw (.symbol last (n - 1))
  let start := lastGroup n
  let front ← sextets 0 (bs.take start)
  let back ← lastSextets start (bs.drop start)
  return bytesOfSextets front ++ bytesOfSextets back

/-- The byte string that a base64 text denotes. -/
def decode (s : String) : Except Defect (List UInt8) :=
  decodeBytes (Text.utf8 s)

end TunnelMesh.Base64
