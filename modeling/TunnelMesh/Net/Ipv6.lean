import TunnelMesh.Net.Ipv4

/-!
# IPv6 literals

Which texts are IPv6 addresses: eight groups of up to four hexadecimal digits, of which the last
two may be given as an IPv4 address, or fewer groups with one `::` in the place of the groups left
out. Only the form matters here, since such a text is put into brackets before a port.
-/

namespace TunnelMesh.Ipv6

/-- A hexadecimal digit of either case. -/
def isHexDigit (c : Char) : Bool :=
  c.isDigit || ('a' ≤ c && c ≤ 'f') || ('A' ≤ c && c ≤ 'F')

/-- A group of one to four hexadecimal digits. -/
def isGroup (g : List Char) : Bool :=
  1 ≤ g.length && g.length ≤ 4 && g.all isHexDigit

/-- How many groups the parts between colons stand for; an IPv4 address at the end stands for
two, where it is allowed. -/
def groupCount? (tailAddress : Bool) : List (List Char) → Option Nat
  | [] => some 0
  | [g] =>
    if isGroup g then some 1
    else if tailAddress && (Ipv4.parse? g).isSome then some 2
    else none
  | g :: gs => if isGroup g then (groupCount? tailAddress gs).map (· + 1) else none

/-- The parts between colons of a text, none for the empty text. -/
def parts (cs : List Char) : List (List Char) :=
  if cs.isEmpty then [] else cs.splitOn ':'

/-- What stands before and after the first `::`. -/
def splitGap? : List Char → Option (List Char × List Char)
  | ':' :: ':' :: rest => some ([], rest)
  | c :: rest => (splitGap? rest).map fun (a, b) => (c :: a, b)
  | [] => none

/-- The text is an IPv6 address. A gap stands for at least one group. -/
def isLiteral (s : String) : Bool :=
  match splitGap? s.toList with
  | none => groupCount? true (parts s.toList) == some 8
  | some (front, back) =>
    match groupCount? false (parts front), groupCount? true (parts back) with
    | some m, some n => m + n ≤ 7
    | _, _ => false

end TunnelMesh.Ipv6
