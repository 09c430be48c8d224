/-!
# The field of the curve

Arithmetic modulo the prime 2²⁵⁵ − 19. Elements are the numbers below the prime, with the
operations of `Fin`. Powers run through the bits of the exponent, inverses are powers, and a
square root is found by one power and one correction by a root of −1, since the prime leaves 5
when divided by 8.
-/

namespace TunnelMesh.Curve

/-- The prime of the field. -/
def prime : Nat := Nat.pow 2 255 - 19

instance : @NeZero Nat Zero.ofOfNat0 prime := ⟨by decide⟩

/-- An element of the field. -/
abbrev Element := Fin prime

namespace Element

/-- The element of a number, taken modulo the prime. -/
def ofNat (n : Nat) : Element :=
  Fin.ofNat prime n

/-- A power whose exponent has at most the given number of bits. -/
def powBits (a : Element) : Nat → Nat → Element
  | 0, _ => 1
  | bits + 1, n =>
    let r := powBits a bits (n / 2)
    if n % 2 = 1 then r * r * a else r * r

/-- A power with an exponent below 2²⁵⁶. -/
def pow (a : Element) (n : Nat) : Element :=
  powBits a 256 n

/-- The inverse of an element, and 0 for 0. -/
def inv (a : Element) : Element :=
  pow a (prime - 2)

/-- A root of −1. -/
def rootOfMinusOne : Element :=
  ofNat 19681161376707505956807079304988542015446066515923890162744021073123829784752

/-- The even one of the two roots of a square, and nothing for other elements. -/
def sqrt? (a : Element) : Option Element :=
  let c := pow a ((prime + 3) / 8)
  let r := if c * c = a then c else c * rootOfMinusOne
  if r * r = a then some (if r.val % 2 = 0 then r else -r) else none

end Element

end TunnelMesh.Curve
