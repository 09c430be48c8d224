import TunnelMesh.Curve.Field
import TunnelMesh.Text.Octets

/-!
# Points of the curve

The points of the twisted Edwards curve −x² + y² = 1 + d·x²·y², in projective coordinates: `x`,
`y`, `z` stand for the point (x/z, y/z). One addition formula serves all pairs of points, because
`d` is no square. A point is written as the 255 bits of y and a sign bit, the last bit of x
(`encode`), and it is read back from there (`decode?`) or from the coordinate
u = (1 + y)/(1 − y) alone (`ofU?`), which leaves the sign open and takes it for 0.
-/

namespace TunnelMesh.Curve

/-- The coefficient of the curve, −121665/121666. -/
def coefficient : Element :=
  Element.ofNat 37095705934669439343138083508754565189542113879843219016388785533085940283555

/-- A point in projective coordinates. -/
structure Point where
  x : Element
  y : Element
  z : Element
  deriving DecidableEq, Repr

namespace Point

/-- The neutral point. -/
def zero : Point :=
  ⟨0, 1, 1⟩

/-- The base point: y is 4/5 and x is even. -/
def base : Point :=
  ⟨Element.ofNat 15112221349535400772501151409588531511454012693041857206046113283949847762202,
   Element.ofNat 46316835694926478169428394003475163141307993866256225615783033603165251855960, 1⟩

/-! ## The group -/

/-- The sum of two points. -/
def add (p q : Point) : Point :=
  let a := p.z * q.z
  let b := a * a
  let c := p.x * q.x
  let d := p.y * q.y
  let e := coefficient * (c * d)
  let f := b - e
  let g := b + e
  ⟨a * f * ((p.x + p.y) * (q.x + q.y) - c - d), a * g * (d + c), f * g⟩

/-- The inverse of a point. -/
def neg (p : Point) : Point :=
  ⟨-p.x, p.y, p.z⟩

/-- A multiple of a point whose factor has at most the given number of bits. -/
def timesBits (p : Point) : Nat → Nat → Point
  | 0, _ => zero
  | bits + 1, n =>
    let q := timesBits p bits (n / 2)
    if n % 2 = 1 then (q.add q).add p else q.add q

/-- A multiple of a point with a factor below 2²⁵⁶. -/
def times (n : Nat) (p : Point) : Point :=
  timesBits p 256 n

/-! ## Points as bytes -/

/-- The highest of the 256 bits, 2²⁵⁵. -/
def signBit : Nat :=
  Nat.pow 2 255

/-- The coordinate u = (1 + y)/(1 − y), and 0 for the neutral point. -/
def u (p : Point) : Element :=
  (p.z + p.y) * Element.inv (p.z - p.y)

/-- The number whose lowest 255 bits are y and whose highest bit is the last bit of x. -/
def code (p : Point) : Nat :=
  let w := Element.inv p.z
  (p.y * w).val + (p.x * w).val % 2 * signBit

/-- The written form of a point. -/
def encode (p : Point) : Octets 32 :=
  LittleEndian.octets 32 p.code

/-- The point with a given y whose x has the given last bit, if there is a point with that y. Where
x is 0 the bit does not count. -/
def ofY? (y : Element) (odd : Bool) : Option Point :=
  let yy := y * y
  (Element.sqrt? ((yy - 1) * Element.inv (coefficient * yy + 1))).map fun x =>
    ⟨if odd then -x else x, y, 1⟩

/-- The point that 32 bytes denote. The number for y need not be below the prime. -/
def decode? (bs : Octets 32) : Option Point :=
  let n := LittleEndian.value bs.val
  ofY? (Element.ofNat (n % signBit)) (n / signBit % 2 == 1)

/-- The point with an even x whose u the 32 bytes denote. The last bit of the bytes does not count
and the number need not be below the prime; −1 is the u of no point. -/
def ofU? (bs : Octets 32) : Option Point :=
  let u := Element.ofNat (LittleEndian.value bs.val % signBit)
  if u + 1 = 0 then none else ofY? ((u - 1) * Element.inv (u + 1)) false

end Point

end TunnelMesh.Curve
