import Mathlib
import TunnelMesh.Curve.Signature

/-!
# The two primes of the curve

The number of elements of the field and the order of the base point are primes
(`prime_prime`, `prime_order`). Both are proved by certificates: a number `n` is prime if some base
has order `n - 1` modulo `n` (`lucas_primality`), which powers of the base show once the prime
factors of `n - 1` are known. A list of certificates is checked from the front, so that each entry
may use the primes of the entries before it, and the kernel evaluates the check.
-/

namespace TunnelMesh.Curve

/-! ## Certificates -/

/-- A power modulo `n`, for an exponent that has at most the given number of bits. -/
def powerMod (n a : Nat) : Nat → Nat → Nat
  | 0, _ => 1
  | bits + 1, e =>
    let r := powerMod n a bits (e / 2)
    if e % 2 = 1 then r * r * a % n else r * r % n

/-- The residue of `powerMod` is the power. The induction is on the bits of the exponent. -/
theorem cast_powerMod (n a : Nat) {bits e : Nat} (he : e < 2 ^ bits) :
    (powerMod n a bits e : ZMod n) = (a : ZMod n) ^ e := by
  induction bits generalizing e with
  | zero =>
    obtain rfl : e = 0 := by simpa using he
    simp [powerMod]
  | succ bits ih =>
    have hhalf : e / 2 < 2 ^ bits := by rw [pow_succ] at he; omega
    have hsplit : e = e / 2 + e / 2 + e % 2 := by omega
    rw [powerMod]
    conv_rhs => rw [hsplit, pow_add, pow_add, ← ih hhalf]
    rcases Nat.mod_two_eq_zero_or_one e with h | h <;> simp [h]

/-- A number, a base of order one less modulo that number, and the prime factors of that order. -/
structure Certificate where
  number : Nat
  base : Nat
  factors : List Nat

namespace Certificate

/-- The certificate is good, given primes that are known. Exponents have at most 256 bits. -/
def check (known : List Nat) (c : Certificate) : Bool :=
  1 < c.number && c.number < 2 ^ 256 && c.factors.prod == c.number - 1 &&
    c.factors.all known.contains && powerMod c.number c.base 256 (c.number - 1) == 1 &&
    c.factors.all fun q => powerMod c.number c.base 256 ((c.number - 1) / q) % c.number != 1

/-- The certificates of a list are good, where each may use the numbers before it. -/
def checkAll : List Nat → List Certificate → Bool
  | _, [] => true
  | known, c :: cs => c.check known && checkAll (c.number :: known) cs

/-- A certificate that is good proves its number prime. -/
theorem prime_of_check {known : List Nat} (hknown : ∀ q ∈ known, q.Prime) {c : Certificate}
    (h : c.check known = true) : c.number.Prime := by
  simp only [check, Bool.and_eq_true, decide_eq_true_eq, beq_iff_eq, List.all_eq_true,
    List.contains_iff_mem, bne_iff_ne, ne_eq] at h
  obtain ⟨⟨⟨⟨⟨hone, hsize⟩, hprod⟩, hfactors⟩, hpower⟩, horder⟩ := h
  refine lucas_primality c.number (c.base : ZMod c.number) ?_ fun q hq hdvd => ?_
  · have hexponent : c.number - 1 < 2 ^ 256 := by omega
    rw [← cast_powerMod c.number c.base hexponent, hpower, Nat.cast_one]
  · obtain ⟨r, hr, hqr⟩ := (Prime.dvd_prod_iff hq.prime).1 (hprod ▸ hdvd)
    obtain rfl := (Nat.prime_dvd_prime_iff_eq hq (hknown r (hfactors r hr))).1 hqr
    have hlt : (c.number - 1) / q < 2 ^ 256 :=
      lt_of_le_of_lt (Nat.div_le_self ..) (by omega)
    intro hone'
    rw [← cast_powerMod c.number c.base hlt, ← Nat.cast_one (R := ZMod c.number),
      ZMod.natCast_eq_natCast_iff', Nat.mod_eq_of_lt hone] at hone'
    exact horder q hr hone'

/-- The numbers of good certificates are prime. -/
theorem prime_of_checkAll {cs : List Certificate} {known : List Nat}
    (hknown : ∀ q ∈ known, q.Prime) (h : checkAll known cs = true) :
    ∀ c ∈ cs, c.number.Prime := by
  induction cs generalizing known with
  | nil => simp
  | cons c cs ih =>
    rw [checkAll, Bool.and_eq_true] at h
    have hc := prime_of_check hknown h.1
    intro c' hc'
    rcases List.mem_cons.1 hc' with rfl | hc'
    · exact hc
    · refine ih (fun q hq => ?_) h.2 c' hc'
      rcases List.mem_cons.1 hq with rfl | hq
      exacts [hc, hknown q hq]

end Certificate

/-! ## The primes -/

/-- The small primes that the certificates use. -/
def smallPrimes : List Nat :=
  [2, 3, 5, 7, 11, 13, 17, 19, 23, 31, 41, 43, 47, 73, 107, 127, 223, 269, 307, 353, 1361, 2437,
   2851, 4153, 5879, 30703, 57467, 65147, 75707, 82163, 132049, 132667, 137849, 409477, 430751,
   531581, 569003, 1224481, 1923133, 8574133]

/-- The small primes are primes. -/
theorem prime_of_mem_smallPrimes : ∀ q ∈ smallPrimes, q.Prime := by
  simp only [smallPrimes, List.forall_mem_cons, List.not_mem_nil, false_imp_iff, implies_true,
    and_true]
  norm_num

/-- The certificates on the way to the prime of the field. -/
def primeCertificates : List Certificate :=
  [⟨2773320623, 5, [2, 2437, 569003]⟩,
   ⟨72106336199, 7, [2, 13, 2773320623]⟩,
   ⟨1919519569386763, 2, [2, 3, 7, 19, 47, 47, 127, 8574133]⟩,
   ⟨31757755568855353, 10, [2, 2, 2, 3, 31, 107, 223, 4153, 430751]⟩,
   ⟨75445702479781427272750846543864801, 7,
    [2, 2, 2, 2, 2, 3, 3, 5, 5, 75707, 72106336199, 1919519569386763]⟩,
   ⟨74058212732561358302231226437062788676166966415465897661863160754340907, 2,
    [2, 3, 353, 57467, 132049, 1923133, 31757755568855353, 75445702479781427272750846543864801]⟩,
   ⟨prime, 2,
    [2, 2, 3, 65147, 74058212732561358302231226437062788676166966415465897661863160754340907]⟩]

/-- The certificates on the way to the order of the base point. -/
def orderCertificates : List Certificate :=
  [⟨14741173, 2, [2, 2, 3, 3, 409477]⟩,
   ⟨58964693, 2, [2, 2, 14741173]⟩,
   ⟨292386187, 2, [2, 3, 3, 3, 3, 307, 5879]⟩,
   ⟨213441916511, 13, [2, 5, 73, 292386187]⟩,
   ⟨1257559732178653, 2, [2, 2, 3, 7, 23, 531581, 1224481]⟩,
   ⟨4434155615661930479, 17, [2, 41, 43, 1257559732178653]⟩,
   ⟨3044861653679985063343, 5, [2, 3, 11, 30703, 82163, 132667, 137849]⟩,
   ⟨172054593956031949258510691, 2, [2, 5, 1361, 2851, 4434155615661930479]⟩,
   ⟨198211423230930754013084525763697, 5, [2, 2, 2, 2, 3, 23, 58964693, 3044861653679985063343]⟩,
   ⟨19757330305831588566944191468367130476339, 2,
    [2, 269, 213441916511, 172054593956031949258510691]⟩,
   ⟨276602624281642239937218680557139826668747, 2,
    [2, 7, 19757330305831588566944191468367130476339]⟩,
   ⟨order, 2,
    [2, 2, 3, 11, 198211423230930754013084525763697, 276602624281642239937218680557139826668747]⟩]

/-- The number of elements of the field is prime. -/
theorem prime_prime : prime.Prime :=
  Certificate.prime_of_checkAll prime_of_mem_smallPrimes
    (by decide +kernel : Certificate.checkAll smallPrimes primeCertificates = true)
    _ (List.getLast_mem (l := primeCertificates) (by simp [primeCertificates]))

/-- The order of the base point is prime. -/
theorem prime_order : order.Prime :=
  Certificate.prime_of_checkAll prime_of_mem_smallPrimes
    (by decide +kernel : Certificate.checkAll smallPrimes orderCertificates = true)
    _ (List.getLast_mem (l := orderCertificates) (by simp [orderCertificates]))

end TunnelMesh.Curve
