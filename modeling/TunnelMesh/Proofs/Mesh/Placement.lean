import Mathlib
import TunnelMesh.Mesh.Resolve
import TunnelMesh.Proofs.Except
import TunnelMesh.Proofs.Net.Ipv4
import TunnelMesh.Proofs.Net.Pool
import TunnelMesh.Proofs.Net.Subnet

/-!
# Placing hosts

What a host declares is said without the readers of addresses: its trimmed address is written as a
subnet is (`Host.Declares`), and the host waits for an address if it does not ignore the defaults
and declares none that is usable (`Host.awaitsAddress`).

Placing hosts succeeds just when there are as many free addresses as hosts that wait for one, and
then the waiting hosts have the free addresses in order and all others are as before
(`placeHosts_eq_ok`). Otherwise it stops at the first waiting host for which no address is left
(`placeHosts_eq_error`). Each allocation takes the head of the list of free addresses, so the
position of a host's address in that list is the number of hosts that waited before it
(`Host.withAddressAt`).
-/

namespace TunnelMesh

open Text

/-! ## Declared addresses -/

namespace Host

/-- The address of a host is written as a subnet is. Blanks around it do not count. -/
def Declares (h : Host) (b : Subnet) : Prop :=
  ∃ text, h.address = some text ∧ b.WrittenAs (Text.trim text).toList

/-- A host declares an address, perhaps with a length behind it. -/
def DeclaresAddress (h : Host) (a : Ipv4) : Prop :=
  ∃ b, h.Declares b ∧ b.address = a

/-- A host declares an address of a subnet that a host may have. -/
def DeclaresUsable (s : Subnet) (h : Host) : Prop :=
  ∃ a, h.DeclaresAddress a ∧ s.isUsable a = true

section
variable {s : Subnet} {h : Host} {a : Ipv4} {b b' : Subnet}

/-- A host declares one subnet at most. -/
theorem Declares.unique (hb : h.Declares b) (hb' : h.Declares b') : b = b' := by
  obtain ⟨text, htext, hwritten⟩ := hb
  obtain ⟨text', htext', hwritten'⟩ := hb'
  obtain rfl : text = text' := Option.some.inj (htext.symm.trans htext')
  exact hwritten.unique hwritten'

/-- The address that is read is the one that the host declares. -/
theorem declared?_eq_some : h.declared? = some a ↔ h.DeclaresAddress a := by
  rw [declared?, Option.bind_eq_some_iff]
  simp only [Ipv4.ofHostText?_eq_some, DeclaresAddress, Declares]
  constructor
  · rintro ⟨text, htext, b, hwritten, hb⟩
    exact ⟨b, ⟨text, htext, hwritten⟩, hb⟩
  · rintro ⟨b, ⟨text, htext, hwritten⟩, hb⟩
    exact ⟨text, htext, b, hwritten, hb⟩

instance (h : Host) (a : Ipv4) : Decidable (h.DeclaresAddress a) :=
  decidable_of_iff (h.declared? = some a) declared?_eq_some

/-- A host is placed just when it declares a usable address. -/
theorem isPlaced_iff : h.isPlaced s = true ↔ h.DeclaresUsable s := by
  simp only [DeclaresUsable, ← declared?_eq_some]
  rw [isPlaced]
  cases h.declared? <;> simp

instance (s : Subnet) (h : Host) : Decidable (h.DeclaresUsable s) :=
  decidable_of_iff (h.isPlaced s = true) isPlaced_iff

end

/-- A host is to be given an address of a subnet: it does not ignore the defaults, and declares no
usable address. -/
def awaitsAddress (s : Subnet) (h : Host) : Bool :=
  decide (h.ignoreDefault = false ∧ ¬ h.DeclaresUsable s)

/-- Who waits for an address. -/
theorem awaitsAddress_eq_true {s : Subnet} {h : Host} :
    h.awaitsAddress s = true ↔ h.ignoreDefault = false ∧ ¬ h.DeclaresUsable s :=
  decide_eq_true_iff

/-- All other hosts are left as they are. -/
theorem awaitsAddress_eq_false {s : Subnet} {h : Host} :
    h.awaitsAddress s = false ↔ h.ignoreDefault = true ∨ h.DeclaresUsable s := by
  rw [← Bool.not_eq_true, awaitsAddress_eq_true, Decidable.not_and_iff_not_or_not,
    Decidable.not_not, Bool.not_eq_false]

/-- A host waits for no address just when it is passed over. -/
theorem not_awaitsAddress_iff {s : Subnet} {h : Host} :
    h.awaitsAddress s = false ↔ (h.ignoreDefault || h.isPlaced s) = true := by
  rw [awaitsAddress_eq_false, Bool.or_eq_true, isPlaced_iff]

/-- Who waits for an address is told by two settings of the host. -/
theorem awaitsAddress_congr {s : Subnet} {h h' : Host}
    (hignore : h'.ignoreDefault = h.ignoreDefault) (haddress : h'.address = h.address) :
    h'.awaitsAddress s = h.awaitsAddress s := by
  rw [Bool.eq_iff_iff]
  simp only [awaitsAddress_eq_true, DeclaresUsable, DeclaresAddress, Declares, hignore, haddress]

/-- Trimming does not change what is read. -/
@[simp] theorem declared?_trimmed (h : Host) : h.trimmed.declared? = h.declared? := by
  cases ha : h.address <;> simp [declared?, trimmed, ha]

/-- Trimming does not change who waits for an address. -/
@[simp] theorem awaitsAddress_trimmed (s : Subnet) (h : Host) :
    h.trimmed.awaitsAddress s = h.awaitsAddress s := by
  have hdeclares : h.trimmed.DeclaresUsable s ↔ h.DeclaresUsable s := by
    rw [← isPlaced_iff, isPlaced, declared?_trimmed, ← isPlaced, isPlaced_iff]
  exact decide_eq_decide.2 (and_congr_right fun _ => not_congr hdeclares)

/-- The host with the address at a position of a list of free ones, if it waits for one. -/
def withAddressAt (s : Subnet) (free : List Ipv4) (position : Nat) (h : Host) : Host :=
  if h.awaitsAddress s then { h with address := free[position]?.map Ipv4.text } else h

/-- Whatever becomes of the address of a host, all else is left as it is. -/
theorem exists_withAddressAt_eq (s : Subnet) (free : List Ipv4) (n : Nat) (h : Host) :
    ∃ address, h.withAddressAt s free n = { h with address := address } := by
  rw [withAddressAt]
  split
  · exact ⟨_, rfl⟩
  · exact ⟨_, rfl⟩

section

variable (s : Subnet) (free : List Ipv4) (n : Nat) (h : Host)

@[simp] theorem ignoreDefault_withAddressAt :
    (h.withAddressAt s free n).ignoreDefault = h.ignoreDefault := by
  obtain ⟨address, heq⟩ := exists_withAddressAt_eq s free n h
  rw [heq]

@[simp] theorem server_withAddressAt : (h.withAddressAt s free n).server = h.server := by
  obtain ⟨address, heq⟩ := exists_withAddressAt_eq s free n h
  rw [heq]

@[simp] theorem table_withAddressAt : (h.withAddressAt s free n).table = h.table := by
  obtain ⟨address, heq⟩ := exists_withAddressAt_eq s free n h
  rw [heq]

end

/-- A host that waits for no address is left as it is. -/
theorem withAddressAt_of_not_awaits {s : Subnet} {h : Host} (hh : h.awaitsAddress s = false)
    (free : List Ipv4) (position : Nat) : h.withAddressAt s free position = h := by
  rw [withAddressAt, if_neg (by simp [hh])]

/-- A host that has got a usable address waits for none. -/
theorem awaitsAddress_withAddressAt {s : Subnet} {free : List Ipv4} {position : Nat} {h : Host}
    (husable : ∀ a ∈ free, s.isUsable a = true)
    (hposition : h.awaitsAddress s = true → position < free.length) :
    (h.withAddressAt s free position).awaitsAddress s = false := by
  cases hh : h.awaitsAddress s with
  | false => rw [withAddressAt_of_not_awaits hh, hh]
  | true =>
    have hlt := hposition hh
    rw [withAddressAt, if_pos hh, awaitsAddress_eq_false]
    refine .inr ⟨free[position], declared?_eq_some.1 ?_, husable _ (List.getElem_mem hlt)⟩
    simp [declared?, List.getElem?_eq_getElem hlt]

end Host

/-! ## First fit -/

/-- How many of the hosts before a position wait for an address. -/
def waitingBefore (s : Subnet) (hs : List Host) (i : Nat) : Nat :=
  (hs.take i).countP (·.awaitsAddress s)

/-- The number of waiting hosts before a position grows where a host waits. -/
theorem waitingBefore_lt {s : Subnet} {hs : List Host} {i j : Nat} {h : Host} (hij : i < j)
    (hh : hs[i]? = some h) (hwaits : h.awaitsAddress s = true) :
    waitingBefore s hs i < waitingBefore s hs j := by
  obtain ⟨hlt, hget⟩ := List.getElem?_eq_some_iff.1 hh
  have hstep : waitingBefore s hs (i + 1) = waitingBefore s hs i + 1 := by
    rw [waitingBefore, List.take_succ_eq_append_getElem hlt, List.countP_append, hget,
      List.countP_singleton, if_pos hwaits, waitingBefore]
  calc waitingBefore s hs i < waitingBefore s hs (i + 1) := by omega
    _ ≤ waitingBefore s hs j := (List.take_sublist_take_left hij).countP_le

/-- Where the addresses reach for all waiting hosts, each of them has one. -/
theorem waitingBefore_lt_of_countP_le {s : Subnet} {hs : List Host} {i n : Nat} {h : Host}
    (hle : hs.countP (·.awaitsAddress s) ≤ n) (hh : hs[i]? = some h)
    (hwaits : h.awaitsAddress s = true) : waitingBefore s hs i < n := by
  have hlt := waitingBefore_lt (List.getElem?_eq_some_iff.1 hh).1 hh hwaits
  rw [waitingBefore.eq_1 s hs hs.length, List.take_length] at hlt
  exact hlt.trans_le hle

/-- The hosts with the free addresses in order, for those that wait for one. -/
def fillAddresses (s : Subnet) (free : List Ipv4) (hs : List Host) : List Host :=
  hs.mapIdx fun i h => h.withAddressAt s free (waitingBefore s hs i)

variable {s : Subnet} {free : List Ipv4} {h : Host} {hs out : List Host} {p : Pool}

/-- A host that waits for no address leaves the free addresses to the others. -/
theorem fillAddresses_cons_of_not_awaits (hh : h.awaitsAddress s = false) :
    fillAddresses s free (h :: hs) = h :: fillAddresses s free hs := by
  simp [fillAddresses, List.mapIdx_cons, waitingBefore, Host.withAddressAt, hh]

/-- A host that waits for an address takes the first of those that are free. -/
theorem fillAddresses_cons_of_awaits {a : Ipv4} (hh : h.awaitsAddress s = true) :
    fillAddresses s (a :: free) (h :: hs) =
      { h with address := some a.text } :: fillAddresses s free hs := by
  simp [fillAddresses, List.mapIdx_cons, waitingBefore, Host.withAddressAt, hh]

/-- Where no host waits for an address, all are left as they are. -/
theorem fillAddresses_of_not_awaits (hs : List Host)
    (hall : ∀ h ∈ hs, h.awaitsAddress s = false) : fillAddresses s free hs = hs := by
  induction hs with
  | nil => rfl
  | cons h hs ih =>
    rw [List.forall_mem_cons] at hall
    rw [fillAddresses_cons_of_not_awaits hall.1, ih hall.2]

/-- Placing hosts is filling in the free addresses in order, as far as they reach. -/
theorem placeHosts_eq_ok : placeHosts p hs = .ok out ↔
    hs.countP (·.awaitsAddress p.subnet) ≤ p.free.length ∧
      out = fillAddresses p.subnet p.free hs := by
  induction hs generalizing p out with
  | nil => simp [placeHosts, fillAddresses, eq_comm]
  | cons h hs ih =>
    rw [placeHosts]
    cases hh : h.awaitsAddress p.subnet with
    | false =>
      rw [if_pos (Host.not_awaitsAddress_iff.1 hh), fillAddresses_cons_of_not_awaits hh,
        List.countP_cons_of_neg (by simp [hh])]
      constructor
      · intro hrun
        obtain ⟨rest, hrest, rfl⟩ := Except.bind_pure_eq_ok.1 hrun
        obtain ⟨hle, rfl⟩ := ih.1 hrest
        exact ⟨hle, rfl⟩
      · rintro ⟨hle, rfl⟩
        exact Except.bind_pure_eq_ok.2 ⟨_, ih.2 ⟨hle, rfl⟩, rfl⟩
    | true =>
      have hwaits : ¬ (h.ignoreDefault || h.isPlaced p.subnet) = true :=
        mt Host.not_awaitsAddress_iff.2 (by simp [hh])
      rw [if_neg hwaits, List.countP_cons_of_pos hh]
      cases hfree : p.free with
      | nil => simp [Pool.allocate_of_free_nil hfree]
      | cons a free =>
        obtain ⟨q, hq, hsub, hqfree⟩ := Pool.allocate_of_free_cons hfree
        rw [hq, fillAddresses_cons_of_awaits hh, List.length_cons, ← hsub, ← hqfree]
        constructor
        · intro hrun
          obtain ⟨rest, hrest, rfl⟩ := Except.bind_pure_eq_ok.1 hrun
          obtain ⟨hle, rfl⟩ := ih.1 hrest
          exact ⟨Nat.succ_le_succ hle, rfl⟩
        · rintro ⟨hle, rfl⟩
          exact Except.bind_pure_eq_ok.2 ⟨_, ih.2 ⟨Nat.le_of_succ_le_succ hle, rfl⟩, rfl⟩

/-- Placing hosts stops at the waiting host that stands behind as many others as there are free
addresses. -/
theorem placeHosts_eq_error {e : MeshError} : placeHosts p hs = .error e ↔
    ∃ h, (hs.filter (·.awaitsAddress p.subnet))[p.free.length]? = some h ∧
      e = .subnetExhausted h.hostname p.subnet.text := by
  induction hs generalizing p with
  | nil => simp [placeHosts]
  | cons h hs ih =>
    rw [placeHosts]
    cases hh : h.awaitsAddress p.subnet with
    | false =>
      rw [if_pos (Host.not_awaitsAddress_iff.1 hh), List.filter_cons_of_neg (by simp [hh]),
        Except.bind_pure_eq_error, ih]
    | true =>
      have hwaits : ¬ (h.ignoreDefault || h.isPlaced p.subnet) = true :=
        mt Host.not_awaitsAddress_iff.2 (by simp [hh])
      rw [if_neg hwaits, List.filter_cons_of_pos hh]
      cases hfree : p.free with
      | nil => simp [Pool.allocate_of_free_nil hfree, eq_comm]
      | cons a free =>
        obtain ⟨q, hq, hsub, hqfree⟩ := Pool.allocate_of_free_cons hfree
        rw [hq, List.length_cons, List.getElem?_cons_succ, ← hsub, ← hqfree,
          Except.bind_pure_eq_error, ih]

end TunnelMesh
