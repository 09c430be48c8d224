import Mathlib
import TunnelMesh.Proofs.Mesh.Keys

/-!
# Draws of one stream

All randomness of a run comes in one stream of bytes, and the hosts take of it what they need, one
after the other: 64 bytes for a probe and 64 for its signature where there are two keys to be
probed, and 32 bytes for a new key where the keys cannot be used (`Host.withUsableKeysFrom`). Where
a host's bytes begin depends on the hosts before it.

Such a run is one with draws that are told by positions. A host takes the bytes of its draw and
leaves what is behind them (`Host.withUsableKeysFrom_append`), so all hosts are given keys by the
draws that they take in their order (`withUsableKeysFrom_eq`), and whoever stands behind a host has
no effect on its draw (`drawsFrom_append`). The mesh that is compiled from a stream is the one of
these draws (`Mesh.compileFrom_eq`), and a mesh of any draws is compiled from some stream
(`Mesh.exists_compileFrom_eq`).
-/

namespace TunnelMesh

/-! ## Streams -/

/-- Random bytes in the order in which they are taken. -/
abbrev ByteStream := Stream' UInt8

namespace ByteStream

/-- The next bytes of a stream. -/
def next (n : Nat) (s : ByteStream) : Octets n :=
  ⟨s.take n, s.length_take n⟩

/-- Bytes in front of a stream are the next ones. -/
@[simp] theorem next_append {n : Nat} (bs : Octets n) (s : ByteStream) :
    next n (bs.val ++ₛ s) = bs := by
  obtain ⟨bs, rfl⟩ := bs
  refine Subtype.ext ?_
  exact (Stream'.take_append_of_le_length _ _ s le_rfl).trans List.take_length

/-- Behind bytes in front of a stream is the stream. -/
@[simp] theorem drop_append {n : Nat} (bs : Octets n) (s : ByteStream) :
    Stream'.drop n (bs.val ++ₛ s) = s := by
  obtain ⟨bs, rfl⟩ := bs
  exact Stream'.drop_append_stream bs s

/-- A stream is its next bytes and what is behind them. -/
theorem next_append_drop (n : Nat) (s : ByteStream) : (next n s).val ++ₛ s.drop n = s :=
  Stream'.append_take_drop n s

end ByteStream

open ByteStream

/-! ## What one host takes -/

/-- Whether two texts agree, and what is left of the stream. Bytes are taken only if both texts are
read as keys. -/
def KeyPair.agreeFrom (s : ByteStream) (privateText publicText : String) : Bool × ByteStream :=
  match PrivateKey.parse privateText, PublicKey.parse publicText with
  | .ok k, .ok p =>
    let probe := next 64 s
    let rest := s.drop 64
    (p.verify probe.val (k.sign probe.val (next 64 rest)), rest.drop 64)
  | _, _ => (false, s)

namespace Host

/-- Why a host's keys cannot be used, if they cannot, and what is left of the stream. -/
def rekeyReasonFrom (s : ByteStream) (h : Host) : Option RekeyReason × ByteStream :=
  match Text.nonBlank h.privateKey with
  | none => (some .missingPrivateKey, s)
  | some k =>
    if !Key.isWellFormed k then (some .invalidPrivateKey, s)
    else
      match Text.nonBlank h.publicKey with
      | none => (some .missingPublicKey, s)
      | some p =>
        if !Key.isWellFormed p then (some .invalidPublicKey, s)
        else
          match KeyPair.agreeFrom s k p with
          | (false, rest) => (some .mismatchedPair, rest)
          | (true, rest) => (none, rest)

/-- The host with keys that can be used, why it was given new ones, if it was, and what is left of
the stream. -/
def withUsableKeysFrom (s : ByteStream) (h : Host) : (Host × Option RekeyReason) × ByteStream :=
  if h.ignoreDefault then ((h, none), s)
  else
    match h.rekeyReasonFrom s with
    | (none, rest) => ((h, none), rest)
    | (some reason, rest) =>
      ((h.withKeys (KeyPair.ofPrivate ⟨next 32 rest⟩), some reason), rest.drop 32)

/-- Both keys of a host are set and read as keys, so that they are probed. -/
def isProbed (h : Host) : Bool :=
  match Text.nonBlank h.privateKey, Text.nonBlank h.publicKey with
  | some k, some p => Key.isWellFormed k && Key.isWellFormed p
  | _, _ => false

/-- The bytes of a draw that are taken to probe the keys of a host. -/
def probeBytes (draw : Draw) (h : Host) : List UInt8 :=
  if h.isProbed then draw.probe.val ++ draw.nonce.val else []

/-- The bytes of a draw that a host takes. -/
def drawnBytes (draw : Draw) (h : Host) : List UInt8 :=
  if h.ignoreDefault then []
  else h.probeBytes draw ++ if (h.rekeyReason draw).isSome then draw.key.val else []

/-- The draw of a host at a place of the stream. Its key is behind its probe, if there is one. -/
def drawFrom (s : ByteStream) (h : Host) : Draw where
  key := next 32 (if h.isProbed then (s.drop 64).drop 64 else s)
  probe := next 64 s
  nonce := next 64 (s.drop 64)

end Host

/-- Keys that are read take the bytes of a probe and of its signature. -/
theorem KeyPair.agreeFrom_append (draw : Draw) (s : ByteStream) {k p : String}
    (hk : Key.isWellFormed k = true) (hp : Key.isWellFormed p = true) :
    agreeFrom (draw.probe.val ++ₛ (draw.nonce.val ++ₛ s)) k p = (agree draw k p, s) := by
  obtain ⟨key, hkey⟩ := Key.isWellFormed_iff.1 hk
  obtain ⟨publicKey, hpublic⟩ := Key.isWellFormed_iff.1 hp
  rw [agreeFrom, agree, PrivateKey.parse_eq_ok (k := ⟨key⟩) |>.2 hkey,
    PublicKey.parse_eq_ok (k := ⟨publicKey⟩) |>.2 hpublic]
  simp

namespace Host

variable (draw : Draw) (s : ByteStream) (h : Host)

/-- The probe of a host's keys ends as it does with the draw whose bytes are taken. -/
theorem rekeyReasonFrom_append :
    h.rekeyReasonFrom (h.probeBytes draw ++ₛ s) = (h.rekeyReason draw, s) := by
  rw [rekeyReasonFrom, rekeyReason, probeBytes, isProbed]
  cases hk : Text.nonBlank h.privateKey with
  | none => rfl
  | some k =>
    cases hwfk : Key.isWellFormed k with
    | false => cases Text.nonBlank h.publicKey <;> simp [hwfk]
    | true =>
      cases hp : Text.nonBlank h.publicKey with
      | none => simp [hwfk]
      | some p =>
        cases hwfp : Key.isWellFormed p with
        | false => simp [hwfk, hwfp]
        | true =>
          -- the only case in which bytes are taken
          have hagree := KeyPair.agreeFrom_append draw s hwfk hwfp
          cases hprobe : KeyPair.agree draw k p <;> simp [hwfk, hwfp, hagree, hprobe]

/-- A host takes the bytes of its draw and leaves what is behind them. -/
theorem withUsableKeysFrom_append :
    h.withUsableKeysFrom (h.drawnBytes draw ++ₛ s) = (h.withUsableKeys draw, s) := by
  rw [withUsableKeysFrom, withUsableKeys, drawnBytes]
  cases h.ignoreDefault with
  | true => rfl
  | false =>
    cases hreason : h.rekeyReason draw with
    | none => simp [rekeyReasonFrom_append, hreason]
    | some reason => simp [rekeyReasonFrom_append, hreason, KeyPair.fresh]

/-- The bytes of a probe stand at the place of the stream where they are drawn, and those of a new
key behind them. -/
theorem exists_probeBytes_append : ∃ rest,
    h.probeBytes (h.drawFrom s) ++ₛ rest = s ∧ (h.drawFrom s).key = next 32 rest := by
  rw [probeBytes, drawFrom]
  cases h.isProbed with
  | false => exact ⟨s, rfl, rfl⟩
  | true =>
    refine ⟨(s.drop 64).drop 64, ?_, rfl⟩
    rw [if_pos rfl, Stream'.append_append_stream, next_append_drop, next_append_drop]

/-- The bytes of a draw stand at the place of the stream where they are drawn. -/
theorem exists_drawnBytes_append : ∃ rest, h.drawnBytes (h.drawFrom s) ++ₛ rest = s := by
  obtain ⟨rest, hprobe, hkey⟩ := h.exists_probeBytes_append s
  rw [drawnBytes]
  cases h.ignoreDefault with
  | true => exact ⟨s, rfl⟩
  | false =>
    cases (h.rekeyReason (h.drawFrom s)).isSome with
    | false => exact ⟨rest, by simpa using hprobe⟩
    | true =>
      refine ⟨rest.drop 32, ?_⟩
      simpa only [Bool.false_eq_true, if_false, if_true, Stream'.append_append_stream, hkey,
        next_append_drop] using hprobe

/-- A host has the keys that the draw at its place gives it. -/
theorem fst_withUsableKeysFrom :
    (h.withUsableKeysFrom s).1 = h.withUsableKeys (h.drawFrom s) := by
  obtain ⟨rest, hrest⟩ := h.exists_drawnBytes_append s
  nth_rewrite 1 [← hrest]
  rw [withUsableKeysFrom_append]

end Host

/-! ## What all hosts take -/

/-- Hosts with keys that can be used, in order, each from what those before it leave of the
stream. -/
def withUsableKeysFrom : ByteStream → List Host → List (Host × Option RekeyReason)
  | _, [] => []
  | s, h :: hs =>
    let (keyed, rest) := h.withUsableKeysFrom s
    keyed :: withUsableKeysFrom rest hs

/-- The draws of hosts by their positions: each stands where those before it end. -/
def drawsFrom : ByteStream → List Host → Draws
  | s, [], _ => ⟨next 32 s, next 64 s, next 64 (s.drop 64)⟩
  | s, h :: _, 0 => h.drawFrom s
  | s, h :: hs, i + 1 => drawsFrom (h.withUsableKeysFrom s).2 hs i

/-- Hosts that take what they need of one stream are given keys by their draws. -/
theorem withUsableKeysFrom_eq (s : ByteStream) (hs : List Host) : withUsableKeysFrom s hs =
    hs.mapIdx fun i h => h.withUsableKeys (drawsFrom s hs i) := by
  induction hs generalizing s with
  | nil => rfl
  | cons h hs ih =>
    rw [withUsableKeysFrom, List.mapIdx_cons]
    exact congrArg₂ List.cons (h.fst_withUsableKeysFrom s) (ih _)

/-- What a host takes does not depend on the hosts behind it. -/
theorem drawsFrom_append (s : ByteStream) (hs hs' : List Host) {i : Nat} (hi : i < hs.length) :
    drawsFrom s (hs ++ hs') i = drawsFrom s hs i := by
  induction hs generalizing s i with
  | nil => simp at hi
  | cons h hs ih =>
    cases i with
    | zero => rfl
    | succ i => exact ih _ (Nat.lt_of_succ_lt_succ hi)

/-- Any draws are taken of some stream. -/
theorem exists_withUsableKeysFrom_eq (draws : Draws) (hs : List Host) : ∃ s,
    withUsableKeysFrom s hs = hs.mapIdx fun i h => h.withUsableKeys (draws i) := by
  induction hs generalizing draws with
  | nil => exact ⟨Stream'.const 0, rfl⟩
  | cons h hs ih =>
    -- the first host leaves the stream of the others
    obtain ⟨rest, hrest⟩ := ih fun i => draws (i + 1)
    refine ⟨h.drawnBytes (draws 0) ++ₛ rest, ?_⟩
    rw [withUsableKeysFrom, List.mapIdx_cons, h.withUsableKeysFrom_append]
    exact congrArg (List.cons _) hrest

/-! ## What the keys of hosts show -/

/-- What of a host is looked at where its keys are. -/
def Host.shownKeys (h : Host) : Bool × Option String × Option String :=
  (h.ignoreDefault, Text.nonBlank h.privateKey, Text.nonBlank h.publicKey)

section

variable {h h' : Host} (hkeys : h'.shownKeys = h.shownKeys) (s : ByteStream)

include hkeys

/-- Hosts that show the same keys have the same draw at a place of the stream. -/
theorem Host.drawFrom_congr : h'.drawFrom s = h.drawFrom s := by
  simp only [shownKeys, Prod.mk.injEq] at hkeys
  obtain ⟨-, hprivate, hpublic⟩ := hkeys
  have hprobed : h'.isProbed = h.isProbed := by rw [isProbed, hprivate, hpublic, isProbed]
  rw [drawFrom, hprobed, drawFrom]

/-- Hosts that show the same keys leave the same of a stream. -/
theorem Host.snd_withUsableKeysFrom_congr :
    (h'.withUsableKeysFrom s).2 = (h.withUsableKeysFrom s).2 := by
  simp only [shownKeys, Prod.mk.injEq] at hkeys
  obtain ⟨hignore, hprivate, hpublic⟩ := hkeys
  have hreason : h'.rekeyReasonFrom s = h.rekeyReasonFrom s := by
    rw [rekeyReasonFrom, hprivate, hpublic, rekeyReasonFrom]
  rw [withUsableKeysFrom, withUsableKeysFrom, hignore, hreason]
  split
  · rfl
  · obtain ⟨reason, rest⟩ := h.rekeyReasonFrom s
    cases reason <;> rfl

end

/-- The draws of hosts are told by the keys that they show. -/
theorem drawsFrom_congr {hs hs' : List Host}
    (hkeys : hs'.map Host.shownKeys = hs.map Host.shownKeys) (s : ByteStream) :
    drawsFrom s hs' = drawsFrom s hs := by
  induction hs generalizing s hs' with
  | nil => rw [List.map_eq_nil_iff.1 hkeys]
  | cons h hs ih =>
    rw [List.map_cons, List.map_eq_cons_iff] at hkeys
    obtain ⟨h', hs', rfl, hhead, htail⟩ := hkeys
    funext i
    cases i with
    | zero => exact Host.drawFrom_congr hhead s
    | succ i => rw [drawsFrom, drawsFrom, Host.snd_withUsableKeysFrom_congr hhead, ih htail]

/-- Placing hosts leaves the keys that they show as they are. -/
theorem Topology.map_shownKeys_placedHosts (t : Topology) (p : Pool) :
    (t.placedHosts p).map Host.shownKeys = t.hosts.map Host.shownKeys := by
  have hplaced : ∀ (free : List Ipv4) (n : Nat) (h : Host),
      (h.trimmed.withAddressAt p.subnet free n).shownKeys = h.shownKeys := by
    intro free n h
    obtain ⟨address, heq⟩ := Host.exists_withAddressAt_eq p.subnet free n h.trimmed
    rw [heq]
    simp [Host.shownKeys, Host.trimmed]
  rw [placedHosts, fillAddresses, List.map_mapIdx, List.mapIdx_map]
  simp only [hplaced]
  exact List.mapIdx_eq_map _ _

/-! ## Meshes that are compiled from a stream -/

/-- A topology with all gaps filled, where the placed hosts are given their keys all together. -/
def Topology.resolveBy (keyHosts : List Host → List (Host × Option RekeyReason)) (t : Topology)
    (d : Defaults) : Except MeshError Resolved := do
  let t := t.withDefaultSubnet d
  let pool ← t.pool
  let t := t.withHosts (t.hosts.map Host.trimmed)
  let _ ← checkAllNames [] t.groups
  let placed ← placeHosts (pool.claimDeclared t.hosts) t.hosts
  let keyed := keyHosts placed
  return {
    topology := t.withHosts (keyed.map fun (h, _) => h.withDefaults d)
    subnet := pool.subnet
    rotations := keyed.filterMap fun (h, reason) => reason.map (⟨h.hostname, ·⟩) }

/-- Of the ways to give keys, only what they make of the placed hosts counts. -/
theorem Topology.resolveBy_congr {t : Topology} {d : Defaults}
    {keyHosts keyHosts' : List Host → List (Host × Option RekeyReason)}
    (hkeys : ∀ p, (t.withDefaultSubnet d).pool = .ok p →
      keyHosts (t.placedHosts p) = keyHosts' (t.placedHosts p)) :
    t.resolveBy keyHosts d = t.resolveBy keyHosts' d := by
  refine Except.bind_eq_bind fun p hp => ?_
  refine Except.bind_eq_bind fun seen _ => ?_
  refine Except.bind_eq_bind fun placed hplaced => ?_
  have hnormalized : placeHosts (p.claimDeclared (t.normalized d).hosts) (t.normalized d).hosts =
    .ok placed := hplaced
  rw [hosts_normalized] at hnormalized
  obtain ⟨-, rfl⟩ := placeHosts_trimmed.1 hnormalized
  simp only [hkeys p hp]

namespace Mesh

/-- The mesh of a topology and defaults, with all that is random taken from a stream. -/
def compileFrom (t : Topology) (d : Defaults) (s : ByteStream) : Except MeshError Mesh := do
  let r ← t.resolveBy (withUsableKeysFrom s) d
  return ⟨r.topology, r.subnet, r.rotations, d.persistentKeepalive⟩

/-- A mesh that is compiled from a stream is the one of some draws where both give the placed hosts
the same keys. -/
theorem compileFrom_eq_compile {t : Topology} {d : Defaults} {s : ByteStream} {draws : Draws}
    (hkeys : ∀ p, (t.withDefaultSubnet d).pool = .ok p → withUsableKeysFrom s (t.placedHosts p) =
      (t.placedHosts p).mapIdx fun i h => h.withUsableKeys (draws i)) :
    compileFrom t d s = compile t d draws :=
  congrArg (· >>= fun r : Resolved =>
    pure (Mesh.mk r.topology r.subnet r.rotations d.persistentKeepalive))
    (Topology.resolveBy_congr hkeys)

/-- A mesh that is compiled from a stream is the one of the draws that its hosts take of it. -/
theorem compileFrom_eq (t : Topology) (d : Defaults) (s : ByteStream) :
    compileFrom t d s = compile t d (drawsFrom s t.hosts) := by
  refine compileFrom_eq_compile fun p _ => ?_
  rw [withUsableKeysFrom_eq, drawsFrom_congr (t.map_shownKeys_placedHosts p)]

/-- A mesh of any draws is compiled from some stream. -/
theorem exists_compileFrom_eq (t : Topology) (d : Defaults) (draws : Draws) :
    ∃ s, compileFrom t d s = compile t d draws := by
  cases hp : (t.withDefaultSubnet d).pool with
  | error e =>
    refine ⟨Stream'.const 0, compileFrom_eq_compile fun p hp' => ?_⟩
    cases hp.symm.trans hp'
  | ok p =>
    obtain ⟨s, hs⟩ := exists_withUsableKeysFrom_eq draws (t.placedHosts p)
    refine ⟨s, compileFrom_eq_compile fun q hq => ?_⟩
    obtain rfl : q = p := Except.ok.inj (hq.symm.trans hp)
    exact hs

end Mesh

end TunnelMesh
