import Mathlib
import TunnelMesh.Key
import TunnelMesh.Proofs.Curve.Completeness
import TunnelMesh.Proofs.Text.Base64

/-!
# Key texts

A key is read back from its text (`PrivateKey.parse_text`, `PublicKey.parse_text`), and from no
other one but for blanks around it (`Key.decode_eq_ok`), so the keys that are told apart are those
whose texts are (`Key.texts_canonical`). Two texts agree whenever the public one
denotes the point of the private one (`KeyPair.agree_of_denoteOnePoint`), so the texts of a new pair
agree whatever is drawn (`KeyPair.agree_fresh`), and so do those of any private key and its public
key (`KeyPair.signatures_accepted`).
-/

namespace TunnelMesh

namespace Key

/-- Blanks around a key's text do not count. -/
@[simp] theorem decode_trim (s : String) : decode (Text.trim s) = decode s := by
  rw [decode, decode, Text.trim_trim]

/-- The bytes of a key are read back from its text. -/
theorem decode_encode (key : Octets 32) : decode (Base64.encode key.val) = .ok key := by
  rw [decode, Base64.trim_encode, Base64.decode_encode]
  simp [Octets.ofList?, key.property]

/-- A key is read from its text only, with any blanks around it. -/
theorem decode_eq_ok {s : String} {key : Octets 32} :
    decode s = .ok key ↔ Text.trim s = Base64.encode key.val := by
  constructor
  · intro h
    rw [decode] at h
    cases hbytes : Base64.decode (Text.trim s) with
    | error d =>
      rw [hbytes] at h
      cases h
    | ok bs =>
      by_cases hlen : bs.length = 32
      · simp only [hbytes, Octets.ofList?, hlen, dite_true, Except.ok.injEq] at h
        rw [← h]
        exact Base64.decode_eq_ok.1 hbytes
      · simp [hbytes, Octets.ofList?, hlen] at h
  · intro h
    rw [← decode_trim, h, decode_encode]

/-- The text of a key is not blank. -/
theorem not_isBlankText_encode (key : Octets 32) :
    Text.isBlankText (Base64.encode key.val) = false := by
  refine Base64.not_isBlankText_encode fun h => ?_
  have := key.property
  simp [h] at this

/-- The text of a key is a setting that is shown as it is. -/
theorem nonBlank_encode (key : Octets 32) :
    Text.nonBlank (some (Base64.encode key.val)) = some (Base64.encode key.val) :=
  Text.nonBlank_some_of_trim (not_isBlankText_encode key) (Base64.trim_encode key.val)

/-- A text is well-formed just when it is read as the bytes of a key. -/
theorem isWellFormed_iff {s : String} : isWellFormed s = true ↔ ∃ key, decode s = .ok key := by
  rw [isWellFormed]
  cases decode s <;> simp

/-- A text is well-formed just when it is read as a private key. -/
theorem isWellFormed_eq_isOk_private (s : String) :
    isWellFormed s = (PrivateKey.parse s).isOk := by
  rw [isWellFormed, PrivateKey.parse]
  cases decode s <;> rfl

/-- A text is well-formed just when it is read as a public key. -/
theorem isWellFormed_eq_isOk_public (s : String) :
    isWellFormed s = (PublicKey.parse s).isOk := by
  rw [isWellFormed, PublicKey.parse]
  cases decode s <;> rfl

/-- A blank text is no key. -/
theorem not_isBlankText_of_decode {s : String} {key : Octets 32} (h : decode s = .ok key) :
    Text.isBlankText s = false := by
  have hempty : decode "" = .error (.invalidKeyLength 0) := by decide
  cases hblank : Text.isBlankText s with
  | false => rfl
  | true =>
    rw [← decode_trim, Text.trim_eq_empty.2 hblank, hempty] at h
    cases h

end Key

/-- Private keys are read as their bytes are. -/
theorem PrivateKey.parse_eq_ok {s : String} {k : PrivateKey} :
    PrivateKey.parse s = .ok k ↔ Key.decode s = .ok k.bytes := by
  obtain ⟨bytes⟩ := k
  rw [PrivateKey.parse]
  cases Key.decode s <;> simp [Except.map]

/-- Public keys are read as their bytes are. -/
theorem PublicKey.parse_eq_ok {s : String} {k : PublicKey} :
    PublicKey.parse s = .ok k ↔ Key.decode s = .ok k.bytes := by
  obtain ⟨bytes⟩ := k
  rw [PublicKey.parse]
  cases Key.decode s <;> simp [Except.map]

/-- Blanks around a private key's text do not count. -/
theorem PrivateKey.parse_trim (s : String) :
    PrivateKey.parse (Text.trim s) = PrivateKey.parse s := by
  rw [PrivateKey.parse, PrivateKey.parse, Key.decode_trim]

/-- A private key is read back from its text. -/
theorem PrivateKey.parse_text (k : PrivateKey) : PrivateKey.parse k.text = .ok k :=
  PrivateKey.parse_eq_ok.2 (Key.decode_encode k.bytes)

/-- A public key is read back from its text. -/
theorem PublicKey.parse_text (k : PublicKey) : PublicKey.parse k.text = .ok k :=
  PublicKey.parse_eq_ok.2 (Key.decode_encode k.bytes)

/-! ## One text for each key -/

namespace Key

/-- Keys of a kind are read from the texts of their bytes, with any blanks around them, and from no
other texts. -/
structure Canonical {K : Type} (parse : String → Except MeshError K) (bytes : K → Octets 32) :
    Prop where
  parse_padded : ∀ (key : Octets 32) (t : String), Text.Padded t (Base64.encode key.val) →
    ∃ k, parse t = .ok k ∧ bytes k = key
  trim_eq : ∀ (t : String) (k : K), parse t = .ok k → Text.trim t = Base64.encode (bytes k).val
  isWellFormed_iff : ∀ t : String, isWellFormed t = true ↔ ∃ k, parse t = .ok k
  /-- Two texts of keys denote one key just when they differ in blanks at their ends only. -/
  eq_iff : ∀ (t t' : String) (k k' : K), parse t = .ok k → parse t' = .ok k' →
    (k = k' ↔ Text.trim t = Text.trim t')

/-- A text denotes a key just when it is the text of the key with blanks around it. -/
theorem decode_eq_ok_iff_padded {t : String} {key : Octets 32} :
    decode t = .ok key ↔ Text.Padded t (Base64.encode key.val) := by
  rw [decode_eq_ok, Text.trim_eq_iff_padded (Base64.trim_encode _)]

/-- Keys that are told by their bytes are read canonically. -/
theorem canonical_of_parse_eq_ok {K : Type} {parse : String → Except MeshError K}
    {bytes : K → Octets 32} (hparse : ∀ t k, parse t = .ok k ↔ decode t = .ok (bytes k))
    (hbytes : Function.Bijective bytes) : Canonical parse bytes where
  parse_padded key t hpadded := by
    obtain ⟨k, rfl⟩ := hbytes.surjective key
    exact ⟨k, (hparse t k).2 (decode_eq_ok_iff_padded.2 hpadded), rfl⟩
  trim_eq t k hread := decode_eq_ok.1 ((hparse t k).1 hread)
  isWellFormed_iff t := by
    rw [isWellFormed_iff]
    constructor
    · rintro ⟨key, hkey⟩
      obtain ⟨k, rfl⟩ := hbytes.surjective key
      exact ⟨k, (hparse t k).2 hkey⟩
    · rintro ⟨k, hread⟩
      exact ⟨bytes k, (hparse t k).1 hread⟩
  eq_iff t t' k k' hread hread' := by
    have htext := decode_eq_ok.1 ((hparse t k).1 hread)
    constructor
    · rintro rfl
      rw [htext, decode_eq_ok.1 ((hparse t' k).1 hread')]
    · intro htrim
      have hsame : decode t' = .ok (bytes k) := decode_eq_ok.2 (htrim ▸ htext)
      rw [(hparse t' k').1 hread', Except.ok.injEq] at hsame
      exact hbytes.injective hsame.symm

/-- Private and public keys are read from one text each, but for blanks around it, and a text is
well-formed just when it is the text of some key with blanks around it. -/
theorem texts_canonical : Canonical PrivateKey.parse PrivateKey.bytes ∧
    Canonical PublicKey.parse PublicKey.bytes ∧
      ∀ t : String, isWellFormed t = true ↔
        ∃ key : Octets 32, Text.Padded t (Base64.encode key.val) := by
  have hprivate : Function.Bijective PrivateKey.bytes :=
    Function.bijective_iff_has_inverse.2 ⟨PrivateKey.mk, fun _ => rfl, fun _ => rfl⟩
  have hpublic : Function.Bijective PublicKey.bytes :=
    Function.bijective_iff_has_inverse.2 ⟨PublicKey.mk, fun _ => rfl, fun _ => rfl⟩
  refine ⟨canonical_of_parse_eq_ok (fun _ _ => PrivateKey.parse_eq_ok) hprivate,
    canonical_of_parse_eq_ok (fun _ _ => PublicKey.parse_eq_ok) hpublic, fun t => ?_⟩
  rw [isWellFormed_iff]
  exact exists_congr fun key => decode_eq_ok_iff_padded

/-- The text of thirty-two zeros, but with a bit set that no byte uses, or without its padding. -/
example : isWellFormed "AAAAAAAAAAAAAAAAAAAAAAAAAAAAAAAAAAAAAAAAAAA=" = true ∧
    isWellFormed "AAAAAAAAAAAAAAAAAAAAAAAAAAAAAAAAAAAAAAAAAAB=" = false ∧
      isWellFormed "AAAAAAAAAAAAAAAAAAAAAAAAAAAAAAAAAAAAAAAAAAA" = false := by
  decide

end Key

/-! ## Pairs -/

/-- A private key's text has a public key just when it is read as a key. -/
theorem publicTextFor_eq_ok {text out : String} : publicTextFor text = .ok out ↔
    ∃ q, PrivateKey.parse text = .ok q ∧ q.publicKey.text = out := by
  rw [publicTextFor]
  cases PrivateKey.parse text <;> simp [Except.map]

namespace KeyPair

/-- The public text names the point that belongs to the private text. -/
def denoteOnePoint (privateText publicText : String) : Bool :=
  match PrivateKey.parse privateText, PublicKey.parse publicText with
  | .ok k, .ok p => Curve.Point.ofU? p.bytes == Curve.Point.ofU? k.publicKey.bytes
  | _, _ => false

/-- When two texts denote one point. -/
theorem denoteOnePoint_eq_true {privateText publicText : String} :
    denoteOnePoint privateText publicText = true ↔
      ∃ k p, PrivateKey.parse privateText = .ok k ∧ PublicKey.parse publicText = .ok p ∧
        Curve.Point.ofU? p.bytes = Curve.Point.ofU? k.publicKey.bytes := by
  rw [denoteOnePoint]
  cases PrivateKey.parse privateText <;> cases PublicKey.parse publicText <;> simp

/-- Two texts are read as keys, and what is drawn as a probe is signed with the private key so that
the public key accepts it. -/
def Accepts (d : Draw) (privateText publicText : String) : Prop :=
  ∃ k p, PrivateKey.parse privateText = .ok k ∧ PublicKey.parse publicText = .ok p ∧
    p.verify d.probe.val (k.sign d.probe.val d.nonce) = true

/-- Two texts agree just when both are read as keys and the signature of the probe is accepted. -/
theorem agree_eq_true {d : Draw} {privateText publicText : String} :
    agree d privateText publicText = true ↔ Accepts d privateText publicText := by
  rw [agree, Accepts]
  cases PrivateKey.parse privateText <;> cases PublicKey.parse publicText <;> simp

instance (d : Draw) (privateText publicText : String) :
    Decidable (Accepts d privateText publicText) :=
  decidable_of_iff (agree d privateText publicText = true) agree_eq_true

/-- Blanks around two texts do not count. -/
theorem agree_trim (d : Draw) (privateText publicText : String) :
    agree d (Text.trim privateText) (Text.trim publicText) = agree d privateText publicText := by
  simp only [agree, PrivateKey.parse, PublicKey.parse, Key.decode_trim]

/-- Texts that agree are both read as keys. -/
theorem isWellFormed_of_agree {d : Draw} {privateText publicText : String}
    (h : agree d privateText publicText = true) :
    Key.isWellFormed privateText = true ∧ Key.isWellFormed publicText = true := by
  obtain ⟨k, p, hk, hp, -⟩ := agree_eq_true.1 h
  exact ⟨Key.isWellFormed_iff.2 ⟨_, PrivateKey.parse_eq_ok.1 hk⟩,
    Key.isWellFormed_iff.2 ⟨_, PublicKey.parse_eq_ok.1 hp⟩⟩

/-- Texts that denote one point agree, whatever is drawn. -/
theorem agree_of_denoteOnePoint {privateText publicText : String}
    (h : denoteOnePoint privateText publicText = true) (d : Draw) :
    agree d privateText publicText = true := by
  obtain ⟨k, p, hk, hp, hpoint⟩ := denoteOnePoint_eq_true.1 h
  exact agree_eq_true.2 ⟨k, p, hk, hp, Curve.verify_sign hpoint d.probe.val d.nonce⟩

/-- The texts of a private key and its public key denote one point. -/
theorem denoteOnePoint_ofPrivate (k : PrivateKey) :
    denoteOnePoint (ofPrivate k).privateKey.text (ofPrivate k).publicKey.text = true := by
  simp [denoteOnePoint, PrivateKey.parse_text, PublicKey.parse_text, ofPrivate]

/-- A public text is the one that belongs to a private text, but for blanks around both. -/
def Matches (privateText publicText : String) : Prop :=
  ∃ q, PrivateKey.parse privateText = .ok q ∧ q.publicKey.text = Text.trim publicText

/-- A private text and the public text that belongs to it denote one point. -/
theorem Matches.denoteOnePoint {privateText publicText : String}
    (h : Matches privateText publicText) : denoteOnePoint privateText publicText = true := by
  obtain ⟨q, hq, hpublic⟩ := h
  have hread : Key.decode publicText = .ok q.publicKey.bytes := by
    rw [← Key.decode_trim, ← hpublic]
    exact Key.decode_encode _
  exact denoteOnePoint_eq_true.2 ⟨q, q.publicKey, hq, PublicKey.parse_eq_ok.2 hread, rfl⟩

/-- The texts of a new pair agree, whatever is drawn to probe them. -/
theorem agree_fresh (d probe : Draw) :
    agree probe (fresh d).privateKey.text (fresh d).publicKey.text = true :=
  agree_of_denoteOnePoint (denoteOnePoint_ofPrivate ⟨d.key⟩) probe

/-- Whatever the bytes of a private key are, all its signatures are accepted under its public key.
So the public text of a private key's text agrees with it, whatever is drawn to probe them. -/
theorem signatures_accepted :
    (∀ (k : PrivateKey) (message : List UInt8) (nonce : Octets 64),
      k.publicKey.verify message (k.sign message nonce) = true) ∧
    ∀ privateText, Key.isWellFormed privateText = true →
      ∃ publicText, publicTextFor privateText = .ok publicText ∧
        ∀ d, agree d privateText publicText = true := by
  constructor
  · intro k message nonce
    exact Curve.verify_sign rfl message nonce
  · intro privateText hformed
    obtain ⟨key, hkey⟩ := Key.isWellFormed_iff.1 hformed
    have hread : PrivateKey.parse privateText = .ok ⟨key⟩ := PrivateKey.parse_eq_ok.2 hkey
    have hmatches : Matches privateText (PrivateKey.mk key).publicKey.text :=
      ⟨_, hread, (Base64.trim_encode _).symm⟩
    exact ⟨_, publicTextFor_eq_ok.2 ⟨_, hread, rfl⟩,
      agree_of_denoteOnePoint hmatches.denoteOnePoint⟩

/-- The text of a private key with blanks around it. -/
def paddedText : String :=
  " oKcbRtbaw+wooOQ6dxe5/5yvfjht9yc13YA/SJEXfmQ=\n"

/-- A text with blanks around it, whose pair agrees whatever is drawn. -/
theorem signatures_accepted_paddedText : Key.isWellFormed paddedText = true ∧
    ∃ publicText, publicTextFor paddedText = .ok publicText ∧
      ∀ d, agree d paddedText publicText = true := by
  have hformed : Key.isWellFormed paddedText = true := by decide
  exact ⟨hformed, signatures_accepted.2 paddedText hformed⟩

end KeyPair

end TunnelMesh
