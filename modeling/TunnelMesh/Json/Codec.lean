import TunnelMesh.Json.Draft
import TunnelMesh.Json.Value

/-!
# Codecs and record schemas

A `Codec` reads values of a type from drafts and writes them as JSON values. A `Schema` describes
a record once for both directions: its members in order, the other names under which each may be
given, which of them a document must give, and the record that stands for a document that gives
none. A record may be written with its members in any order or as the list of their values;
members that the schema does not know are skipped.

Every reader goes through a draft in the order of the text and stops at the first problem.
-/

namespace TunnelMesh.Json

/-- How the values of a type are read and written. -/
structure Codec (α : Type) where
  read : Draft → Except Defect α
  write : α → Value

namespace Codec

/-- Texts. -/
def text : Codec String where
  read
    | .text q => q.text
    | d => .error d.mismatch
  write := .text

/-- Truth values. -/
def bool : Codec Bool where
  read
    | .bool b => .ok b
    | d => .error d.mismatch
  write := .bool

/-- The natural number that a numeral without point, exponent and sign denotes, if it is below a
bound. -/
def readNatural (bound : Nat) (n : Numeral) : Except Defect Nat :=
  if n.isHuge then .error .malformed
  else if n.negative ∨ n.fraction ≠ [] ∨ n.exponent.isSome then .error .mismatched
  else if Decimal.value n.whole < bound then .ok (Decimal.value n.whole)
  else .error .mismatched

/-- Natural numbers of sixteen bits. -/
def uint16 : Codec UInt16 where
  read
    | .number n => (readNatural UInt16.size n).map UInt16.ofNat
    | d => .error d.mismatch
  write n := .number n.toNat

/-- Natural numbers of 32 bits. -/
def uint32 : Codec UInt32 where
  read
    | .number n => (readNatural UInt32.size n).map UInt32.ofNat
    | d => .error d.mismatch
  write n := .number n.toNat

/-- Values that may be `null`. -/
def option {α : Type} (c : Codec α) : Codec (Option α) where
  read
    | .null => .ok none
    | d => (c.read d).map some
  write
    | none => .null
    | some a => c.write a

/-- The values of the entries of a list, in order. -/
def readItems {α : Type} (read : Draft → Except Defect α) : List Draft → Except Defect (List α)
  | [] => .ok []
  | d :: ds => do
    let a ← read d
    let as ← readItems read ds
    return a :: as

/-- Lists. -/
def list {α : Type} (c : Codec α) : Codec (List α) where
  read
    | .list items defect => do
      let as ← readItems c.read items
      match defect with
      | none => .ok as
      | some d => .error d
    | d => .error d.mismatch
  write as := .list (as.map c.write)

/-! ## Names from a fixed set -/

/-- The value that a name stands for. -/
def readName {α : Type} (names : List (String × α)) (q : Quoted) : Except Defect α := do
  let name ← q.text
  match names.lookup name with
  | some a => .ok a
  | none => .error .mismatched

/-- Values that are given by name, or by a record whose only member has that name and the value
`null`. Any other value is looked at only so far as to see that it is neither a text nor a
record. -/
def named {α : Type} (names : List (String × α)) (nameOf : α → String) : Codec α where
  read
    | .text q => readName names q
    | .record [] ending =>
      .error <|
        match ending with
        | .closed => .malformed
        | .unclosed d | .nameless d => d
    | .record ((k, d) :: rest) ending => do
      let a ← readName names k
      match d with
      | .null =>
        match rest, ending with
        | [], .closed => .ok a
        | [], .unclosed d => .error d
        | _, _ => .error .malformed
      | d => .error d.mismatch
    | .broken f => .error f.atFirstSight
    | _ => .error .malformed
  write a := .text (nameOf a)

end Codec

/-! ## Records -/

/-- A member of a record of type `ρ`. -/
structure Field (ρ : Type) where
  /-- The name under which the member is written. -/
  name : String
  /-- The other names under which it is read. -/
  aliases : List String
  /-- A document has to give it. -/
  required : Bool
  /-- The record with the member that a draft gives. -/
  read : Draft → ρ → Except Defect ρ
  /-- The member's value, or nothing where it is left out. -/
  write : ρ → Option Value

namespace Field

/-- A name is one of the member's names. -/
def answersTo {ρ : Type} (f : Field ρ) (name : String) : Bool :=
  name == f.name || f.aliases.contains name

variable {ρ α : Type}

/-- A member that is always written. -/
def always (name : String) (aliases : List String) (required : Bool) (c : Codec α) (get : ρ → α)
    (set : α → ρ → ρ) : Field ρ where
  name := name
  aliases := aliases
  required := required
  read d r := (c.read d).map (set · r)
  write r := some (c.write (get r))

/-- A member that is left out, or `null`, where there is no value. -/
def optional (name : String) (c : Codec α) (get : ρ → Option α) (set : Option α → ρ → ρ) :
    Field ρ where
  name := name
  aliases := []
  required := false
  read d r := (c.option.read d).map (set · r)
  write r := (get r).map c.write

/-- A list that is left out where it is empty. -/
def entries (name : String) (c : Codec α) (get : ρ → List α) (set : List α → ρ → ρ) : Field ρ where
  name := name
  aliases := []
  required := false
  read d r := (c.list.read d).map (set · r)
  write r := if (get r).isEmpty then none else some (c.list.write (get r))

end Field

/-- A kind of record. -/
structure Schema (ρ : Type) where
  /-- The record of a document that gives no member. -/
  blank : ρ
  /-- The members in order. -/
  fields : List (Field ρ)

namespace Schema

variable {ρ : Type}

/-- The record that a list of values gives, one value for each member in order. Members for which
no value is left keep their blank, unless one is required. -/
def readItems : List (Field ρ) → List Draft → Option Defect → ρ → Except Defect ρ
  | [], [], none, r => .ok r
  | [], [], some d, _ => .error d
  | [], _ :: _, _, _ => .error .malformed
  | _ :: _, [], some d, _ => .error d
  | f :: fs, [], none, r => if f.required then .error .mismatched else readItems fs [] none r
  | f :: fs, d :: ds, defect, r => do
    let r ← f.read d r
    readItems fs ds defect r

/-- The position of the member that answers to a name. -/
def indexOf? (fields : List (Field ρ)) (name : String) : Option Nat :=
  fields.findIdx? (·.answersTo name)

/-- The record after some of its members, and the positions of the members seen so far. No member
is given twice. -/
def readMembers (fields : List (Field ρ)) :
    List (Quoted × Draft) → List Nat → ρ → Except Defect (List Nat × ρ)
  | [], seen, r => .ok (seen, r)
  | (k, d) :: ms, seen, r => do
    let name ← k.text
    match indexOf? fields name with
    | none =>
      match d.skip with
      | some e => .error e
      | none => readMembers fields ms seen r
    | some i =>
      if seen.contains i then .error .mismatched
      else
        match fields[i]? with
        | none => .error .mismatched
        | some f =>
          let r ← f.read d r
          readMembers fields ms (i :: seen) r

/-- All required members are among those seen. -/
def complete (fields : List (Field ρ)) (seen : List Nat) : Bool :=
  (fields.zipIdx).all fun (f, i) => !f.required || seen.contains i

/-- How records of the kind are read and written. -/
def codec (s : Schema ρ) : Codec ρ where
  read
    | .record members ending => do
      let (seen, r) ← readMembers s.fields members [] s.blank
      match ending with
      | .closed => if complete s.fields seen then .ok r else .error .mismatched
      | .unclosed d | .nameless d => .error d
    | .list items defect => readItems s.fields items defect s.blank
    | d => .error d.mismatch
  write r := .record (s.fields.filterMap fun f => (f.write r).map (f.name, ·))

end Schema

/-! ## Documents -/

/-- The value of a document. Only blanks may follow it. -/
def Codec.parse {α : Type} (c : Codec α) (s : String) : Except Defect α := do
  let (d, trailing) := draft s.toList
  let a ← c.read d
  if trailing then .error .malformed else .ok a

/-- The compact text of a value. -/
def Codec.compact {α : Type} (c : Codec α) (a : α) : String :=
  (c.write a).compact

/-- The pretty text of a value. -/
def Codec.pretty {α : Type} (c : Codec α) (a : α) : String :=
  (c.write a).pretty

end TunnelMesh.Json
