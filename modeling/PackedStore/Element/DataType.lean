/-
This file holds a catalogue of types: numbers of fixed width, arrays of them and
records with named fields. It says how large each type is and how it is aligned,
how its values are hashed when it serves as a key type, and how a value is listed
as text. Every number is stored with the least significant byte first.
-/

import PackedStore.Decimal.FloatText
import PackedStore.Element.Basic

namespace PackedStore

/-! ### Numbers -/

/-- What the bits of a number mean. -/
inductive NumberKind where
  | unsigned
  | signed
  | float
deriving DecidableEq, Repr

/-- A number of a fixed width. -/
structure Scalar where
  kind : NumberKind
  /-- Width in bytes, also the alignment. -/
  size : Nat
deriving DecidableEq, Repr

namespace Scalar

/-- A letter for the kind and the width in bits. -/
def name (scalar : Scalar) : String :=
  let letter := match scalar.kind with
    | .unsigned => "u"
    | .signed => "i"
    | .float => "f"
  letter ++ toString (8 * scalar.size)

/-- The numbers that values are made of. -/
def all : List Scalar :=
  [1, 2, 4, 8, 16].map (⟨.unsigned, ·⟩) ++ [1, 2, 4, 8, 16].map (⟨.signed, ·⟩) ++
    [4, 8].map (⟨.float, ·⟩)

/-- The integer that a bit pattern means, with a sign bit where the kind has one. -/
def toInt (scalar : Scalar) (bits : Nat) : Int :=
  match scalar.kind with
  | .signed => Int.bmod bits (2 ^ (8 * scalar.size))
  | _ => bits

/-- A number as it is listed. -/
def text (scalar : Scalar) (bits : Nat) : String :=
  match scalar.kind with
  | .float => Decimal.floatText (if scalar.size = 4 then .binary32 else .binary64) bits
  | _ => toString (scalar.toInt bits)

/-- Absorbs a number as one word per eight bytes, the low word first. -/
def absorb (scalar : Scalar) (bits : Nat) (hash : WordHash) : WordHash :=
  let low := hash.word (UInt64.ofNat bits)
  if 8 < scalar.size then low.word (UInt64.ofNat (bits / 2 ^ 64)) else low

end Scalar

/-! ### Types -/

/-- A type of fixed-size values made of numbers. -/
inductive DataType where
  | number (scalar : Scalar)
  | array (element : Scalar) (count : Nat)
  | record (name : String) (fields : List (String × Scalar)) (align : Nat)
deriving DecidableEq, Repr

namespace DataType

/-- Two numbers of eight bytes. -/
def large : DataType :=
  .record "Large" [("a", ⟨.unsigned, 8⟩), ("b", ⟨.unsigned, 8⟩)] 8

/-- Two numbers of eight bytes, aligned to sixteen. -/
def wide : DataType :=
  .record "Wide" [("a", ⟨.unsigned, 8⟩), ("b", ⟨.unsigned, 8⟩)] 16

/-- Four numbers of eight bytes with an alignment that no container supports. -/
def align32 : DataType :=
  .record "Align32" (["0", "1", "2", "3"].map (·, ⟨.unsigned, 8⟩)) 32

/-- The type of the one value without bytes. -/
def unit : DataType :=
  .record "()" [] 1

/-- The name of the type in messages. -/
def name : DataType → String
  | .number scalar => scalar.name
  | .array element count => s!"[{element.name}; {count}]"
  | .record name _ _ => name

/-- The numbers that a value consists of, in order. -/
def scalars : DataType → List Scalar
  | .number scalar => [scalar]
  | .array element count => List.replicate count element
  | .record _ fields _ => fields.map (·.2)

/-- Byte offsets of values are multiples of this. -/
def align : DataType → Nat
  | .number scalar => scalar.size
  | .array element _ => element.size
  | .record _ _ align => align

/-- What a container has to know about the type. -/
def element (type : DataType) : ElementType :=
  .named type.name (type.scalars.map (·.size)).sum type.align

/-- The bit patterns of consecutive numbers. -/
def bitsOf : List Scalar → List UInt8 → List (Scalar × Nat)
  | [], _ => []
  | scalar :: rest, bytes =>
    (scalar, Bytes.toNat (bytes.take scalar.size)) :: bitsOf rest (bytes.drop scalar.size)

/-- The numbers of a value with their bit patterns. -/
def parts (type : DataType) (bytes : Bytes) : List (Scalar × Nat) :=
  bitsOf type.scalars bytes.toList

/-- Absorbs a value: numbers and fields word by word, arrays as a sequence of bytes. -/
def absorb (type : DataType) (bytes : Bytes) (hash : WordHash) : WordHash :=
  match type with
  | .array _ count => hash.sequence count bytes
  | _ => (type.parts bytes).foldl (fun state part => part.1.absorb part.2 state) hash

/-- The type as a type of keys. -/
def key (type : DataType) : KeyType where
  toElementType := type.element
  hash bytes := (type.absorb bytes .start).finish

/-- A value as it is listed: a number, numbers in brackets, or fields in braces. -/
def text (type : DataType) (bytes : Bytes) : String :=
  let texts := (type.parts bytes).map fun part => part.1.text part.2
  match type with
  | .number _ => ", ".intercalate texts
  | .array _ _ => "[" ++ ", ".intercalate texts ++ "]"
  | .record name fields _ =>
    if fields.isEmpty then name
    else
      let named := (fields.zip texts).map fun entry => entry.1.1 ++ ": " ++ entry.2
      name ++ " \x7b " ++ ", ".intercalate named ++ " \x7d"

/-- The records that have a name of their own. -/
def named : List DataType :=
  [large, wide, align32, unit]

/-- The type with a given name: a number, a named record, or an array such as `[u8; 3]`. -/
def ofName? (name : String) : Option DataType :=
  let scalarNamed (name : String) := Scalar.all.find? (·.name == name)
  match scalarNamed name with
  | some scalar => some (.number scalar)
  | none =>
    match named.find? (·.name == name) with
    | some type => some type
    | none =>
      match name.splitOn "; " with
      | [opening, closing] => do
        let element ← scalarNamed (String.ofList (opening.toList.drop 1))
        let count ← (String.ofList closing.toList.dropLast).toNat?
        let type := DataType.array element count
        if type.name = name then some type else none
      | _ => none

end DataType

end PackedStore
