import OutpostPi.Lib.OrderedMap
import Mathlib.Algebra.Group.Nat.Defs
import Mathlib.Data.List.Forall2
import Mathlib.Data.List.GetD
import Mathlib.Logic.Relation

/-!
# JavaScript values

A JavaScript value as a program that inspects it sees it. Objects live in a heap and have an
identity, so that a value may be shared and may be cyclic; arrays may have holes and properties
beside their slots, and records may have symbols for keys and properties that are not
enumerable. Accessors and proxies are not described.
-/

set_option autoImplicit false

namespace OutpostPi.Lib

namespace Js

/-! ## Values and heaps -/

/-- A string is its UTF-16 code units, so that a lone surrogate is a string. -/
abbrev Str := List UInt16

/-- The code units of a literal. -/
def units (text : String) : Str :=
  text.toList.flatMap fun c =>
    if c.toNat < 0x10000 then [c.toNat.toUInt16]
    else
      [(0xD800 + (c.toNat - 0x10000) / 0x400).toUInt16,
        (0xDC00 + (c.toNat - 0x10000) % 0x400).toUInt16]

/-- A number. A finite one is a rational, apart from the zero of negative sign. -/
inductive Number
  | nan
  | infinity (negative : Bool)
  | negativeZero
  | finite (value : Rat)
  deriving DecidableEq

/-- A value. Everything with an identity is named by a number. -/
inductive Value
  | undefined
  | null
  | boolean (value : Bool)
  | number (value : Number)
  | string (text : Str)
  | symbol (id : Nat)
  | bigint (value : Int)
  | function (id : Nat)
  | object (id : Nat)
  deriving DecidableEq

inductive PropertyKey
  | string (text : Str)
  | symbol (id : Nat)
  deriving DecidableEq

/-- An own data property. -/
structure Property where
  value : Value
  enumerable : Bool
  deriving DecidableEq

/-- The own properties of an object. -/
abbrev Properties := OrderedMap PropertyKey Property

inductive Prototype
  | objectPrototype
  | null
  | other
  deriving DecidableEq

/-- What an object holds: the slots of an array, a hole being `none`, with its further own
properties, or the prototype and the own properties of another object. -/
inductive Object
  | array (slots : List (Option Value)) (others : Properties)
  | record (prototype : Prototype) (properties : Properties)

abbrev Heap := List Object

/-- The object of an identity. One that is not in the heap is an instance of a class. -/
def Heap.read (heap : Heap) (id : Nat) : Object :=
  heap.getD id (.record .other .empty)

/-- A property that is absent reads as `undefined`. -/
def Properties.read (properties : Properties) (key : Str) : Value :=
  ((properties.get? (.string key)).map Property.value).getD .undefined

end Js

end OutpostPi.Lib
