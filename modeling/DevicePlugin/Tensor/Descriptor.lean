import DevicePlugin.Text.Quoted

/-!
# Tensor descriptors

An element type and a shape. Sizes are counted in 64-bit words: a count that
does not fit at any point of the product has no answer.
-/

namespace DevicePlugin

inductive ElementType where
  | f32
  | f16
  | i32
  | i64
  | u8
  | boolean
  deriving DecidableEq, Repr

namespace ElementType

def all : List ElementType := [.f32, .f16, .i32, .i64, .u8, .boolean]

def width : ElementType → Nat
  | .f32 => 4
  | .f16 => 2
  | .i32 => 4
  | .i64 => 8
  | .u8 => 1
  | .boolean => 1

def key : ElementType → String
  | .f32 => "f32"
  | .f16 => "f16"
  | .i32 => "i32"
  | .i64 => "i64"
  | .u8 => "u8"
  | .boolean => "boolean"

def label : ElementType → String
  | .f32 => "F32"
  | .f16 => "F16"
  | .i32 => "I32"
  | .i64 => "I64"
  | .u8 => "U8"
  | .boolean => "Boolean"

def ofKey? (s : String) : Option ElementType := all.find? fun e => e.key = s

@[simp] theorem ofKey?_key (e : ElementType) : ofKey? e.key = some e := by
  cases e <;> decide

theorem width_pos (e : ElementType) : 0 < e.width := by
  cases e <;> decide

end ElementType

structure TensorDesc where
  elementType : ElementType
  shape : List UInt64
  deriving DecidableEq

/-- The product, if 64 bits hold it. -/
def wordProduct? (a b : Nat) : Option Nat :=
  if a * b < UInt64.size then some (a * b) else none

def shapeText (shape : List UInt64) : String :=
  Text.bracketed (shape.map fun d => d.toNat.repr)

namespace TensorDesc

/-- The dimensions multiplied from left to right. -/
def countFrom (count : Nat) : List UInt64 → Option Nat
  | [] => some count
  | d :: ds =>
    match wordProduct? count d.toNat with
    | some next => countFrom next ds
    | none => none

def elementCount (desc : TensorDesc) : Option Nat := countFrom 1 desc.shape

def byteSize (desc : TensorDesc) : Option Nat :=
  match desc.elementCount with
  | some count => wordProduct? count desc.elementType.width
  | none => none

def shown (desc : TensorDesc) : String := desc.elementType.label ++ shapeText desc.shape

end TensorDesc

end DevicePlugin
