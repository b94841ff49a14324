import DevicePlugin.Dict
import DevicePlugin.Text.Numeral
import DevicePlugin.Text.Quoted

/-!
# Property values

What a property may be set to or answer: a flag, a number, text, a list of
texts, or a list of property names. The coercions accept text where a host
would write a flag or a number as text.
-/

namespace DevicePlugin

inductive Mutability where
  | readOnly
  | readWrite
  deriving DecidableEq, Repr

structure PropertyName where
  name : String
  mutability : Mutability
  deriving DecidableEq, Repr

/-- Unsigned and signed numbers are different values, whatever their amount. -/
inductive PropertyValue where
  | bool (value : Bool)
  | uint (value : UInt64)
  | int (value : Int64)
  | text (value : String)
  | texts (values : List String)
  | names (values : List PropertyName)
  deriving DecidableEq

namespace Mutability

def key : Mutability → String
  | .readOnly => "read_only"
  | .readWrite => "read_write"

def ofKey? (s : String) : Option Mutability :=
  if s = "read_only" then some .readOnly
  else if s = "read_write" then some .readWrite
  else none

def label : Mutability → String
  | .readOnly => "ReadOnly"
  | .readWrite => "ReadWrite"

@[simp] theorem ofKey?_key (m : Mutability) : ofKey? m.key = some m := by
  cases m <;> rfl

end Mutability

namespace PropertyName

def readOnly (name : String) : PropertyName := ⟨name, .readOnly⟩

def readWrite (name : String) : PropertyName := ⟨name, .readWrite⟩

def isMutable (p : PropertyName) : Bool := p.mutability = .readWrite

def shown (p : PropertyName) : String :=
  "PropertyName \x7b name: " ++ Text.quoted p.name ++ ", mutability: " ++ p.mutability.label ++ " \x7d"

end PropertyName

namespace PropertyValue

/-- `YES`, `TRUE`, `NO` and `FALSE` in any ASCII case count as flags. -/
def flagOfText? (s : String) : Option Bool :=
  let upper := s.toList.map Char.toUpper
  if upper = "YES".toList ∨ upper = "TRUE".toList then some true
  else if upper = "NO".toList ∨ upper = "FALSE".toList then some false
  else none

def asBool? : PropertyValue → Option Bool
  | .bool value => some value
  | .text s => flagOfText? s
  | _ => none

/-- A whole number of 64 bits, also one written as text. -/
def asNat? : PropertyValue → Option Nat
  | .uint value => some value.toNat
  | .int value => if 0 ≤ value.toInt then some value.toInt.toNat else none
  | .text s => Text.numeralBelow? UInt64.size s
  | _ => none

def asText? : PropertyValue → Option String
  | .text s => some s
  | _ => none

def asTexts? : PropertyValue → Option (List String)
  | .texts items => some items
  | _ => none

def asNames? : PropertyValue → Option (List PropertyName)
  | .names items => some items
  | _ => none

def shown : PropertyValue → String
  | .bool value => "Bool(" ++ (if value then "true" else "false") ++ ")"
  | .uint value => "UInt(" ++ value.toNat.repr ++ ")"
  | .int value => "Int(" ++ value.toInt.repr ++ ")"
  | .text s => "Str(" ++ Text.quoted s ++ ")"
  | .texts items => "StrList(" ++ Text.bracketed (items.map Text.quoted) ++ ")"
  | .names items => "Names(" ++ Text.bracketed (items.map PropertyName.shown) ++ ")"

def ofNat32 (n : UInt32) : PropertyValue := .uint n.toUInt64

end PropertyValue

abbrev PropertyMap := Dict PropertyValue

end DevicePlugin
