import DevicePlugin.Property.Value
import DevicePlugin.Untyped

/-!
# Properties in documents

A document does not mark the kind of a property value: it is read as the first
kind whose form it has. These are a flag, an unsigned number, a negative number,
text, a list of texts, and a list of property names.
-/

namespace DevicePlugin

namespace Mutability

/-- A key of a mapping with one member: the spelling, or the number of the variant. -/
def ofVariant? : Untyped → Option Mutability
  | .text s => ofKey? s
  | .uint 0 => some .readOnly
  | .uint 1 => some .readWrite
  | _ => none

/-- The spelling alone, or a key of `null`. -/
def ofUntyped? : Untyped → Option Mutability
  | .text s => ofKey? s
  | .mapping [(key, .null)] => ofVariant? key
  | _ => none

end Mutability

namespace PropertyName

inductive Field where
  | name
  | mutability
  | other

def Field.ofKey? : Untyped → Option Field
  | .text s => some (if s = "name" then .name else if s = "mutability" then .mutability else .other)
  | .uint n => some (if n = 0 then .name else if n = 1 then .mutability else .other)
  | _ => none

structure Found where
  name : Option String := none
  mutability : Option Mutability := none

/-- Members in any order, unknown ones ignored, known ones not repeated. -/
def ofMembers? : Found → List (Untyped × Untyped) → Option PropertyName
  | found, [] =>
    match found.name, found.mutability with
    | some name, some mutability => some ⟨name, mutability⟩
    | _, _ => none
  | found, (key, value) :: members =>
    match Field.ofKey? key with
    | none => none
    | some .other => ofMembers? found members
    | some .name =>
      match found.name, value with
      | none, .text name => ofMembers? { found with name } members
      | _, _ => none
    | some .mutability =>
      match found.mutability, Mutability.ofUntyped? value with
      | none, some mutability => ofMembers? { found with mutability } members
      | _, _ => none

/-- A mapping, or a list of the two parts. -/
def ofUntyped? : Untyped → Option PropertyName
  | .mapping members => ofMembers? {} members
  | .list [.text name, mutability] => (Mutability.ofUntyped? mutability).map (⟨name, ·⟩)
  | _ => none

end PropertyName

namespace PropertyValue

def textOfUntyped? : Untyped → Option String
  | .text s => some s
  | _ => none

/-- The first kind that a value has the form of. -/
def ofUntyped? : Untyped → Option PropertyValue
  | .bool value => some (.bool value)
  | .uint value => some (.uint value)
  | .int value => some (if 0 ≤ value.toInt then .uint (UInt64.ofNat value.toInt.toNat) else .int value)
  | .text s => some (.text s)
  | .list items =>
    match items.mapM textOfUntyped? with
    | some items => some (.texts items)
    | none => (items.mapM PropertyName.ofUntyped?).map .names
  | _ => none

end PropertyValue

end DevicePlugin
