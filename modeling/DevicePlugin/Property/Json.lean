import DevicePlugin.Json.Decode
import DevicePlugin.Json.Value
import DevicePlugin.Property.Untyped

/-!
# Properties in JSON

A value is written without a mark of its kind, and read like any document.
-/

namespace DevicePlugin

open Json (Tree Fault)

namespace PropertyName

def toJson (p : PropertyName) : Json.Value :=
  .object [("name", .text p.name), ("mutability", .text p.mutability.key)]

end PropertyName

namespace PropertyValue

def toJson : PropertyValue → Json.Value
  | .bool value => .bool value
  | .uint value => .natural value
  | .int value => if 0 ≤ value.toInt then .natural (UInt64.ofNat value.toInt.toNat) else .negative value
  | .text s => .text s
  | .texts items => .array (items.map .text)
  | .names items => .array (items.map PropertyName.toJson)

/-- How many containers may be open at a time. -/
def depthLimit : Nat := 127

def decode : Json.Decoder PropertyValue := fun tree =>
  match tree.whole depthLimit with
  | .error fault => .error fault
  | .ok whole =>
    match ofUntyped? whole with
    | some value => .ok value
    | none => .error .mistyped

end PropertyValue

namespace PropertyMap

def toJson (properties : PropertyMap) : Json.Value :=
  .object (properties.map PropertyValue.toJson).entries

def decode : Json.Decoder PropertyMap :=
  Tree.asMembers (fun properties key value => do
    let value ← PropertyValue.decode value
    return properties.insert key value) Dict.empty

/-- Reads a JSON text; a repeated key keeps its last value. -/
def ofJson (text : Bytes) : Except Fault PropertyMap := Json.decode decode text

end PropertyMap

end DevicePlugin
