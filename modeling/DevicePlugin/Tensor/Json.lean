import DevicePlugin.Json.Decode
import DevicePlugin.Json.Value
import DevicePlugin.Tensor.Descriptor

/-!
# Descriptors in JSON
-/

namespace DevicePlugin

open Json (Tree Fault Decoder)

namespace ElementType

def decode : Decoder ElementType :=
  let known (name : String) : Except Fault ElementType :=
    match ofKey? name with
    | some e => .ok e
    | none => .error .mistyped
  Tree.asVariant known fun name => (known name).map fun e tree => tree.asNull.map fun _ => e

end ElementType

namespace TensorDesc

structure Found where
  elementType : Option ElementType := none
  shape : Option (List UInt64) := none

def fields : List (Tree.Field Found) :=
  [{ name := "element_type"
     isSet := fun p => p.elementType.isSome
     read := fun p tree => (ElementType.decode tree).map fun e => { p with elementType := some e } },
   { name := "shape"
     isSet := fun p => p.shape.isSome
     read := fun p tree => (tree.asList Tree.asWord).map fun s => { p with shape := some s } }]

def decode : Decoder TensorDesc := fun tree =>
  match tree.asRecord fields {} with
  | .error fault => .error fault
  | .ok { elementType := some elementType, shape := some shape } => .ok ⟨elementType, shape⟩
  | .ok _ => .error .mistyped

def toJson (desc : TensorDesc) : Json.Value :=
  .object [("element_type", .text desc.elementType.key), ("shape", .array (desc.shape.map .natural))]

end TensorDesc

end DevicePlugin
