import DevicePlugin.Graph.Model
import DevicePlugin.Stream.Blob
import DevicePlugin.Tensor.Json

/-!
# Models taken apart

A model is written as a JSON document and one block of constants. The document
names, for every node with data, the slice of the block that holds it. Slices
are laid out in the order of the nodes, without gaps.
-/

namespace DevicePlugin

open Json (Tree Decoder)

structure Slice where
  offset : UInt64
  size : UInt64
  deriving DecidableEq

structure NodeRecord where
  id : NodeId
  name : String
  kind : NodeKind
  inputs : List NodeId
  desc : TensorDesc
  attributes : Dict String
  slice : Option Slice
  deriving DecidableEq

structure ModelRecord where
  friendlyName : String
  nodes : List NodeRecord
  deriving DecidableEq

/-! ## Writing the document -/

def NodeKind.toJson : NodeKind → Json.Value
  | .parameter => .text "parameter"
  | .constant => .text "constant"
  | .result => .text "result"
  | .operation type => .object [("operation", .text type)]

def Slice.toJson (s : Slice) : Json.Value :=
  .object [("offset", .natural s.offset), ("size", .natural s.size)]

/-- Empty inputs, empty attributes and a missing slice are left out. -/
def NodeRecord.toJson (r : NodeRecord) : Json.Value :=
  .object <|
    [("id", .natural r.id), ("name", .text r.name), ("kind", r.kind.toJson)] ++
    (if r.inputs = [] then [] else [("inputs", .array (r.inputs.map .natural))]) ++
    [("output", r.desc.toJson)] ++
    (if r.attributes.entries = [] then []
      else [("attributes", .object (r.attributes.map Json.Value.text).entries)]) ++
    (match r.slice with
      | none => []
      | some slice => [("constant", slice.toJson)])

def ModelRecord.toJson (r : ModelRecord) : Json.Value :=
  .object [("friendly_name", .text r.friendlyName), ("nodes", .array (r.nodes.map NodeRecord.toJson))]

/-! ## Reading the document -/

namespace NodeKind

/-- The kinds that are written as a name alone. -/
def ofKey? (name : String) : Option NodeKind :=
  if name = "parameter" then some .parameter
  else if name = "constant" then some .constant
  else if name = "result" then some .result
  else none

def decode : Decoder NodeKind :=
  Tree.asVariant
    (fun name =>
      match ofKey? name with
      | some kind => .ok kind
      | none => .error .mistyped)
    (fun name =>
      if name = "operation" then .ok fun tree => tree.asText.map .operation
      else
        match ofKey? name with
        | some kind => .ok fun tree => tree.asNull.map fun _ => kind
        | none => .error .mistyped)

end NodeKind

namespace Slice

structure Found where
  offset : Option UInt64 := none
  size : Option UInt64 := none

def fields : List (Tree.Field Found) :=
  [{ name := "offset"
     isSet := fun f => f.offset.isSome
     read := fun f tree => tree.asWord.map fun n => { f with offset := some n } },
   { name := "size"
     isSet := fun f => f.size.isSome
     read := fun f tree => tree.asWord.map fun n => { f with size := some n } }]

def decode : Decoder Slice := fun tree =>
  match tree.asRecord fields {} with
  | .error fault => .error fault
  | .ok { offset := some offset, size := some size } => .ok ⟨offset, size⟩
  | .ok _ => .error .mistyped

end Slice

/-- Attributes; a repeated name keeps its last value. -/
def attributesOfTree : Decoder (Dict String) :=
  Tree.asMembers (fun attributes key value => value.asText.map fun s => attributes.insert key s) .empty

namespace NodeRecord

structure Found where
  id : Option NodeId := none
  name : Option String := none
  kind : Option NodeKind := none
  inputs : Option (List NodeId) := none
  desc : Option TensorDesc := none
  attributes : Option (Dict String) := none
  slice : Option (Option Slice) := none

def fields : List (Tree.Field Found) :=
  [{ name := "id"
     isSet := fun f => f.id.isSome
     read := fun f tree => tree.asWord.map fun n => { f with id := some n } },
   { name := "name"
     isSet := fun f => f.name.isSome
     read := fun f tree => tree.asText.map fun s => { f with name := some s } },
   { name := "kind"
     isSet := fun f => f.kind.isSome
     read := fun f tree => (NodeKind.decode tree).map fun k => { f with kind := some k } },
   { name := "inputs"
     isSet := fun f => f.inputs.isSome
     read := fun f tree => (tree.asList Tree.asWord).map fun ids => { f with inputs := some ids } },
   { name := "output"
     isSet := fun f => f.desc.isSome
     read := fun f tree => (TensorDesc.decode tree).map fun d => { f with desc := some d } },
   { name := "attributes"
     isSet := fun f => f.attributes.isSome
     read := fun f tree => (attributesOfTree tree).map fun a => { f with attributes := some a } },
   { name := "constant"
     isSet := fun f => f.slice.isSome
     read := fun f tree => (tree.asOptional Slice.decode).map fun s => { f with slice := some s } }]

/-- Only inputs, attributes and the slice may be missing. -/
def decode : Decoder NodeRecord := fun tree =>
  match tree.asRecord fields {} with
  | .error fault => .error fault
  | .ok { id := some id, name := some name, kind := some kind, inputs := inputs, desc := some desc,
          attributes := attributes, slice := slice } =>
    .ok ⟨id, name, kind, inputs.getD [], desc, attributes.getD .empty, slice.getD none⟩
  | .ok _ => .error .mistyped

end NodeRecord

namespace ModelRecord

structure Found where
  friendlyName : Option String := none
  nodes : Option (List NodeRecord) := none

def fields : List (Tree.Field Found) :=
  [{ name := "friendly_name"
     isSet := fun f => f.friendlyName.isSome
     read := fun f tree => tree.asText.map fun s => { f with friendlyName := some s } },
   { name := "nodes"
     isSet := fun f => f.nodes.isSome
     read := fun f tree => (tree.asList NodeRecord.decode).map fun ns => { f with nodes := some ns } }]

def decode : Decoder ModelRecord := fun tree =>
  match tree.asRecord fields {} with
  | .error fault => .error fault
  | .ok { friendlyName := some friendlyName, nodes := some nodes } => .ok ⟨friendlyName, nodes⟩
  | .ok _ => .error .mistyped

end ModelRecord

/-! ## Taking apart -/

def Node.record (n : Node) (slice : Option Slice) : NodeRecord :=
  ⟨n.id, n.name, n.kind, n.inputs, n.desc, n.attributes, slice⟩

/-- The records of nodes whose data starts at `offset`, and that data in one block. -/
def packNodes (offset : Nat) : List Node → List NodeRecord × Bytes
  | [] => ([], [])
  | node :: nodes =>
    match node.data with
    | none =>
      match packNodes offset nodes with
      | (records, constants) => (node.record none :: records, constants)
    | some data =>
      match packNodes (offset + data.length) nodes with
      | (records, constants) =>
        (node.record (some ⟨.ofNat offset, .ofNat data.length⟩) :: records, data ++ constants)

def Model.record (m : Model) : ModelRecord := ⟨m.friendlyName, (packNodes 0 m.nodes).1⟩

def Model.toBlob (m : Model) : Blob := ⟨m.record.toJson.bytes, (packNodes 0 m.nodes).2⟩

/-! ## Putting together -/

inductive BlobFault where
  | document (fault : Json.Fault)
  | form (fault : FormFault)
  | graph (fault : GraphFault)
  deriving DecidableEq

def Slice.cut (s : Slice) (name : String) (constants : Bytes) : Except FormFault Bytes :=
  let offset := s.offset.toNat
  let size := s.size.toNat
  if offset + size ≤ constants.length then .ok ((constants.drop offset).take size)
  else .error (.sliceRange name offset size constants.length)

def NodeRecord.node (r : NodeRecord) (data : Option Bytes) : Node :=
  ⟨r.id, r.name, r.kind, r.inputs, r.desc, r.attributes, data⟩

/-- A node with its data, which may lie anywhere among the constants. -/
def NodeRecord.unpack (r : NodeRecord) (constants : Bytes) : Except FormFault Node :=
  match r.slice with
  | none => .ok (r.node none)
  | some slice => (slice.cut r.name constants).map fun data => r.node (some data)

def unpackNodes (constants : Bytes) : List NodeRecord → Except FormFault (List Node)
  | [] => .ok []
  | r :: records =>
    match r.unpack constants with
    | .error fault => .error fault
    | .ok node => (unpackNodes constants records).map (node :: ·)

/-- All slices are cut, in the order of the nodes, before the graph is looked at. -/
def Model.ofBlob (blob : Blob) : Except BlobFault Model :=
  match Json.decode ModelRecord.decode blob.document with
  | .error fault => .error (.document fault)
  | .ok record =>
    match unpackNodes blob.constants record.nodes with
    | .error fault => .error (.form fault)
    | .ok nodes =>
      let m : Model := ⟨record.friendlyName, nodes⟩
      match m.validate with
      | .error fault => .error (.graph fault)
      | .ok () => .ok m

end DevicePlugin
