import DevicePlugin.Bytes
import DevicePlugin.Dict
import DevicePlugin.Tensor.Descriptor

/-!
# Models

A model is a named list of nodes. A node reads the outputs of other nodes, which
it names by their positions. Models are built so that a node only reads nodes
before it; edits may break that, and `Model.validate` finds it.
-/

namespace DevicePlugin

/-- A position in a list of nodes, as a 64-bit word. -/
abbrev NodeId := UInt64

inductive NodeKind where
  | parameter
  | constant
  | result
  | operation (type : String)
  deriving DecidableEq, Repr

structure Node where
  id : NodeId
  name : String
  kind : NodeKind
  inputs : List NodeId
  desc : TensorDesc
  attributes : Dict String
  data : Option Bytes
  deriving DecidableEq

structure Model where
  friendlyName : String
  nodes : List Node
  deriving DecidableEq

def nodeRef (id : NodeId) : String := "#" ++ id.toNat.repr

inductive GraphFault where
  | unknownInput (node : String) (input : NodeId)
  | sizeOverflow (node : String) (shape : List UInt64)
  | constantSize (node : String) (given needed : Nat)
  | misplaced (node : String) (id : NodeId) (position : Nat)
  | duplicateName (node : String)
  | laterInput (node : String) (input : NodeId)
  | dataMismatch (node : String)
  | sourceInputs (node : String)
  | resultArity (node : String) (inputs : Nat)
  | resultMismatch (node : String)
  deriving DecidableEq

def GraphFault.message : GraphFault → String
  | .unknownInput node input => "node '" ++ node ++ "' references unknown node " ++ nodeRef input
  | .sizeOverflow node shape =>
    "node '" ++ node ++ "' has shape " ++ shapeText shape ++ " whose size overflows"
  | .constantSize node given needed =>
    "constant '" ++ node ++ "' has " ++ given.repr ++ " bytes, descriptor needs " ++ needed.repr
  | .misplaced node id position =>
    "node '" ++ node ++ "' has id " ++ nodeRef id ++ " at position " ++ position.repr
  | .duplicateName node => "duplicate node name '" ++ node ++ "'"
  | .laterInput node input =>
    "node '" ++ node ++ "' references " ++ nodeRef input ++ " which does not precede it"
  | .dataMismatch node => "node '" ++ node ++ "' constant data does not match its kind"
  | .sourceInputs node => "node '" ++ node ++ "' takes no inputs"
  | .resultArity node inputs =>
    "result '" ++ node ++ "' has " ++ inputs.repr ++ " inputs, expected exactly one"
  | .resultMismatch node => "result '" ++ node ++ "' does not match the descriptor of its input"

/-! ## Sizes -/

def checkSize (name : String) (desc : TensorDesc) : Except GraphFault Nat :=
  match desc.byteSize with
  | some size => .ok size
  | none => .error (.sizeOverflow name desc.shape)

/-- Constant data must be as long as its descriptor says. -/
def checkConstant (name : String) (desc : TensorDesc) (data : Bytes) : Except GraphFault Unit :=
  match checkSize name desc with
  | .error fault => .error fault
  | .ok needed =>
    if data.length = needed then .ok () else .error (.constantSize name data.length needed)

namespace Model

/-! ## Reading -/

def node? (m : Model) (id : NodeId) : Option Node := m.nodes[id.toNat]?

def parameters (m : Model) : List Node := m.nodes.filter fun n => n.kind = .parameter

def results (m : Model) : List Node := m.nodes.filter fun n => n.kind = .result

def constantData? (m : Model) (id : NodeId) : Option Bytes := (m.node? id).bind Node.data

/-! ## Building -/

def empty (friendlyName : String) : Model := ⟨friendlyName, []⟩

def rename (m : Model) (friendlyName : String) : Model := { m with friendlyName }

def push (m : Model) (name : String) (kind : NodeKind) (inputs : List NodeId) (desc : TensorDesc)
    (data : Option Bytes) : Model × NodeId :=
  let id := UInt64.ofNat m.nodes.length
  ({ m with nodes := m.nodes ++ [⟨id, name, kind, inputs, desc, .empty, data⟩] }, id)

def checkInputs (m : Model) (name : String) (inputs : List NodeId) : Except GraphFault Unit :=
  match inputs.find? fun i => m.nodes.length ≤ i.toNat with
  | some missing => .error (.unknownInput name missing)
  | none => .ok ()

def addParameter (m : Model) (name : String) (desc : TensorDesc) : Model × NodeId :=
  m.push name .parameter [] desc none

def addConstant (m : Model) (name : String) (desc : TensorDesc) (data : Bytes) :
    Except GraphFault (Model × NodeId) :=
  match checkConstant name desc data with
  | .error fault => .error fault
  | .ok () => .ok (m.push name .constant [] desc (some data))

def addOperation (m : Model) (name type : String) (inputs : List NodeId) (desc : TensorDesc) :
    Except GraphFault (Model × NodeId) :=
  match m.checkInputs name inputs with
  | .error fault => .error fault
  | .ok () => .ok (m.push name (.operation type) inputs desc none)

def addResult (m : Model) (name : String) (input : NodeId) : Except GraphFault (Model × NodeId) :=
  match m.node? input with
  | none => .error (.unknownInput name input)
  | some source => .ok (m.push name .result [input] source.desc none)

/-! ## Editing without checks -/

def modifyNode (m : Model) (position : Nat) (f : Node → Node) : Model :=
  { m with nodes := m.nodes.modify position f }

/-- Exchanges two nodes; nothing happens to positions that hold none. -/
def swapNodes (m : Model) (a b : Nat) : Model :=
  match m.nodes[a]?, m.nodes[b]? with
  | some x, some y => { m with nodes := (m.nodes.set a y).set b x }
  | _, _ => m

/-! ## Validity -/

/-- A constant carries data of the right length; no other node carries data. -/
def checkData (node : Node) : Except GraphFault Unit :=
  match node.kind, node.data with
  | .constant, some data => checkConstant node.name node.desc data
  | .constant, none => .error (.dataMismatch node.name)
  | _, some _ => .error (.dataMismatch node.name)
  | _, none => .ok ()

def checkResult (before : List Node) (node : Node) : Except GraphFault Unit :=
  match node.inputs with
  | [input] =>
    if before[input.toNat]?.map Node.desc = some node.desc then .ok () else .error (.resultMismatch node.name)
  | inputs => .error (.resultArity node.name inputs.length)

/-- Sources read nothing, results read their one node, operations read what they like. -/
def checkWiring (before : List Node) (node : Node) : Except GraphFault Unit :=
  match node.kind with
  | .parameter => if node.inputs = [] then .ok () else .error (.sourceInputs node.name)
  | .constant => if node.inputs = [] then .ok () else .error (.sourceInputs node.name)
  | .result => checkResult before node
  | .operation _ => .ok ()

def checkNode (before : List Node) (node : Node) : Except GraphFault Unit :=
  if node.id.toNat ≠ before.length then .error (.misplaced node.name node.id before.length)
  else if node.name ∈ before.map Node.name then .error (.duplicateName node.name)
  else
    match node.inputs.find? fun i => before.length ≤ i.toNat with
    | some input => .error (.laterInput node.name input)
    | none =>
      match checkSize node.name node.desc with
      | .error fault => .error fault
      | .ok _ =>
        match checkData node with
        | .error fault => .error fault
        | .ok () => checkWiring before node

def checkNodes : (before : List Node) → List Node → Except GraphFault Unit
  | _, [] => .ok ()
  | before, node :: rest =>
    match checkNode before node with
    | .error fault => .error fault
    | .ok () => checkNodes (before ++ [node]) rest

/-- Whether a model may be run: the first node that is wrong decides what is said. -/
def validate (m : Model) : Except GraphFault Unit := checkNodes [] m.nodes

end Model

end DevicePlugin
