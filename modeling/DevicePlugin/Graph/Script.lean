import DevicePlugin.Failure
import DevicePlugin.Outcome

/-!
# Scripts over a model

Steps that build, edit and question one model. A step that fails changes
nothing. Edits are not checked, except that a position must hold a node.
-/

namespace DevicePlugin

structure NodeChange where
  id : Option NodeId := none
  name : Option String := none
  kind : Option NodeKind := none
  inputs : Option (List NodeId) := none
  desc : Option TensorDesc := none
  attributes : Option (Dict String) := none
  data : Option (Option Bytes) := none

def NodeChange.apply (c : NodeChange) (n : Node) : Node :=
  { id := c.id.getD n.id
    name := c.name.getD n.name
    kind := c.kind.getD n.kind
    inputs := c.inputs.getD n.inputs
    desc := c.desc.getD n.desc
    attributes := c.attributes.getD n.attributes
    data := c.data.getD n.data }

inductive ModelStep where
  | parameter (name : String) (desc : TensorDesc)
  | constant (name : String) (desc : TensorDesc) (data : Bytes)
  | operation (name type : String) (inputs : List NodeId) (desc : TensorDesc)
  | result (name : String) (input : NodeId)
  | rename (name : String)
  | edit (position : Nat) (change : NodeChange)
  | swap (a b : Nat)
  | validate
  | dump
  | serialize
  | roundTrip
  | node (id : NodeId)
  | constantData (id : NodeId)
  | lists

inductive ModelAnswer where
  | added (id : NodeId)
  | renamed (name : String)
  | edited (node : Node)
  | done
  | model (m : Model)
  | blob (b : Blob)
  /-- Whether the model read back is the same, and whether it is written in the same bytes. -/
  | compared (equal sameBytes : Bool)
  | found (node : Option Node)
  | data (bytes : Option Bytes)
  | names (parameters results : List String)

namespace Model

def added (m : Model) : Except GraphFault (Model × NodeId) → Outcome Failure ModelAnswer × Model
  | .error fault => (.error (.graph fault), m)
  | .ok (next, id) => (.ok (.added id), next)

def step (m : Model) : ModelStep → Outcome Failure ModelAnswer × Model
  | .parameter name desc => m.added (.ok (m.addParameter name desc))
  | .constant name desc data => m.added (m.addConstant name desc data)
  | .operation name type inputs desc => m.added (m.addOperation name type inputs desc)
  | .result name input => m.added (m.addResult name input)
  | .rename name => (.ok (.renamed name), m.rename name)
  | .edit position change =>
    match m.nodes[position]? with
    | none => (.panic, m)
    | some node => (.ok (.edited (change.apply node)), m.modifyNode position change.apply)
  | .swap a b =>
    if a < m.nodes.length ∧ b < m.nodes.length then (.ok .done, m.swapNodes a b) else (.panic, m)
  | .validate =>
    match m.validate with
    | .error fault => (.error (.graph fault), m)
    | .ok () => (.ok .done, m)
  | .dump => (.ok (.model m), m)
  | .serialize => (.ok (.blob m.toBlob), m)
  | .roundTrip =>
    match Model.ofBlob m.toBlob with
    | .error fault => (.error (.ofBlobFault fault), m)
    | .ok again => (.ok (.compared (again = m) (again.toBlob = m.toBlob)), m)
  | .node id => (.ok (.found (m.node? id)), m)
  | .constantData id => (.ok (.data (m.constantData? id)), m)
  | .lists => (.ok (.names (m.parameters.map Node.name) (m.results.map Node.name)), m)

def run (m : Model) : List ModelStep → List (Outcome Failure ModelAnswer) × Model
  | [] => ([], m)
  | s :: steps =>
    let (answer, next) := m.step s
    let (answers, last) := next.run steps
    (answer :: answers, last)

/-- The steps up to the first that fails. -/
def runWhileOk (m : Model) : List ModelStep → Outcome Failure Unit × Model
  | [] => (.ok (), m)
  | s :: steps =>
    match m.step s with
    | (.ok _, next) => next.runWhileOk steps
    | (.error fault, next) => (.error fault, next)
    | (.panic, next) => (.panic, next)

end Model

end DevicePlugin
