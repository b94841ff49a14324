import DevicePlugin.Failure
import DevicePlugin.Plugin.Backend

/-!
# Scripted backends

Backends whose answers are listed, one for each evaluation; the last one stays.
-/

namespace DevicePlugin

inductive BackendCall where
  /-- Hands the first parameter's tensor on to every result it fits, and zeros to the others. -/
  | echo
  | fixed (outputs : List (String × Except TensorFault Tensor))
  | fail (error : ErrorChain)
  | breakOff

namespace BackendCall

def chainOf (fault : TensorFault) : ErrorChain := .ofText (Failure.infer (.tensor fault)).message

def echoed (m : Model) (inputs : Dict Tensor) (result : Node) : Except TensorFault Tensor :=
  match m.parameters.head?.bind fun p => inputs.find? p.name with
  | some t => if t.desc = result.desc then .ok t else Tensor.zeros result.desc
  | none => Tensor.zeros result.desc

/-- Collects outputs; the first that cannot be made fails them all. -/
def collect : Dict Tensor → List (String × Except TensorFault Tensor) → Outcome ErrorChain (Dict Tensor)
  | outputs, [] => .ok outputs
  | _, (_, .error fault) :: _ => .error (chainOf fault)
  | outputs, (name, .ok t) :: rest => collect (outputs.insert name t) rest

def answer (call : BackendCall) (m : Model) (inputs : Dict Tensor) : Outcome ErrorChain (Dict Tensor) :=
  match call with
  | .echo => collect .empty (m.results.map fun r => (r.name, echoed m inputs r))
  | .fixed outputs => collect .empty outputs
  | .fail error => .error error
  | .breakOff => .panic

end BackendCall

/-- The calls in order, the last one for all that follow. -/
def Backend.scripted (name : String) (calls : List BackendCall) : Backend :=
  { name
    evaluate := fun index => ((calls[index]? <|> calls.getLast?).getD .echo).answer }

end DevicePlugin
