import DevicePlugin.ErrorChain
import DevicePlugin.Graph.Document
import DevicePlugin.Property.Fault
import DevicePlugin.Tensor.Data
import DevicePlugin.Transformation.Failure

/-!
# Failures

Every way in which a call of the library fails, and what is said about it.
-/

namespace DevicePlugin

inductive InferFault where
  | tensor (fault : TensorFault)
  | noInput (name : String)
  | wrongInput (name : String) (expected given : TensorDesc)
  | noTensor (name : String)
  | inputNotSet (name : String)
  | backend (name : String) (error : ErrorChain)
  | notStarted
  | wrongOutput (name : String) (given expected : List UInt64)
  | missingOutput (name : String)
  /-- The executor gave a task up without running it to its end. -/
  | droppedTask (executor : String)
  | poisoned
  deriving DecidableEq

def InferFault.message : InferFault → String
  | .tensor fault => fault.message
  | .noInput name => "model has no input named '" ++ name ++ "'"
  | .wrongInput name expected given =>
    "input '" ++ name ++ "' expects " ++ expected.shown ++ ", got " ++ given.shown
  | .noTensor name => "no tensor named '" ++ name ++ "'"
  | .inputNotSet name => "input '" ++ name ++ "' is not set"
  | .backend name error => "backend '" ++ name ++ "': " ++ error.full
  | .notStarted => "pipeline was not started"
  | .wrongOutput name given expected =>
    "output '" ++ name ++ "' has shape " ++ shapeText given ++ ", expected " ++ shapeText expected
  | .missingOutput name => "backend produced no output '" ++ name ++ "'"
  | .droppedTask executor => "executor '" ++ executor ++ "' dropped the task"
  | .poisoned => "inference request state is poisoned"

inductive Failure where
  | compilation (cause : CompileFailure)
  | notImplemented (operation : String)
  | property (fault : PropertyFault)
  | graph (fault : GraphFault)
  | form (fault : FormFault)
  | infer (fault : InferFault)
  | busy
  | cancelled
  | pluginReleased
  | stream (fault : Stream.Fault)
  | document (fault : Json.Fault)
  deriving DecidableEq

namespace Failure

def kind : Failure → String
  | .compilation _ => "Compilation"
  | .notImplemented _ => "NotImplemented"
  | .property (.unknown _) => "UnknownOption"
  | .property (.invalid _ _) => "InvalidValue"
  | .graph _ => "InvalidGraph"
  | .form _ => "MalformedStream"
  | .infer _ => "Infer"
  | .busy => "Busy"
  | .cancelled => "Cancelled"
  | .pluginReleased => "PluginReleased"
  | .stream _ => "Io"
  | .document _ => "Serialization"

def message : Failure → String
  | .compilation cause => "Model compilation failed: " ++ cause.message
  | .notImplemented operation => "Operation '" ++ operation ++ "' is not implemented"
  | .property fault => fault.message
  | .graph fault => "Invalid model graph: " ++ fault.message
  | .form fault => "Malformed model stream: " ++ fault.message
  | .infer fault => "Inference failed: " ++ fault.message
  | .busy => "Inference request is busy"
  | .cancelled => "Inference request was cancelled"
  | .pluginReleased => "The owning plugin has been released"
  | .stream fault => "I/O error: " ++ fault.text
  | .document fault => "Serialization error: " ++ fault.category

def ofBlobFault : BlobFault → Failure
  | .document fault => .document fault
  | .form fault => .form fault
  | .graph fault => .graph fault

def ofReadFault : ReadFault → Failure
  | .form fault => .form fault
  | .stream fault => .stream fault

end Failure

end DevicePlugin
