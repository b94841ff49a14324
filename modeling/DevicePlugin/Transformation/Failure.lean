import DevicePlugin.ErrorChain

/-!
# Compile failures

A pass's own error is a compiler failure, any other error a failure of the
library that the pass runs in, and a break-off is unknown.
-/

namespace DevicePlugin

inductive CompileFailure where
  | compiler (message : String)
  | runtime (message : String)
  | unknown
  deriving DecidableEq

namespace CompileFailure

def ofError (e : ErrorChain) : CompileFailure :=
  match e.root with
  | .pass name message => .compiler (RootCause.pass name message).text
  | .other _ => .runtime e.full

def category : CompileFailure → String
  | .compiler _ => "compiler"
  | .runtime _ => "runtime"
  | .unknown => "unknown"

def message : CompileFailure → String
  | .compiler message => message
  | .runtime message => "Error from compilation library: " ++ message
  | .unknown => "Unknown failure during compilation"

end CompileFailure

end DevicePlugin
