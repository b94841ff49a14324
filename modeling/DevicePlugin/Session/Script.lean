import DevicePlugin.Compiled.Properties
import DevicePlugin.Graph.Script
import DevicePlugin.Plugin.Scripted
import DevicePlugin.Property.Script
import DevicePlugin.Request.Async
import DevicePlugin.Stream.Blob
import DevicePlugin.Transformation.Scripted

/-!
# What a host does

The steps of a host that uses plugins, models and requests by names of its own,
and the answers it gets.
-/

namespace DevicePlugin.Session

inductive MakeExecutor where
  | parked
  | counting
  | dropping
  | immediate
  | immediateDefault
  /-- Pooled within a runtime, immediate outside. -/
  | fallback
  | pooled
  deriving DecidableEq

structure MakePlugin where
  backend : Backend
  transformations : Option Transformation := none
  wait : Option String := none
  task : Option String := none
  device : Option String := none
  config : List ConfigStep := []
  /-- A plugin of the host itself, without defaults. -/
  isHost : Bool := false

structure DirectCompile where
  device : String := "CTX"
  params : PropertyMap := .empty
  task : Option String := none
  config : List ConfigStep := []
  fromCache : Bool := false

structure MakeCompiled where
  plugin : String
  model : String
  name : String
  properties : PropertyMap := .empty
  /-- Gives the model away. -/
  consume : Bool := false
  /-- Asked for even where the plugin can compile by itself. -/
  direct : Bool := false
  how : DirectCompile := {}

inductive StreamOrigin where
  | kept (name : String)
  | given (bytes : Bytes)

inductive MakeRequest where
  | sync
  | async
  | custom (task wait callback : Option String)

inductive RequestStep where
  | setTensor (name : String) (tensor : Except TensorFault Tensor)
  | getTensor (name : String)
  | profile
  | stage (stage : InferStage)
  | shownModel
  /-- Starts an inference, or runs it where the request is synchronous. -/
  | infer (label : String)
  | cancel
  | callback (label : String)

inductive Step where
  | executor (name : String) (kind : MakeExecutor)
  | executorState (executor : String)
  | drain (executor : String) (limit : Option Nat) (discard : Bool)
  | plugin (name : String) (parts : MakePlugin)
  | setStreams (plugin : String) (names : List String)
  | dropPlugin (plugin : String)
  | passCalls
  | model (name : String) (friendlyName : String) (steps : List ModelStep)
  | dumpModel (model : String)
  | compile (parts : MakeCompiled)
  | importModel (plugin name : String) (origin : StreamOrigin) (source : Stream.Settings)
      (properties : PropertyMap)
  | exportModel (compiled : String) (keep : Option String) (sink : Stream.Settings)
  | getProperty (compiled name : String)
  | setProperty (compiled : String) (properties : PropertyMap)
  | compiled (compiled : String)
  | request (name compiled : String) (kind : MakeRequest)
  | onRequest (request : String) (step : RequestStep)

inductive ExecutorCount where
  | none
  | parked (tasks : Nat)
  | runs (count : Nat)

inductive Answer where
  | done
  | executor (name : String) (count : ExecutorCount)
  | drained (tasks panicked : Nat)
  | plugin (p : Plugin) (waitExecutor : String) (standard : Option StandardPlugin)
  | calls (counts : Dict Nat)
  | model (m : Model)
  | compiled (c : CompiledModel) (sameGraph : Option Bool) (position : Option Nat)
  | bytes (bytes : Bytes)
  | value (name : String) (v : PropertyValue)
  | inspected (c : CompiledModel) (isOwned : Bool)
  | tensor (t : Tensor)
  | profile (stages : List InferStage)
  | text (s : String)

inductive Reply where
  | answered (outcome : Outcome Failure Answer)
  /-- The step names an object that was never made. -/
  | missing

structure Report where
  reply : Reply
  settled : List (String × Outcome Failure Unit)
  callbacks : List (String × InferResult)
  events : List Event

end DevicePlugin.Session
