import DevicePlugin.Session.Script

/-!
# What a host holds

Objects by name. Making an object under a used name puts it in the place of the
old one, which lives on as long as others need it; only plugins are needed by
nobody, so that a plugin which loses its name is released.
-/

namespace DevicePlugin

/-- The state that all stages act on: the requests, and the backends of the plugins that are not
released. -/
structure Shared where
  requests : RequestId → Option InferRequest := fun _ => none
  devices : PluginId → Option Device := fun _ => none

namespace Shared

def setRequest (s : Shared) (id : RequestId) (r : InferRequest) : Shared :=
  { s with requests := fun i => if i = id then some r else s.requests i }

def setDevice (s : Shared) (id : PluginId) (d : Option Device) : Shared :=
  { s with devices := fun i => if i = id then d else s.devices i }

def serve (s : Shared) (id : RequestId) (f : Served → Outcome Failure Unit × Served) :
    Outcome Failure Unit × Shared :=
  match s.requests id with
  | none => (.ok (), s)
  | some r =>
    let owner := r.compiled.plugin
    match f ⟨r, s.devices owner⟩ with
    | (outcome, served) => (outcome, (s.setRequest id served.request).setDevice owner served.device)

def stages (id : RequestId) : Stages Shared where
  run stage s := s.serve id (Served.stages.run stage)

end Shared

namespace Session

inductive Owned where
  | host (p : Plugin)
  | standard (p : StandardPlugin)

def Owned.plugin : Owned → Plugin
  | .host p => p
  | .standard p => p.toPlugin

inductive Handle where
  | sync (id : RequestId)
  | async (id : RequestId)

structure State where
  host : Host
  /-- Whether the session runs within a runtime, whose threads run pooled tasks. -/
  runtime : Bool
  engine : Engine Shared := { state := {} }
  nextExecutor : ExecutorId := 0
  nextPlugin : PluginId := 0
  nextRequest : RequestId := 0
  executors : Dict ExecutorId := .empty
  plugins : Dict (PluginId × Owned) := .empty
  models : Dict Model := .empty
  streams : Dict Bytes := .empty
  compiled : Dict CompiledModel := .empty
  requests : Dict Handle := .empty
  calls : List String := []
  labels : List (InferenceId × String) := []

namespace State

/-! ## Executors -/

def addExecutor (s : State) (name : String) (kind : ExecutorKind) : ExecutorId × State :=
  let id := s.nextExecutor
  (id, { s with engine := s.engine.setExecutor id { name, kind }, nextExecutor := id + 1 })

/-- The executor for whoever brings none. -/
def fallbackExecutor (s : State) (name : String) : ExecutorId × State × List Event :=
  if s.runtime then
    match s.addExecutor name .pooled with
    | (id, s) => (id, s, [])
  else
    match s.addExecutor name .inline with
    | (id, s) => (id, s, [{ notice := .runningInline name }])

def immediateName : String := "ImmediateExecutor"

def executorOrImmediate (s : State) : Option String → Option (ExecutorId × State)
  | none => some (s.addExecutor immediateName .inline)
  | some name => (s.executors.find? name).map fun id => (id, s)

def executorOrFallback (s : State) (fallbackName : String) :
    Option String → Option (ExecutorId × State × List Event)
  | none => some (s.fallbackExecutor fallbackName)
  | some name => (s.executors.find? name).map fun id => (id, s, [])

def executorAnswer (s : State) (id : ExecutorId) : Answer :=
  let x := s.engine.executors id
  .executor x.name <|
    match x.kind with
    | .parked => .parked x.queue.length
    | .counting => .runs x.runs
    | _ => .none

/-! ## Plugins -/

def plugin? (s : State) (id : PluginId) : Option Plugin :=
  (s.plugins.entries.find? fun e => e.2.1 = id).map fun e => e.2.2.plugin

def releasePlugin (s : State) (name : String) : State :=
  match s.plugins.find? name with
  | none => s
  | some (id, _) =>
    { s with
      plugins := s.plugins.erase name
      engine := { s.engine with state := s.engine.state.setDevice id none } }

def addPlugin (s : State) (name : String) (p : Owned) : State :=
  let s := s.releasePlugin name
  let id := s.nextPlugin
  { s with
    plugins := s.plugins.insert name (id, p)
    engine := { s.engine with state := s.engine.state.setDevice id (some { backend := p.plugin.backend }) }
    nextPlugin := id + 1 }

/-! ## Requests -/

def addRequest (s : State) (r : InferRequest) : RequestId × State :=
  let id := s.nextRequest
  (id, { s with engine := { s.engine with state := s.engine.state.setRequest id r }, nextRequest := id + 1 })

end State

end Session

end DevicePlugin
