import DevicePlugin.Failure
import DevicePlugin.Plugin.Basic

/-!
# Compiled models

Compiling runs the plugin's transformations over a model, unless they are
disabled, and accepts the result if it is a valid graph.
-/

namespace DevicePlugin

structure CompiledModel where
  graph : Model
  /-- The owner, which may be released before its models. -/
  plugin : PluginId
  context : RemoteContext
  taskExecutor : ExecutorId
  config : Configuration
  fromCache : Bool

/-- What compiling answers, what it logs, and the passes that ran. -/
structure Compilation (α : Type) where
  outcome : Except Failure α
  events : List Event := []
  calls : List String := []

def transformGraph (transformations : Transformation) (disabled : Bool) (m : Model) :
    Except CompileFailure Model × List Notice × List String :=
  if disabled then (.ok m, [.transformationsSkipped m.friendlyName], [])
  else
    match transformations.run m with
    | ⟨next, .ok changed, calls, notices⟩ =>
      (.ok next, notices ++ [.pipelineFinished next.friendlyName changed], calls)
    | ⟨_, .error e, calls, notices⟩ => (.error (.ofError e), notices, calls)
    | ⟨_, .panic, calls, notices⟩ => (.error .unknown, notices, calls)

def acceptGraph (m : Model) : Except CompileFailure Model :=
  match m.validate with
  | .ok () => .ok m
  | .error fault => .error (.compiler (Failure.graph fault).message)

def compileGraph (transformations : Transformation) (disabled : Bool) (m : Model) :
    Except CompileFailure Model × List Notice × List String :=
  match transformGraph transformations disabled m with
  | (.error failure, notices, calls) => (.error failure, notices, calls)
  | (.ok next, notices, calls) => (acceptGraph next, notices, calls)

namespace CompiledModel

/-- Compiled models call users back on the spot, through an executor of this name. -/
def callbackExecutor : String := "TemplateCallbackExecutor"

def compilationSpan : String := "compilation"

def create (m : Model) (owner : PluginId) (plugin : Plugin) (context : RemoteContext)
    (taskExecutor : ExecutorId) (config : Configuration) (fromCache : Bool) :
    Compilation CompiledModel :=
  let started := Notice.compilationStarted m.friendlyName plugin.device (!config.untransformed)
  let within (notices : List Notice) : List Event :=
    { notice := started } :: Event.inside compilationSpan (notices.map fun n => { notice := n })
  match compileGraph plugin.transformations config.untransformed m with
  | (.error failure, notices, calls) =>
    { outcome := .error (.compilation failure)
      events := within
        (notices ++ [.compilationFailed m.friendlyName failure.category failure.message])
      calls }
  | (.ok graph, notices, calls) =>
    { outcome := .ok ⟨graph, owner, context, taskExecutor, config, fromCache⟩
      events := within (notices ++ [.compilationCompleted m.friendlyName fromCache none])
      calls }

def shown (c : CompiledModel) : String :=
  "TemplateCompiledModel \x7b model_name: " ++ Text.quoted c.graph.friendlyName ++ ", device_id: " ++
    c.config.deviceId.toNat.repr ++ ", loaded_from_cache: " ++
    (if c.fromCache then "true" else "false") ++ " \x7d"

end CompiledModel

namespace StandardPlugin

def compile (p : StandardPlugin) (host : Host) (self : PluginId) (m : Model)
    (properties : PropertyMap) : Compilation CompiledModel :=
  match p.defaults.merged host properties with
  | .error fault => { outcome := .error (.property fault) }
  | .ok config =>
    CompiledModel.create m self p.toPlugin p.defaultContext p.taskExecutor config false

def importSpan : String := "import"

/-- Compiles a model that was read from a stream. -/
def compileBlob (p : StandardPlugin) (host : Host) (self : PluginId) (blob : Blob)
    (properties : PropertyMap) : Compilation CompiledModel :=
  match Model.ofBlob blob with
  | .error fault => { outcome := .error (.ofBlobFault fault) }
  | .ok m =>
    match p.defaults.merged host properties with
    | .error fault => { outcome := .error (.property fault) }
    | .ok config =>
      CompiledModel.create m self p.toPlugin p.defaultContext p.taskExecutor config true

def importFrom (p : StandardPlugin) (host : Host) (self : PluginId) (source : Stream.Source)
    (properties : PropertyMap) : Compilation CompiledModel × Stream.Source :=
  match Blob.read source with
  | (.error fault, source) => ({ outcome := .error (.ofReadFault fault) }, source)
  | (.ok blob, source) =>
    let imported := Notice.modelImported p.device blob.document.length blob.constants.length
    let compiled := p.compileBlob host self blob properties
    ({ compiled with
        events := { notice := imported } :: Event.inside importSpan compiled.events }, source)

end StandardPlugin

namespace CompiledModel

def exportSpan : String := "export_model"

def exportTo (c : CompiledModel) (sink : Stream.Behaviour) (cursor : Stream.Cursor) :
    Except Failure Unit × Stream.Written × List Event :=
  let blob := c.graph.toBlob
  let written := blob.write sink cursor
  match written.fault with
  | some fault => (.error (.stream fault), written, [])
  | none =>
    let exported :=
      Notice.modelExported c.graph.friendlyName blob.document.length blob.constants.length
    (.ok (), written, Event.inside exportSpan [{ notice := exported }])

end CompiledModel

end DevicePlugin
