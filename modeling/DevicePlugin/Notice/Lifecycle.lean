import DevicePlugin.Notice.Event
import DevicePlugin.Text.Duration

/-!
# Notices

Everything the library logs, one constructor for each kind of event.
-/

namespace DevicePlugin

inductive Notice where
  | compilationStarted (model device : String) (transformations : Bool)
  /-- The time is in nanoseconds, and known only where a clock was read. -/
  | compilationCompleted (model : String) (fromCache : Bool) (elapsed : Option Nat)
  | compilationFailed (model category reason : String)
  | transformationsSkipped (model : String)
  | mutationRejected (model : String) (properties : Nat)
  | modelExported (model : String) (documentBytes constantBytes : Nat)
  | requestCreated (model : String) (asynchronous : Bool)
  | inferenceCompleted (succeeded : Bool)
  | inferenceCancelled (executor : String)
  | modelImported (device : String) (documentBytes constantBytes : Nat)
  | pluginCreated (device backend waitExecutor : String)
  | passFinished (pass : String) (changed : Bool)
  | pipelineFinished (model : String) (changed : Bool)
  | runningInline (executor : String)
  deriving DecidableEq

namespace Notice

def level : Notice → Level
  | .compilationStarted .. => .info
  | .compilationCompleted .. => .info
  | .compilationFailed .. => .error
  | .transformationsSkipped .. => .debug
  | .mutationRejected .. => .warn
  | .modelExported .. => .info
  | .requestCreated .. => .debug
  | .inferenceCompleted .. => .debug
  | .inferenceCancelled .. => .info
  | .modelImported .. => .info
  | .pluginCreated .. => .debug
  | .passFinished .. => .debug
  | .pipelineFinished .. => .debug
  | .runningInline .. => .debug

def message : Notice → String
  | .compilationStarted model device transformations =>
    "Compiling model '" ++ model ++ "' for " ++ device ++ " (transformations " ++
      (if transformations then "enabled" else "disabled") ++ ")"
  | .compilationCompleted _ _ none => "<timed>"
  | .compilationCompleted model fromCache (some elapsed) =>
    "Compiled model '" ++ model ++ "' in " ++ Text.duration elapsed ++
      (if fromCache then " (from cache)" else "")
  | .compilationFailed model category reason =>
    "Compilation of model '" ++ model ++ "' failed (" ++ category ++ " error): " ++ reason
  | .transformationsSkipped model =>
    "Transformations disabled, compiling model '" ++ model ++ "' as-is"
  | .mutationRejected model properties =>
    "Rejected set_property with " ++ properties.repr ++ " entries on compiled model '" ++ model ++
      "': recompile instead"
  | .modelExported model documentBytes constantBytes =>
    "Exported model '" ++ model ++ "': " ++ documentBytes.repr ++ " structure bytes, " ++
      constantBytes.repr ++ " constant bytes"
  | .requestCreated model asynchronous =>
    "Created " ++ (if asynchronous then "async" else "sync") ++ " inference request for model '" ++
      model ++ "'"
  | .inferenceCompleted succeeded => if succeeded then "Inference completed" else "Inference failed"
  | .inferenceCancelled executor => "Inference cancelled (task executor '" ++ executor ++ "')"
  | .modelImported device documentBytes constantBytes =>
    "Importing model for " ++ device ++ ": " ++ documentBytes.repr ++ " structure bytes, " ++
      constantBytes.repr ++ " constant bytes"
  | .pluginCreated device backend waitExecutor =>
    "Created " ++ device ++ " plugin with backend '" ++ backend ++ "' and wait executor '" ++
      waitExecutor ++ "'"
  | .passFinished .. => "Transformation pass finished"
  | .pipelineFinished .. => "Transformation pipeline finished"
  | .runningInline _ => "No tokio runtime available, running tasks inline"

def fields : Notice → Fields
  | .compilationStarted model device transformations =>
    [("model_name", .text model), ("device", .text device),
      ("transformations_enabled", .flag transformations)]
  | .compilationCompleted model fromCache elapsed =>
    [("model_name", .text model), ("loaded_from_cache", .flag fromCache)] ++
      (elapsed.map fun n => ("duration_ms", FieldValue.number (n / 1000000))).toList
  | .compilationFailed model category reason =>
    [("model_name", .text model), ("category", .text category), ("reason", .text reason)]
  | .transformationsSkipped model => [("model_name", .text model)]
  | .mutationRejected model properties =>
    [("model_name", .text model), ("property_count", .number properties)]
  | .modelExported model documentBytes constantBytes =>
    [("model_name", .text model), ("structure_bytes", .number documentBytes),
      ("constants_bytes", .number constantBytes)]
  | .requestCreated model asynchronous =>
    [("model_name", .text model), ("asynchronous", .flag asynchronous)]
  | .inferenceCompleted succeeded => [("succeeded", .flag succeeded)]
  | .inferenceCancelled executor => [("executor", .text executor)]
  | .modelImported device documentBytes constantBytes =>
    [("device", .text device), ("structure_bytes", .number documentBytes),
      ("constants_bytes", .number constantBytes)]
  | .pluginCreated device backend waitExecutor =>
    [("device", .text device), ("backend", .text backend), ("wait_executor", .text waitExecutor)]
  | .passFinished pass changed => [("pass", .text pass), ("changed", .flag changed)]
  | .pipelineFinished model changed => [("model_name", .text model), ("changed", .flag changed)]
  | .runningInline executor => [("executor", .text executor)]

/-- The name of the span of a kind of notice, and the fields that go into it. Three kinds have no
span. -/
def spanParts? : Notice → Option (String × Fields)
  | .compilationStarted model device _ =>
    some ("compilation", [("model_name", .text model), ("device", .text device)])
  | .compilationCompleted model _ elapsed =>
    some ("compilation_completed",
      [("model_name", .text model), ("duration", .text (Text.duration (elapsed.getD 0)))])
  | .compilationFailed model category _ =>
    some ("compilation_failed", [("model_name", .text model), ("category", .text category)])
  | .transformationsSkipped model => some ("transformations_skipped", [("model_name", .text model)])
  | .mutationRejected model _ => some ("property_mutation_rejected", [("model_name", .text model)])
  | .modelExported model _ _ => some ("export", [("model_name", .text model)])
  | .requestCreated model _ => some ("infer_request", [("model_name", .text model)])
  | .inferenceCompleted succeeded => some ("inference", [("succeeded", .flag succeeded)])
  | .inferenceCancelled executor => some ("inference_cancelled", [("executor", .text executor)])
  | .modelImported device _ _ => some ("import", [("device", .text device)])
  | .pluginCreated device _ _ => some ("plugin", [("device", .text device)])
  | .passFinished .. => none
  | .pipelineFinished .. => none
  | .runningInline _ => none

def span? (notice : Notice) (spanName : String) : Option Span :=
  notice.spanParts?.map fun (name, fields) =>
    { name, level := notice.level, fields := ("span_name", .text spanName) :: fields }

end Notice

/-- A notice, and the names of the spans that were open, the outermost first. -/
structure Event where
  notice : Notice
  spans : List String := []
  deriving DecidableEq

def Event.inside (name : String) (events : List Event) : List Event :=
  events.map fun e => { e with spans := name :: e.spans }

end DevicePlugin
