import DevicePlugin.Compiled.Model

/-!
# Properties of a compiled model

Seven names are answered by the compiled model itself, every other one by its
configuration. None of them can be changed any more.
-/

namespace DevicePlugin

inductive Metric where
  | modelName
  | supportedProperties
  | executionDevices
  | loadedFromCache
  | optimalRequests
  | supportedMetrics
  | supportedConfigKeys
  deriving DecidableEq, Repr

namespace Metric

def all : List Metric :=
  [.modelName, .supportedProperties, .executionDevices, .loadedFromCache, .optimalRequests,
    .supportedMetrics, .supportedConfigKeys]

def name : Metric → String
  | .modelName => "model_name"
  | .supportedProperties => "supported_properties"
  | .executionDevices => "execution_devices"
  | .loadedFromCache => "loaded_from_cache"
  | .optimalRequests => "optimal_number_of_infer_requests"
  | .supportedMetrics => "SUPPORTED_METRICS"
  | .supportedConfigKeys => "SUPPORTED_CONFIG_KEYS"

def ofName? (name : String) : Option Metric := all.find? fun m => m.name = name

@[simp] theorem ofName?_name (m : Metric) : ofName? m.name = some m := by
  cases m <;> decide

end Metric

namespace CompiledModel

def readOnlyProperties : List PropertyName :=
  [Metric.modelName, .supportedProperties, .executionDevices, .loadedFromCache,
    .optimalRequests].map fun m => .readOnly m.name

/-- The properties that a host sets when it compiles. -/
def readWriteProperties : List PropertyName :=
  [Setting.deviceId, .profiling].map fun s => .readWrite s.name

def metric (c : CompiledModel) (plugin : Option Plugin) : Metric → Except Failure PropertyValue
  | .supportedMetrics =>
    .ok (.texts (readOnlyProperties.map PropertyName.name ++
      [Metric.supportedMetrics.name, Metric.supportedConfigKeys.name]))
  | .supportedConfigKeys =>
    match plugin with
    | none => .error .pluginReleased
    | some p => .ok (.texts (readWriteProperties.map PropertyName.name ++ p.streamNames))
  | .modelName => .ok (.text c.graph.friendlyName)
  | .loadedFromCache => .ok (.bool c.fromCache)
  | .executionDevices =>
    match plugin with
    | none => .error .pluginReleased
    | some p => .ok (.text (p.device ++ "." ++ c.config.deviceId.toNat.repr))
  | .optimalRequests => .ok (.ofNat32 c.config.streams.streams)
  | .supportedProperties => .ok (.names (readOnlyProperties ++ readWriteProperties))

/-- The answer for a name. `plugin` is the owner, if it is not released. -/
def getProperty (c : CompiledModel) (plugin : Option Plugin) (name : String) :
    Except Failure PropertyValue :=
  match Metric.ofName? name with
  | some m => c.metric plugin m
  | none => (c.config.get name).mapError Failure.property

def setProperty (c : CompiledModel) (properties : PropertyMap) : Except Failure Unit × List Event :=
  (.error (.notImplemented "set_property"),
    [{ notice := .mutationRejected c.graph.friendlyName properties.size }])

end CompiledModel

end DevicePlugin
