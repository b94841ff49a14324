import DevicePlugin.Plugin.Backend
import DevicePlugin.Property.Configuration
import DevicePlugin.Request.Executor
import DevicePlugin.Transformation.Basic

/-!
# Plugins

What a compiled model needs of the plugin that owns it, and the plugin that also
has defaults of its own.
-/

namespace DevicePlugin

abbrev PluginId := Nat

structure Plugin where
  device : String
  backend : Backend
  transformations : Transformation
  waitExecutor : ExecutorId
  /-- The option names that the plugin's streams executor reports at present. -/
  streamNames : List String := StreamsConfig.supportedNames

structure RemoteContext where
  device : String
  params : PropertyMap := .empty

def standardDevice : String := "TEMPLATE"

/-- The names of the executors that a plugin gets when it brings none. -/
def standardWaitExecutor : String := "TemplateWaitExecutor"

def standardTaskExecutor : String := "TemplateTaskExecutor"

structure StandardPlugin extends Plugin where
  taskExecutor : ExecutorId
  defaults : Configuration

def StandardPlugin.defaultContext (p : StandardPlugin) : RemoteContext := { device := p.device }

end DevicePlugin
