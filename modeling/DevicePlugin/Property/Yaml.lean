import DevicePlugin.Property.Configuration
import DevicePlugin.Property.Untyped
import DevicePlugin.Yaml.Value

/-!
# Properties in YAML

A text holds at most one document, a mapping of names to values.
-/

namespace DevicePlugin.PropertyMap

/-- Reads a YAML text; a repeated key keeps its last value. -/
def ofYaml? (text : String) : Option PropertyMap := do
  let members ← (← Yaml.Document.ofText? text).members?
  let entries ← members.mapM fun (name, value) => do
    return (name, ← PropertyValue.ofUntyped? value)
  return Dict.ofList entries

end DevicePlugin.PropertyMap
