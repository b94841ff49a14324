import DevicePlugin.Property.Yaml

/-!
# Scripts over a configuration

Steps that lay properties over one configuration. A step that fails changes
nothing.
-/

namespace DevicePlugin

inductive ConfigStep where
  | apply (properties : PropertyMap) (strict : Bool)
  | merge (properties : PropertyMap)
  | yaml (text : String)
  | reset
  | get (name : String)

inductive ConfigAnswer where
  | config (c : Configuration)
  | value (name : String) (v : PropertyValue)

namespace Configuration

def applyYaml (host : Host) (defaults : Configuration) (text : String) :
    Except PropertyFault Configuration :=
  match PropertyMap.ofYaml? text with
  | none => .error (.invalid "<configuration>" .unreadable)
  | some properties => defaults.apply host properties true

/-- A new configuration, or what stays of the old one. -/
def replaced (c : Configuration) :
    Except PropertyFault Configuration → Except PropertyFault ConfigAnswer × Configuration
  | .ok next => (.ok (.config next), next)
  | .error fault => (.error fault, c)

def step (host : Host) (c : Configuration) : ConfigStep → Except PropertyFault ConfigAnswer × Configuration
  | .apply properties strict => c.replaced (c.apply host properties strict)
  | .merge properties => c.replaced (c.merged host properties)
  | .yaml text => c.replaced (c.applyYaml host text)
  | .reset => c.replaced (.ok {})
  | .get name => ((c.get name).map (.value name), c)

def run (host : Host) (c : Configuration) :
    List ConfigStep → List (Except PropertyFault ConfigAnswer) × Configuration
  | [] => ([], c)
  | s :: steps =>
    let (answer, next) := c.step host s
    let (answers, last) := next.run host steps
    (answer :: answers, last)

/-- The configuration after all steps, if none of them fails. -/
def build (host : Host) (c : Configuration) : List ConfigStep → Except PropertyFault Configuration
  | [] => .ok c
  | s :: steps =>
    match c.step host s with
    | (.error fault, _) => .error fault
    | (.ok _, next) => next.build host steps

end Configuration

inductive StreamsStep where
  | set (name : String) (value : PropertyValue)
  | get (name : String)
  | isSupported (name : String)

inductive StreamsAnswer where
  | state (c : StreamsConfig)
  | value (name : String) (v : PropertyValue)
  | supported (yes : Bool)

namespace StreamsConfig

def step (host : Host) (c : StreamsConfig) : StreamsStep → Except PropertyFault StreamsAnswer × StreamsConfig
  | .set name value =>
    match c.setProperty host name value with
    | .ok next => (.ok (.state next), next)
    | .error fault => (.error fault, c)
  | .get name => ((c.getProperty name).map (.value name), c)
  | .isSupported name => (.ok (.supported (isSupported name)), c)

def run (host : Host) (c : StreamsConfig) :
    List StreamsStep → List (Except PropertyFault StreamsAnswer) × StreamsConfig
  | [] => ([], c)
  | s :: steps =>
    let (answer, next) := c.step host s
    let (answers, last) := next.run host steps
    (answer :: answers, last)

end StreamsConfig

end DevicePlugin
