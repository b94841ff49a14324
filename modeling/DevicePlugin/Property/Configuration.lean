import DevicePlugin.Property.Streams

/-!
# Configuration

Six recognized settings, and whatever else was given while unknown names were
allowed. New properties are laid over an older configuration one by one, in the
order of their names; the first that is refused refuses them all.
-/

namespace DevicePlugin

inductive Setting where
  | deviceId
  | profiling
  | untransformed
  | stream (option : StreamOption)
  deriving DecidableEq, Repr

namespace Setting

def all : List Setting :=
  [.deviceId, .profiling, .untransformed] ++ StreamOption.all.map .stream

def name : Setting → String
  | .deviceId => "device_id"
  | .profiling => "enable_profiling"
  | .untransformed => "disable_transformations"
  | .stream option => option.name

def ofName? (name : String) : Option Setting :=
  all.find? fun s => s.name = name

theorem name_of_ofName? {name : String} {s : Setting} (h : ofName? name = some s) : s.name = name := by
  simpa using List.find?_some h

@[simp] theorem ofName?_name (s : Setting) : ofName? s.name = some s := by
  cases s with
  | deviceId => decide
  | profiling => decide
  | untransformed => decide
  | stream option => cases option <;> decide

end Setting

structure Configuration where
  deviceId : UInt32 := 0
  profiling : Bool := false
  /-- Compile models as they are, without transformations. -/
  untransformed : Bool := false
  streams : StreamsConfig := {}
  /-- Values stored under names that are no setting. -/
  extra : PropertyMap := .empty
  deriving DecidableEq

namespace Configuration

def readDevice (name : String) (value : PropertyValue) : Except PropertyFault UInt32 :=
  match value.asNat? with
  | none => .error (.invalid name (.notDevice value))
  | some n => if n < UInt32.size then .ok (UInt32.ofNat n) else .error (.invalid name (.outOfRange n))

def readFlag (name : String) (value : PropertyValue) : Except PropertyFault Bool :=
  match value.asBool? with
  | none => .error (.invalid name (.notFlag value))
  | some b => .ok b

def assign (host : Host) (c : Configuration) (setting : Setting) (value : PropertyValue) :
    Except PropertyFault Configuration :=
  match setting with
  | .deviceId => (readDevice setting.name value).map fun n => { c with deviceId := n }
  | .profiling => (readFlag setting.name value).map fun b => { c with profiling := b }
  | .untransformed => (readFlag setting.name value).map fun b => { c with untransformed := b }
  | .stream option => (c.streams.assign host option value).map fun s => { c with streams := s }

/-- One property over a configuration. A strict reading refuses unknown names. -/
def put (host : Host) (strict : Bool) (c : Configuration) (name : String) (value : PropertyValue) :
    Except PropertyFault Configuration :=
  match Setting.ofName? name with
  | some setting => c.assign host setting value
  | none =>
    if strict then .error (.unknown name) else .ok { c with extra := c.extra.insert name value }

def putAll (host : Host) (strict : Bool) :
    Configuration → List (String × PropertyValue) → Except PropertyFault Configuration
  | c, [] => .ok c
  | c, (name, value) :: rest =>
    match c.put host strict name value with
    | .error fault => .error fault
    | .ok c => putAll host strict c rest

def apply (host : Host) (defaults : Configuration) (properties : PropertyMap) (strict : Bool) :
    Except PropertyFault Configuration :=
  putAll host strict defaults properties.entries

/-- Overrides, which may name only settings. -/
def merged (host : Host) (c : Configuration) (overrides : PropertyMap) :
    Except PropertyFault Configuration :=
  c.apply host overrides true

def setting (c : Configuration) : Setting → PropertyValue
  | .deviceId => .ofNat32 c.deviceId
  | .profiling => .bool c.profiling
  | .untransformed => .bool c.untransformed
  | .stream option => c.streams.get option

def get (c : Configuration) (name : String) : Except PropertyFault PropertyValue :=
  match Setting.ofName? name with
  | some s => .ok (c.setting s)
  | none =>
    match c.extra.find? name with
    | some value => .ok value
    | none => .error (.unknown name)

end Configuration

end DevicePlugin
