import DevicePlugin.Property.Fault

/-!
# Stream settings

How many streams and threads inference may use. The stream count may be left to
the host, which answers with its parallelism.
-/

namespace DevicePlugin

structure Host where
  parallelism : UInt32
  deriving DecidableEq, Repr

inductive StreamOption where
  | count
  | threads
  | threadsPerStream
  deriving DecidableEq, Repr

namespace StreamOption

def all : List StreamOption := [.count, .threads, .threadsPerStream]

def name : StreamOption → String
  | .count => "num_streams"
  | .threads => "inference_num_threads"
  | .threadsPerStream => "threads_per_stream"

def ofName? (name : String) : Option StreamOption :=
  all.find? fun o => o.name = name

theorem name_of_ofName? {name : String} {o : StreamOption} (h : ofName? name = some o) :
    o.name = name := by
  simpa using List.find?_some h

@[simp] theorem ofName?_name (o : StreamOption) : ofName? o.name = some o := by
  cases o <;> decide

end StreamOption

structure StreamsConfig where
  name : String := "TemplateStreamsExecutor"
  streams : UInt32 := 1
  threads : UInt32 := 0
  threadsPerStream : UInt32 := 0
  deriving DecidableEq, Repr

namespace StreamsConfig

/-- The option names, in the order in which they are reported. -/
def supportedNames : List String := StreamOption.all.map StreamOption.name

def isSupported (name : String) : Bool := (StreamOption.ofName? name).isSome

def readCount (name : String) (value : PropertyValue) : Except PropertyFault UInt32 :=
  match value.asNat? with
  | none => .error (.invalid name (.notCount value))
  | some n => if n < UInt32.size then .ok (UInt32.ofNat n) else .error (.invalid name (.outOfRange n))

/-- The word `AUTO`, in any ASCII case and with nothing beside it. -/
def isAuto (value : PropertyValue) : Bool :=
  match value with
  | .text s => s.toList.map Char.toUpper = "AUTO".toList
  | _ => false

def readStreams (host : Host) (value : PropertyValue) : Except PropertyFault UInt32 :=
  if isAuto value then .ok host.parallelism
  else
    match readCount StreamOption.count.name value with
    | .error fault => .error fault
    | .ok n => if n = 0 then .error (.invalid StreamOption.count.name .noStreams) else .ok n

def get (c : StreamsConfig) : StreamOption → PropertyValue
  | .count => .ofNat32 c.streams
  | .threads => .ofNat32 c.threads
  | .threadsPerStream => .ofNat32 c.threadsPerStream

def assign (host : Host) (c : StreamsConfig) (option : StreamOption) (value : PropertyValue) :
    Except PropertyFault StreamsConfig :=
  match option with
  | .count => (readStreams host value).map fun n => { c with streams := n }
  | .threads => (readCount option.name value).map fun n => { c with threads := n }
  | .threadsPerStream => (readCount option.name value).map fun n => { c with threadsPerStream := n }

def setProperty (host : Host) (c : StreamsConfig) (name : String) (value : PropertyValue) :
    Except PropertyFault StreamsConfig :=
  match StreamOption.ofName? name with
  | some option => c.assign host option value
  | none => .error (.unknown name)

def getProperty (c : StreamsConfig) (name : String) : Except PropertyFault PropertyValue :=
  match StreamOption.ofName? name with
  | some option => .ok (c.get option)
  | none => .error (.unknown name)

end StreamsConfig

end DevicePlugin
