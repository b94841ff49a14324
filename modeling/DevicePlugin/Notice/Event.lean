/-!
# Events and spans

What a log records: an event has a level, a message and named fields, and stands
within the spans that are open when it is logged.
-/

namespace DevicePlugin

inductive Level where
  | error
  | warn
  | info
  | debug
  deriving DecidableEq, Repr

def Level.name : Level → String
  | .error => "ERROR"
  | .warn => "WARN"
  | .info => "INFO"
  | .debug => "DEBUG"

inductive FieldValue where
  | text (value : String)
  | number (value : Nat)
  | flag (value : Bool)
  deriving DecidableEq, Repr

abbrev Fields := List (String × FieldValue)

structure Span where
  name : String
  level : Level
  fields : Fields
  deriving DecidableEq, Repr

end DevicePlugin
