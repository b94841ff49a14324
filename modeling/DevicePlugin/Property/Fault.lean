import DevicePlugin.Property.Value

/-!
# Why a property is refused
-/

namespace DevicePlugin

inductive ValueFault where
  | notFlag (value : PropertyValue)
  | notDevice (value : PropertyValue)
  | notCount (value : PropertyValue)
  | outOfRange (number : Nat)
  | noStreams
  /-- The whole text could not be read as properties. -/
  | unreadable
  deriving DecidableEq

inductive PropertyFault where
  | unknown (name : String)
  | invalid (name : String) (fault : ValueFault)
  deriving DecidableEq

def ValueFault.message : ValueFault → String
  | .notFlag value => "expected a boolean, got " ++ value.shown
  | .notDevice value => "expected a device number, got " ++ value.shown
  | .notCount value => "expected an unsigned integer, got " ++ value.shown
  | .outOfRange number => number.repr ++ " is out of range"
  | .noStreams => "stream count must be at least 1"
  | .unreadable => "not a readable document"

def PropertyFault.message : PropertyFault → String
  | .unknown name => "Unsupported property '" ++ name ++ "'"
  | .invalid name fault => "Invalid value for property '" ++ name ++ "': " ++ fault.message

end DevicePlugin
