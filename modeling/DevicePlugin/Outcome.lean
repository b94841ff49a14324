/-!
# Outcomes

What a call ends in when the code it calls may also break off without an answer.
-/

namespace DevicePlugin

inductive Outcome (ε α : Type) where
  | ok (value : α)
  | error (fault : ε)
  /-- Broken off; nothing is answered. -/
  | panic
  deriving DecidableEq

namespace Outcome

variable {ε α β : Type}

def ofExcept : Except ε α → Outcome ε α
  | .ok value => .ok value
  | .error fault => .error fault

def bind : Outcome ε α → (α → Outcome ε β) → Outcome ε β
  | .ok value, next => next value
  | .error fault, _ => .error fault
  | .panic, _ => .panic

def map (f : α → β) : Outcome ε α → Outcome ε β
  | .ok value => .ok (f value)
  | .error fault => .error fault
  | .panic => .panic

end Outcome

end DevicePlugin
