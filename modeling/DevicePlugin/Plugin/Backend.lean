import DevicePlugin.ErrorChain
import DevicePlugin.Graph.Model
import DevicePlugin.Outcome
import DevicePlugin.Tensor.Data

/-!
# Backends

A backend evaluates a model on named inputs. What it answers may depend on how
often it was asked before; a pure backend's answer does not.
-/

namespace DevicePlugin

structure Backend where
  name : String
  /-- The answer to the evaluation that comes after so many others. -/
  evaluate : Nat → Model → Dict Tensor → Outcome ErrorChain (Dict Tensor)

/-- Answers that depend on the model and the inputs alone. -/
def Backend.Pure (b : Backend) : Prop := ∀ i j, b.evaluate i = b.evaluate j

/-- A backend together with the number of evaluations it has made. -/
structure Device where
  backend : Backend
  evaluations : Nat := 0

def Device.evaluate (d : Device) (m : Model) (inputs : Dict Tensor) :
    Outcome ErrorChain (Dict Tensor) × Device :=
  (d.backend.evaluate d.evaluations m inputs, { d with evaluations := d.evaluations + 1 })

end DevicePlugin
