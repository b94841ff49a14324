import DevicePlugin.Graph.Script
import DevicePlugin.Transformation.Basic

/-!
# Scripted passes

Passes whose behaviour is given in full: they mark nodes, run a script of edits,
fail in a chosen way, or break off.
-/

namespace DevicePlugin.Transformation

def visitedKey : String := "visited"

/-- Marks every node, and reports a change if one was not marked before. -/
def markVisited : PassBody := fun m =>
  let mark (n : Node) : Node := { n with attributes := n.attributes.insert visitedKey "true" }
  ({ m with nodes := m.nodes.map mark },
    .ok (m.nodes.any fun n => !n.attributes.contains visitedKey))

/-- Runs a script. The first step that fails is the failure of the pass. -/
def edits (steps : List ModelStep) (changed : Bool) : PassBody := fun m =>
  match m.runWhileOk steps with
  | (.ok (), next) => (next, .ok changed)
  | (.error failure, next) => (next, .error (.ofText failure.message))
  | (.panic, next) => (next, .panic)

def failing (error : ErrorChain) : PassBody := fun m => (m, .error error)

def breakingOff : PassBody := fun m => (m, .panic)

end DevicePlugin.Transformation
