import DevicePlugin.ErrorChain
import DevicePlugin.Graph.Model
import DevicePlugin.Notice.Lifecycle
import DevicePlugin.Outcome
import DevicePlugin.Text.Quoted

/-!
# Transformations

A transformation works on a model and says whether it changed it; it may also
fail or break off, and then leaves the model as far as it got. A pipeline runs
its passes in order up to the first that does not succeed. Passes that keep a
memory of their own work on the model and this memory together.
-/

namespace DevicePlugin

abbrev PassBody (μ : Type := Model) := μ → μ × Outcome ErrorChain Bool

inductive Transformation (μ : Type := Model) where
  | pass (name : String) (body : PassBody μ)
  | pipeline (passes : List (Transformation μ))

/-- A run of a transformation: the model it leaves, how it ends, the passes that ran, by name and
in order, and what was logged. -/
structure TransformationRun (μ : Type := Model) where
  model : μ
  ending : Outcome ErrorChain Bool
  calls : List String
  notices : List Notice

namespace Transformation

variable {μ : Type}

def pipelineName : String := "TransformationPipeline"

def name : Transformation μ → String
  | .pass name _ => name
  | .pipeline _ => pipelineName

def context (name : String) : String := "while running pass '" ++ name ++ "'"

mutual

def run : Transformation μ → μ → TransformationRun μ
  | .pass name body, m =>
    match body m with
    | (next, ending) => ⟨next, ending, [name], []⟩
  | .pipeline passes, m => runPasses passes false m

/-- Runs passes in order. `changed` tells whether an earlier one reported a change. -/
def runPasses : List (Transformation μ) → (changed : Bool) → μ → TransformationRun μ
  | [], changed, m => ⟨m, .ok changed, [], []⟩
  | p :: passes, changed, m =>
    match p.run m with
    | ⟨next, .ok c, calls, notices⟩ =>
      match runPasses passes (changed || c) next with
      | ⟨last, ending, calls', notices'⟩ =>
        ⟨last, ending, calls ++ calls', notices ++ .passFinished p.name c :: notices'⟩
    | ⟨next, .error e, calls, notices⟩ => ⟨next, .error (e.within (context p.name)), calls, notices⟩
    | ⟨next, .panic, calls, notices⟩ => ⟨next, .panic, calls, notices⟩

end

def shownPipeline (passes : List Transformation) : String :=
  pipelineName ++ " \x7b passes: " ++ Text.bracketed (passes.map fun p => Text.quoted p.name) ++ " \x7d"

end Transformation

end DevicePlugin
