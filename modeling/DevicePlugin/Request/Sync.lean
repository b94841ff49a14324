import DevicePlugin.Compiled.Model

/-!
# Inference requests

A request binds tensors to the parameters of a compiled model and runs it in
four stages: check the inputs, evaluate, check what came out, publish it. Only
the last stage changes the outputs that can be read, and it publishes nothing
that was not handed to it by an evaluation.
-/

namespace DevicePlugin

inductive InferStage where
  | preprocess
  | start
  | wait
  | postprocess
  deriving DecidableEq, Repr

def InferStage.title : InferStage → String
  | .preprocess => "input preprocessing"
  | .start => "execution start"
  | .wait => "execution wait"
  | .postprocess => "output postprocessing"

structure InferRequest where
  compiled : CompiledModel
  inputs : Dict Tensor := .empty
  outputs : Dict Tensor := .empty
  /-- What an evaluation has put out and nobody has published. -/
  pending : Option (Dict Tensor) := none
  /-- The stages that finished since the inputs were last checked. -/
  profile : List InferStage := []

namespace InferRequest

def graph (r : InferRequest) : Model := r.compiled.graph

def record (r : InferRequest) (stage : InferStage) : InferRequest :=
  if r.compiled.config.profiling then { r with profile := r.profile ++ [stage] } else r

/-! ## Tensors -/

/-- Binds a tensor to the parameter of that name, whose descriptor it must have. -/
def setTensor (r : InferRequest) (name : String) (t : Tensor) : Except InferFault InferRequest :=
  match r.graph.parameters.find? fun p => p.name = name with
  | none => .error (.noInput name)
  | some p =>
    if t.desc = p.desc then .ok { r with inputs := r.inputs.insert name t }
    else .error (.wrongInput name p.desc t.desc)

/-- Inputs come before outputs. -/
def getTensor (r : InferRequest) (name : String) : Except InferFault Tensor :=
  match (r.inputs.find? name).or (r.outputs.find? name) with
  | some t => .ok t
  | none => .error (.noTensor name)

/-! ## Stages -/

/-- Forgets the last inference, and asks for every parameter's tensor. -/
def preprocess (r : InferRequest) : Except InferFault Unit × InferRequest :=
  let fresh := { r with profile := [], pending := none }
  match r.graph.parameters.find? fun p => !r.inputs.contains p.name with
  | some p => (.error (.inputNotSet p.name), fresh)
  | none => (.ok (), fresh.record .preprocess)

/-- Evaluates the graph. `device` is the backend of the plugin, if it is not released. -/
def start (r : InferRequest) (device : Option Device) :
    Outcome Failure Unit × InferRequest × Option Device :=
  match device with
  | none => (.error .pluginReleased, r, none)
  | some d =>
    match d.evaluate r.graph r.inputs with
    | (.ok outputs, d) =>
      (.ok (), ({ r with pending := some outputs } : InferRequest).record .start, some d)
    | (.error e, d) => (.error (.infer (.backend d.backend.name e)), r, some d)
    | (.panic, d) => (.panic, r, some d)

/-- The first result that has no tensor, or one of another descriptor. -/
def checkOutputs (outputs : Dict Tensor) : List Node → Except InferFault Unit
  | [] => .ok ()
  | result :: results =>
    match outputs.find? result.name with
    | none => .error (.missingOutput result.name)
    | some t =>
      if t.desc = result.desc then checkOutputs outputs results
      else .error (.wrongOutput result.name t.desc.shape result.desc.shape)

def wait (r : InferRequest) : Except InferFault Unit × InferRequest :=
  match r.pending with
  | none => (.error .notStarted, r)
  | some outputs =>
    match checkOutputs outputs r.graph.results with
    | .error fault => (.error fault, r)
    | .ok () => (.ok (), r.record .wait)

def postprocess (r : InferRequest) : Except InferFault Unit × InferRequest :=
  match r.pending with
  | none => (.error .notStarted, r)
  | some outputs =>
    (.ok (), ({ r with pending := none, outputs } : InferRequest).record .postprocess)

end InferRequest

structure Served where
  request : InferRequest
  device : Option Device

namespace Served

def runLocal (s : Served) (run : InferRequest → Except InferFault Unit × InferRequest) :
    Outcome Failure Unit × Served :=
  match run s.request with
  | (.ok (), request) => (.ok (), { s with request })
  | (.error fault, request) => (.error (.infer fault), { s with request })

def start (s : Served) : Outcome Failure Unit × Served :=
  match s.request.start s.device with
  | (outcome, request, device) => (outcome, { request, device })

end Served

/-- Something that can be run in four stages. The stages act on a state, and may fail or break
off. -/
structure Stages (σ : Type) where
  run : InferStage → σ → Outcome Failure Unit × σ

namespace Stages

variable {σ : Type}

/-- Runs stages in order, up to the first that does not succeed. -/
def runEach (stages : Stages σ) : List InferStage → σ → Outcome Failure Unit × σ
  | [], s => (.ok (), s)
  | stage :: rest, s =>
    match stages.run stage s with
    | (.ok (), s) => stages.runEach rest s
    | (.error failure, s) => (.error failure, s)
    | (.panic, s) => (.panic, s)

def infer (stages : Stages σ) : σ → Outcome Failure Unit × σ :=
  stages.runEach [.preprocess, .start, .wait, .postprocess]

end Stages

def Served.stages : Stages Served where
  run
    | .preprocess, s => s.runLocal InferRequest.preprocess
    | .start, s => s.start
    | .wait, s => s.runLocal InferRequest.wait
    | .postprocess, s => s.runLocal InferRequest.postprocess

end DevicePlugin
