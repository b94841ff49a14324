import DevicePlugin.Request.Sync

/-!
# Asynchronous inference

An inference hands its work over in three tasks, each to an executor of its own:
preparing and starting, waiting and publishing, and calling the user back. It is
advanced by polling. One inference of a request runs at a time; whoever starts a
second one is told that the request is busy.

Cancelling trips the token that the running inference holds and puts a new one
in its place. A tripped inference hands over nothing more. Tasks that were handed
over before are not taken back: they run, and nobody listens.
-/

namespace DevicePlugin

abbrev RequestId := Nat

abbrev InferenceId := Nat

/-- What a cancellation trips. The tokens of one request are numbered in the order in which they are
made. -/
abbrev CancelToken := Nat

/-- What a user wants to be told with the result of an inference. -/
structure Callback where
  label : String
  panics : Bool := false
  deriving DecidableEq

inductive Hop where
  | start
  | finish
  | notify
  deriving DecidableEq, Repr

abbrev InferResult := Except Failure Unit

inductive Work where
  | start
  | finish
  | notify (callback : Callback) (result : InferResult)

def Work.hop : Work → Hop
  | .start => .start
  | .finish => .finish
  | .notify .. => .notify

structure Task where
  request : RequestId
  inference : InferenceId
  work : Work

inductive Reply where
  | waiting
  | delivered (result : InferResult)
  /-- The task was given up, or broke off. -/
  | dropped

inductive Phase where
  | created
  /-- Waits for a task that it has handed over. -/
  | awaiting (hop : Hop) (reply : Reply)
  | settled (result : InferResult)
  /-- Broke off while it was polled. -/
  | panicked
  | abandoned

/-- Whether an inference is past the check for a busy request and has not ended. -/
def Phase.isActive : Phase → Bool
  | .awaiting _ _ => true
  | _ => false

/-- Whether polling can still change something. -/
def Phase.isOpen : Phase → Bool
  | .created => true
  | .awaiting _ _ => true
  | _ => false

structure Inference where
  request : RequestId
  token : CancelToken := 0
  phase : Phase := .created

/-- What a request knows beside the state that its stages act on. -/
structure AsyncRequest where
  taskExecutor : ExecutorId := 0
  waitExecutor : ExecutorId := 0
  callbackExecutor : ExecutorId := 0
  callback : Option Callback := none
  token : CancelToken := 0
  tripped : List CancelToken := []
  inFlight : Bool := false
  /-- A stage broke off and left the state unusable. -/
  poisoned : Bool := false

def AsyncRequest.executor (r : AsyncRequest) : Hop → ExecutorId
  | .start => r.taskExecutor
  | .finish => r.waitExecutor
  | .notify => r.callbackExecutor

/-- What can be observed of inferences, in the order in which it happens. -/
inductive Happening where
  | submitted (inference : InferenceId) (hop : Hop) (executor : ExecutorId)
  /-- The stages of a hop were run on the request's state. -/
  | ran (request : RequestId) (inference : InferenceId) (hop : Hop) (outcome : Outcome Failure Unit)
  | called (inference : InferenceId) (callback : Callback) (result : InferResult)
  | logged (inference : InferenceId) (notice : Notice)
  | ended (inference : InferenceId)

/-- Requests, inferences and executors by number, and the state that all stages act on. -/
structure Engine (σ : Type) where
  state : σ
  requests : RequestId → AsyncRequest := fun _ => {}
  inferences : InferenceId → Inference := fun _ => { request := 0 }
  /-- How many inferences were made; they are numbered from zero. -/
  started : Nat := 0
  executors : ExecutorId → Executor Task := fun _ => { name := "", kind := .parked }
  trace : List Happening := []

namespace Engine

variable {σ : Type}

/-! ## Parts -/

def setRequest (e : Engine σ) (id : RequestId) (r : AsyncRequest) : Engine σ :=
  { e with requests := fun i => if i = id then r else e.requests i }

def setInference (e : Engine σ) (id : InferenceId) (i : Inference) : Engine σ :=
  { e with inferences := fun j => if j = id then i else e.inferences j }

def setExecutor (e : Engine σ) (id : ExecutorId) (x : Executor Task) : Engine σ :=
  { e with executors := fun j => if j = id then x else e.executors j }

def setPhase (e : Engine σ) (id : InferenceId) (phase : Phase) : Engine σ :=
  e.setInference id { e.inferences id with phase }

def note (e : Engine σ) (h : Happening) : Engine σ := { e with trace := e.trace ++ [h] }

/-! ## Tasks -/

/-- Puts what became of a task into the hands of its inference, if that still waits for it. -/
def answer (e : Engine σ) (t : Task) (reply : Reply) : Engine σ :=
  match (e.inferences t.inference).phase with
  | .awaiting hop .waiting =>
    if hop = t.work.hop then e.setPhase t.inference (.awaiting hop reply) else e
  | _ => e

/-- Runs stages on the state, which is not touched any more after one has broken off. -/
def runStages (stages : Stages σ) (order : List InferStage) (e : Engine σ) (t : Task) :
    Engine σ × Bool :=
  let r := e.requests t.request
  if r.poisoned then (e.answer t (.delivered (.error (.infer .poisoned))), false)
  else
    match stages.runEach order e.state with
    | (outcome, state) =>
      let e := { e with state }.note (.ran t.request t.inference t.work.hop outcome)
      match outcome with
      | .ok () => (e.answer t (.delivered (.ok ())), false)
      | .error failure => (e.answer t (.delivered (.error failure)), false)
      | .panic => ((e.setRequest t.request { r with poisoned := true }).answer t .dropped, true)

def runTask (stages : RequestId → Stages σ) (e : Engine σ) (t : Task) : Engine σ × Bool :=
  match t.work with
  | .start => runStages (stages t.request) [.preprocess, .start] e t
  | .finish => runStages (stages t.request) [.wait, .postprocess] e t
  | .notify callback result =>
    let e := e.note (.called t.inference callback result)
    if callback.panics then (e.answer t .dropped, true)
    else (e.answer t (.delivered result), false)

def dropTask (e : Engine σ) (t : Task) : Engine σ := e.answer t .dropped

/-- Hands a task to an executor. The second answer tells whether it broke off on the spot. -/
def submit (stages : RequestId → Stages σ) (e : Engine σ) (id : ExecutorId) (t : Task) :
    Engine σ × Bool :=
  let x := e.executors id
  let e := e.note (.submitted t.inference t.work.hop id)
  match x.kind with
  | .inline => runTask stages e t
  | .counting => runTask stages (e.setExecutor id { x with runs := x.runs + 1 }) t
  | .parked => (e.setExecutor id { x with queue := x.queue ++ [t] }, false)
  | .pooled => (e.setExecutor id { x with queue := x.queue ++ [t] }, false)
  | .dropping => (e.dropTask t, false)

/-! ## Polling -/

def finish (e : Engine σ) (id : InferenceId) (phase : Phase) : Engine σ :=
  let rid := (e.inferences id).request
  ((e.setPhase id phase).setRequest rid { e.requests rid with inFlight := false }).note (.ended id)

def settle (e : Engine σ) (id : InferenceId) (result : InferResult) : Engine σ :=
  e.finish id (.settled result)

def isTripped (e : Engine σ) (id : InferenceId) : Bool :=
  let i := e.inferences id
  (e.requests i.request).tripped.contains i.token

inductive Found where
  | nothing
  | cancelled
  | result (r : InferResult)

/-- If the token is tripped and the task has an answer as well, `preferReply` decides. -/
def look (e : Engine σ) (preferReply : Bool) (id : InferenceId) : Found :=
  let i := e.inferences id
  match i.phase with
  | .awaiting hop reply =>
    let answered : Found :=
      match reply with
      | .waiting => .nothing
      | .delivered r => .result r
      | .dropped =>
        .result (.error (.infer
          (.droppedTask (e.executors ((e.requests i.request).executor hop)).name)))
    if e.isTripped id then
      match reply with
      | .waiting => .cancelled
      | _ => if preferReply then answered else .cancelled
    else answered
  | _ => .nothing

inductive HandedOver (σ : Type) where
  | refused
  | waiting (e : Engine σ)
  /-- The work broke off on the spot, and the inference with it. -/
  | brokeOff (e : Engine σ)

def handOver (stages : RequestId → Stages σ) (e : Engine σ) (id : InferenceId) (work : Work) :
    HandedOver σ :=
  if e.isTripped id then .refused
  else
    let rid := (e.inferences id).request
    let e := e.setPhase id (.awaiting work.hop .waiting)
    match e.submit stages ((e.requests rid).executor work.hop) ⟨rid, id, work⟩ with
    | (e, false) => .waiting e
    | (e, true) =>
      -- An executor that runs tasks at once lets the break-off through to whoever polls.
      .brokeOff (e.finish id .panicked)

/-- Looks at the callback's task. Neither a cancelled nor a dropped callback is logged. -/
def afterNotify (preferReply : Bool) (e : Engine σ) (id : InferenceId) : Engine σ :=
  match e.look preferReply id with
  | .nothing => e
  | .cancelled => e.settle id (.error .cancelled)
  | .result r =>
    match (e.inferences id).phase with
    | .awaiting _ (.delivered _) =>
      (e.note (.logged id (.inferenceCompleted r.isOk))).settle id r
    | _ => e.settle id r

/-- The stages are over with a result. -/
def conclude (stages : RequestId → Stages σ) (preferReply : Bool) (e : Engine σ) (id : InferenceId)
    (result : InferResult) : Engine σ :=
  let r := e.requests (e.inferences id).request
  if result matches .error .cancelled then
    (e.note (.logged id (.inferenceCancelled (e.executors r.taskExecutor).name))).settle id result
  else
    match r.callback with
    | none => (e.note (.logged id (.inferenceCompleted result.isOk))).settle id result
    | some callback =>
      match e.handOver stages id (.notify callback result) with
      | .refused => e.settle id (.error .cancelled)
      | .brokeOff e => e
      | .waiting e => e.afterNotify preferReply id

def afterFinish (stages : RequestId → Stages σ) (preferReply : Bool) (e : Engine σ)
    (id : InferenceId) : Engine σ :=
  match e.look preferReply id with
  | .nothing => e
  | .cancelled => e.conclude stages preferReply id (.error .cancelled)
  | .result r => e.conclude stages preferReply id r

def afterStart (stages : RequestId → Stages σ) (preferReply : Bool) (e : Engine σ)
    (id : InferenceId) : Engine σ :=
  match e.look preferReply id with
  | .nothing => e
  | .cancelled => e.conclude stages preferReply id (.error .cancelled)
  | .result (.error failure) => e.conclude stages preferReply id (.error failure)
  | .result (.ok ()) =>
    match e.handOver stages id .finish with
    | .refused => e.conclude stages preferReply id (.error .cancelled)
    | .brokeOff e => e
    | .waiting e => e.afterFinish stages preferReply id

/-- The first poll: takes the request, or finds it taken. -/
def begin (stages : RequestId → Stages σ) (preferReply : Bool) (e : Engine σ) (id : InferenceId) :
    Engine σ :=
  let i := e.inferences id
  let r := e.requests i.request
  if r.inFlight then (e.setPhase id (.settled (.error .busy))).note (.ended id)
  else
    let e := (e.setRequest i.request { r with inFlight := true }).setInference id
      { i with token := r.token }
    match e.handOver stages id .start with
    | .refused => e.conclude stages preferReply id (.error .cancelled)
    | .brokeOff e => e
    | .waiting e => e.afterStart stages preferReply id

def poll (stages : RequestId → Stages σ) (preferReply : Bool) (e : Engine σ) (id : InferenceId) :
    Engine σ :=
  match (e.inferences id).phase with
  | .created => e.begin stages preferReply id
  | .awaiting .start _ => e.afterStart stages preferReply id
  | .awaiting .finish _ => e.afterFinish stages preferReply id
  | .awaiting .notify _ => e.afterNotify preferReply id
  | _ => e

/-! ## Calls on a request -/

def infer (e : Engine σ) (rid : RequestId) : Engine σ :=
  { e.setInference e.started { request := rid } with started := e.started + 1 }

def cancel (e : Engine σ) (rid : RequestId) : Engine σ :=
  let r := e.requests rid
  e.setRequest rid { r with tripped := r.token :: r.tripped, token := r.token + 1 }

def setCallback (e : Engine σ) (rid : RequestId) (callback : Callback) : Engine σ :=
  e.setRequest rid { e.requests rid with callback := some callback }

def abandon (e : Engine σ) (id : InferenceId) : Engine σ :=
  match (e.inferences id).phase with
  | .created => (e.setPhase id .abandoned).note (.ended id)
  | .awaiting _ _ => e.finish id .abandoned
  | _ => e

/-- Does something with the state, which must not be poisoned. -/
def access {α : Type} (e : Engine σ) (rid : RequestId) (f : σ → Except Failure α × σ) :
    Except Failure α × Engine σ :=
  if (e.requests rid).poisoned then (.error (.infer .poisoned), e)
  else
    match f e.state with
    | (answer, state) => (answer, { e with state })

/-! ## Running what is queued -/

def takeTask (e : Engine σ) (id : ExecutorId) (position : Nat) : Option (Task × Engine σ) :=
  let x := e.executors id
  x.queue[position]?.map fun t => (t, e.setExecutor id { x with queue := x.queue.eraseIdx position })

def runQueued (stages : RequestId → Stages σ) (e : Engine σ) (id : ExecutorId) (position : Nat) :
    Engine σ × Bool :=
  match e.takeTask id position with
  | none => (e, false)
  | some (t, e) => e.runTask stages t

def dropQueued (e : Engine σ) (id : ExecutorId) (position : Nat) : Engine σ :=
  match e.takeTask id position with
  | none => e
  | some (t, e) => e.dropTask t

/-! ## Histories -/

/-- Everything that can happen to an engine from outside. Nothing comes of polling or giving up an
inference that was never made. -/
inductive Step (σ : Type) where
  | infer (request : RequestId)
  | poll (inference : InferenceId) (preferReply : Bool)
  | abandon (inference : InferenceId)
  | cancel (request : RequestId)
  | setCallback (request : RequestId) (callback : Callback)
  | runQueued (executor : ExecutorId) (position : Nat)
  | dropQueued (executor : ExecutorId) (position : Nat)
  /-- A change of the state from outside, such as binding a tensor. -/
  | access (request : RequestId) (change : σ → σ)

def step (stages : RequestId → Stages σ) (e : Engine σ) : Step σ → Engine σ
  | .infer rid => e.infer rid
  | .poll id preferReply => if id < e.started then e.poll stages preferReply id else e
  | .abandon id => if id < e.started then e.abandon id else e
  | .cancel rid => e.cancel rid
  | .setCallback rid callback => e.setCallback rid callback
  | .runQueued id position => (e.runQueued stages id position).1
  | .dropQueued id position => e.dropQueued id position
  | .access rid change => (e.access rid fun s => (.ok (), change s)).2

def steps (stages : RequestId → Stages σ) (e : Engine σ) (history : List (Step σ)) : Engine σ :=
  history.foldl (step stages) e

end Engine

end DevicePlugin
