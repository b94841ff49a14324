import DevicePlugin.Session.State

/-!
# Steps of a session

After each step every open inference is polled once, in the order in which they
were started. What happened meanwhile is reported with the step.
-/

namespace DevicePlugin.Session

namespace State

/-- What a step leads to before inferences are polled. -/
structure Effect where
  reply : Reply
  state : State
  events : List Event := []

def ok (s : State) (a : Answer) (events : List Event := []) : Effect := ⟨.answered (.ok a), s, events⟩

def fail (s : State) (f : Failure) (events : List Event := []) : Effect :=
  ⟨.answered (.error f), s, events⟩

def missing (s : State) (events : List Event := []) : Effect := ⟨.missing, s, events⟩

/-! ## Executors -/

def makeExecutor (s : State) (name : String) (kind : MakeExecutor) : Effect :=
  let keep (id : ExecutorId) (s : State) (events : List Event) : Effect :=
    let s := { s with executors := s.executors.insert name id }
    s.ok (s.executorAnswer id) events
  let add (name : String) (kind : ExecutorKind) : Effect :=
    match s.addExecutor name kind with
    | (id, s) => keep id s []
  match kind with
  | .parked => add name .parked
  | .counting => add name .counting
  | .dropping => add name .dropping
  | .immediate => add name .inline
  | .immediateDefault => add immediateName .inline
  | .fallback =>
    match s.fallbackExecutor name with
    | (id, s, events) => keep id s events
  | .pooled => if s.runtime then add name .pooled else s.ok .done

/-- Runs the oldest `count` tasks of a queue, and counts those that break off. -/
def runOldest (e : Engine Shared) (id : ExecutorId) : (count : Nat) → Engine Shared × Nat
  | 0 => (e, 0)
  | count + 1 =>
    match e.runQueued Shared.stages id 0 with
    | (e, panicked) =>
      match runOldest e id count with
      | (e, others) => (e, others + if panicked then 1 else 0)

def dropOldest (e : Engine Shared) (id : ExecutorId) : (count : Nat) → Engine Shared
  | 0 => e
  | count + 1 => dropOldest (e.dropQueued id 0) id count

def drain (s : State) (id : ExecutorId) (limit : Option Nat) (discard : Bool) : Effect :=
  let x := s.engine.executors id
  if x.kind ≠ .parked then s.ok .done
  else
    let count := min (limit.getD x.queue.length) x.queue.length
    if discard then { s with engine := dropOldest s.engine id count }.ok (.drained count 0)
    else
      match runOldest s.engine id count with
      | (engine, panicked) => { s with engine }.ok (.drained count panicked)

/-! ## Plugins -/

def pluginAnswer (s : State) (p : Owned) : Answer :=
  let waitExecutor := (s.engine.executors p.plugin.waitExecutor).name
  match p with
  | .host p => .plugin p waitExecutor none
  | .standard p => .plugin p.toPlugin waitExecutor (some p)

def makeHostPlugin (s : State) (name : String) (parts : MakePlugin) : Effect :=
  match s.executorOrImmediate parts.wait with
  | none => s.missing
  | some (wait, s) =>
    let p : Owned := .host
      { device := parts.device.getD "HOST"
        backend := parts.backend
        transformations := parts.transformations.getD (.pipeline [])
        waitExecutor := wait }
    let s := s.addPlugin name p
    s.ok (s.pluginAnswer p)

def makeStandardPlugin (s : State) (name : String) (parts : MakePlugin) : Effect :=
  match ({} : Configuration).build s.host parts.config with
  | .error fault => s.fail (.property fault)
  | .ok defaults =>
    match s.executorOrFallback standardWaitExecutor parts.wait with
    | none => s.missing
    | some (wait, next, waitEvents) =>
      match next.executorOrFallback standardTaskExecutor parts.task with
      | none => s.missing
      | some (task, next, taskEvents) =>
        let p : StandardPlugin :=
          { device := parts.device.getD standardDevice
            backend := parts.backend
            transformations := parts.transformations.getD (.pipeline [])
            waitExecutor := wait
            taskExecutor := task
            defaults }
        let created :=
          Notice.pluginCreated p.device p.backend.name (next.engine.executors wait).name
        let s := next.addPlugin name (.standard p)
        s.ok (s.pluginAnswer (.standard p)) (waitEvents ++ taskEvents ++ [{ notice := created }])

def setStreams (s : State) (name : String) (names : List String) : Effect :=
  match s.plugins.find? name with
  | some (id, .host p) =>
    { s with plugins := s.plugins.insert name (id, .host { p with streamNames := names }) }.ok .done
  | some (_, .standard _) => s.ok .done
  | none => s.missing

/-! ## Models -/

def makeModel (s : State) (name friendlyName : String) (steps : List ModelStep) : Effect :=
  match (Model.empty friendlyName).runWhileOk steps with
  | (.ok (), m) => { s with models := s.models.insert name m }.ok .done
  | (.error f, _) => s.fail f
  | (.panic, _) => ⟨.answered .panic, s, []⟩

def keepCompiled (s : State) (name : String) (result : Compilation CompiledModel)
    (answer : CompiledModel → Answer) : Effect :=
  let s := { s with calls := s.calls ++ result.calls }
  match result.outcome with
  | .error f => s.fail f result.events
  | .ok c => { s with compiled := s.compiled.insert name c }.ok (answer c) result.events

def compileDirectly (s : State) (parts : MakeCompiled) (owner : PluginId) (p : Plugin) (m : Model)
    (answer : CompiledModel → Answer) : Effect :=
  match s.executorOrImmediate parts.how.task with
  | none => s.missing
  | some (task, s) =>
    let config : Except PropertyFault Configuration :=
      match ({} : Configuration).build s.host parts.how.config with
      | .error fault => .error fault
      | .ok config => config.merged s.host parts.properties
    match config with
    | .error fault => s.fail (.property fault)
    | .ok config =>
      let context : RemoteContext := { device := parts.how.device, params := parts.how.params }
      s.keepCompiled parts.name
        (CompiledModel.create m owner p context task config parts.how.fromCache) answer

/-- A graph is copied before passes run over it, unless it was given away. -/
def compile (s : State) (parts : MakeCompiled) : Effect :=
  match s.plugins.find? parts.plugin, s.models.find? parts.model with
  | some (owner, p), some m =>
    let s := if parts.consume then { s with models := s.models.erase parts.model } else s
    let answer (c : CompiledModel) : Answer :=
      .compiled c (if parts.consume then none else some c.config.untransformed) none
    match p, parts.direct with
    | .standard p, false =>
      s.keepCompiled parts.name (p.compile s.host owner m parts.properties) answer
    | p, _ => s.compileDirectly parts owner p.plugin m answer
  | _, _ => s.missing

def originBytes (s : State) : StreamOrigin → Option Bytes
  | .given bytes => some bytes
  | .kept name => s.streams.find? name

def importModel (s : State) (plugin name : String) (origin : StreamOrigin) (source : Stream.Settings)
    (properties : PropertyMap) : Effect :=
  match s.plugins.find? plugin, s.originBytes origin with
  | some (owner, .standard p), some bytes =>
    match p.importFrom s.host owner (source.source bytes) properties with
    | (result, rest) =>
      s.keepCompiled name result fun c => .compiled c none (some rest.cursor.position)
  | _, _ => s.missing

def exportModel (s : State) (c : CompiledModel) (keep : Option String) (sink : Stream.Settings) :
    Effect :=
  match c.exportTo sink.behaviour sink.cursor with
  | (.error f, _, events) => s.fail f events
  | (.ok (), written, events) =>
    let s :=
      match keep with
      | none => s
      | some name => { s with streams := s.streams.insert name written.taken }
    s.ok (.bytes written.taken) events

/-! ## Requests -/

def keepRequest (s : State) (name : String) (h : Handle) : State :=
  { s with requests := s.requests.insert name h }

def makeAsync (s : State) (name : String) (id : RequestId) (task wait callback : ExecutorId)
    (events : List Event) : Effect :=
  let engine := s.engine.setRequest id
    { taskExecutor := task, waitExecutor := wait, callbackExecutor := callback }
  ({ s with engine }.keepRequest name (.async id)).ok .done events

def makeRequest (s : State) (name : String) (c : CompiledModel) (kind : MakeRequest) : Effect :=
  let created (asynchronous : Bool) : Event :=
    { notice := .requestCreated c.graph.friendlyName asynchronous }
  match s.addRequest { compiled := c } with
  | (id, next) =>
    match kind with
    | .sync => (next.keepRequest name (.sync id)).ok .done [created false]
    | .async =>
      match s.plugin? c.plugin with
      | none => s.fail .pluginReleased [created false]
      | some p =>
        match next.addExecutor CompiledModel.callbackExecutor .inline with
        | (callback, next) =>
          next.makeAsync name id c.taskExecutor p.waitExecutor callback [created false, created true]
    | .custom task wait callback =>
      match next.executorOrImmediate task with
      | none => s.missing [created false]
      | some (task, next) =>
        match next.executorOrImmediate wait with
        | none => s.missing [created false]
        | some (wait, next) =>
          match next.executorOrImmediate callback with
          | none => s.missing [created false]
          | some (callback, next) => next.makeAsync name id task wait callback [created false]

/-- Reads or changes a request, which on an asynchronous one needs an unpoisoned state. -/
def accessRequest (s : State) (h : Handle) (f : InferRequest → Except InferFault (Answer × InferRequest)) :
    Effect :=
  let act (id : RequestId) (shared : Shared) : Except Failure Answer × Shared :=
    match shared.requests id with
    | none => (.ok .done, shared)
    | some r =>
      match f r with
      | .error fault => (.error (.infer fault), shared)
      | .ok (a, r) => (.ok a, shared.setRequest id r)
  let finish (result : Except Failure Answer × Engine Shared) : Effect :=
    ⟨.answered (.ofExcept result.1), { s with engine := result.2 }, []⟩
  match h with
  | .async id => finish (s.engine.access id (act id))
  | .sync id =>
    match act id s.engine.state with
    | (a, state) => finish (a, { s.engine with state })

def runSync (s : State) (id : RequestId) (order : List InferStage) : Effect :=
  match (Shared.stages id).runEach order s.engine.state with
  | (outcome, state) =>
    ⟨.answered (outcome.map fun () => .done), { s with engine := { s.engine with state } }, []⟩

def runPools (e : Engine Shared) : (executors : List ExecutorId) → Engine Shared
  | [] => e
  | id :: rest =>
    let x := e.executors id
    runPools (if x.kind = .pooled then (runOldest e id x.queue.length).1 else e) rest

/-- Polls one inference and runs the pools in turns. A turn sees at least one of its three tasks
through, and a fourth turn finds the answer of the last. -/
def driveInference (e : Engine Shared) (pools : List ExecutorId) (id : InferenceId) :
    (turns : Nat) → Engine Shared
  | 0 => e
  | turns + 1 =>
    let e := e.poll Shared.stages true id
    if (e.inferences id).phase.isOpen then driveInference (runPools e pools) pools id turns else e

def phaseOutcome : Phase → Outcome Failure Unit
  | .settled result => .ofExcept result
  | _ => .panic

/-- Starts an inference. Within a runtime it is seen through before the step answers. -/
def inferAsync (s : State) (id : RequestId) (label : String) : Effect :=
  let inference := s.engine.started
  let engine := s.engine.infer id
  if s.runtime then
    let engine := driveInference engine (List.range s.nextExecutor) inference 4
    let outcome := phaseOutcome (engine.inferences inference).phase
    ⟨.answered (outcome.map fun () => .done), { s with engine }, []⟩
  else { s with engine, labels := s.labels ++ [(inference, label)] }.ok .done

def onRequest (s : State) (h : Handle) (step : RequestStep) : Effect :=
  match step, h with
  | .setTensor name t, h =>
    match t with
    | .error fault => s.fail (.infer (.tensor fault))
    | .ok t => s.accessRequest h fun r => (r.setTensor name t).map fun r => (.done, r)
  | .getTensor name, h => s.accessRequest h fun r => (r.getTensor name).map fun t => (.tensor t, r)
  | .profile, h => s.accessRequest h fun r => .ok (.profile r.profile, r)
  | .shownModel, h => s.accessRequest h fun r => .ok (.text r.compiled.shown, r)
  | .stage stage, .sync id => s.runSync id [stage]
  | .infer _, .sync id => s.runSync id [.preprocess, .start, .wait, .postprocess]
  | .infer label, .async id => s.inferAsync id label
  | .cancel, .async id => { s with engine := s.engine.cancel id }.ok .done
  | .callback label, .async id => { s with engine := s.engine.setCallback id { label } }.ok .done
  | _, _ => s.missing

/-! ## All steps -/

def withCompiled (s : State) (name : String) (f : CompiledModel → Effect) : Effect :=
  match s.compiled.find? name with
  | none => s.missing
  | some c => f c

def perform (s : State) : Step → Effect
  | .executor name kind => s.makeExecutor name kind
  | .executorState name =>
    match s.executors.find? name with
    | none => s.missing
    | some id => s.ok (s.executorAnswer id)
  | .drain name limit discard =>
    match s.executors.find? name with
    | none => s.missing
    | some id => s.drain id limit discard
  | .plugin name parts =>
    if parts.isHost then s.makeHostPlugin name parts else s.makeStandardPlugin name parts
  | .setStreams plugin names => s.setStreams plugin names
  | .dropPlugin plugin =>
    if s.plugins.contains plugin then (s.releasePlugin plugin).ok .done else s.missing
  | .passCalls => s.ok (.calls (.tally s.calls))
  | .model name friendlyName steps => s.makeModel name friendlyName steps
  | .dumpModel name =>
    match s.models.find? name with
    | none => s.missing
    | some m => s.ok (.model m)
  | .compile parts => s.compile parts
  | .importModel plugin name origin source properties =>
    s.importModel plugin name origin source properties
  | .exportModel compiled keep sink => s.withCompiled compiled fun c => s.exportModel c keep sink
  | .getProperty compiled name => s.withCompiled compiled fun c =>
    match c.getProperty (s.plugin? c.plugin) name with
    | .error f => s.fail f
    | .ok v => s.ok (.value name v)
  | .setProperty compiled properties => s.withCompiled compiled fun c =>
    match c.setProperty properties with
    | (.error f, events) => s.fail f events
    | (.ok (), events) => s.ok .done events
  | .compiled compiled => s.withCompiled compiled fun c =>
    s.ok (.inspected c (s.plugin? c.plugin).isSome)
  | .request name compiled kind => s.withCompiled compiled fun c => s.makeRequest name c kind
  | .onRequest request step =>
    match s.requests.find? request with
    | none => s.missing
    | some h => s.onRequest h step

def pollAll (s : State) : State :=
  let isOpen (id : InferenceId) : Bool := (s.engine.inferences id).phase.isOpen
  let ids := (List.range s.engine.started).filter isOpen
  { s with engine := ids.foldl (fun e id => e.poll Shared.stages true id) s.engine }

/-- Inferences that ended, in order. Those that have no label have been answered already. -/
def settled (s : State) : List (String × Outcome Failure Unit) :=
  s.engine.trace.filterMap fun
    | .ended id =>
      (s.labels.find? fun p => p.1 = id).map fun p => (p.2, phaseOutcome (s.engine.inferences id).phase)
    | _ => none

def callbacks (s : State) : List (String × InferResult) :=
  s.engine.trace.filterMap fun
    | .called _ callback result => some (callback.label, result)
    | _ => none

def notices (s : State) : List Event :=
  s.engine.trace.filterMap fun
    | .logged _ notice => some { notice }
    | _ => none

/-- A step, with everything that happened since the one before. -/
def step (s : State) (st : Step) : Report × State :=
  let effect := s.perform st
  let s := effect.state.pollAll
  (⟨effect.reply, s.settled, s.callbacks, effect.events ++ s.notices⟩,
    { s with engine := { s.engine with trace := [] } })

def run (s : State) : List Step → List Report
  | [] => []
  | st :: rest =>
    let (report, next) := s.step st
    report :: next.run rest

end State

end DevicePlugin.Session
