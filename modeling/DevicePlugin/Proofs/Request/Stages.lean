import DevicePlugin.Session.State

/-!
# Tasks on a request

The first task of an inference checks the inputs and evaluates the graph; the
second checks what the evaluation left and publishes it. On the state that all
requests share, they touch one request and count the evaluations of its backend.
-/

namespace DevicePlugin

namespace InferRequest

def unset (r : InferRequest) : Option Node := r.graph.parameters.find? fun p => !r.inputs.contains p.name

def forgotten (r : InferRequest) : InferRequest := { r with profile := [], pending := none }

def begun (r : InferRequest) : InferRequest := r.forgotten.record .preprocess

def evaluated (r : InferRequest) (outputs : Dict Tensor) : InferRequest :=
  ({ r.begun with pending := some outputs } : InferRequest).record .start

def published (r : InferRequest) (outputs : Dict Tensor) : InferRequest :=
  ({ r.record .wait with pending := none, outputs } : InferRequest).record .postprocess

@[simp] theorem record_compiled (r : InferRequest) (stage : InferStage) :
    (r.record stage).compiled = r.compiled := by
  unfold record
  split <;> rfl

@[simp] theorem record_inputs (r : InferRequest) (stage : InferStage) : (r.record stage).inputs = r.inputs := by
  unfold record
  split <;> rfl

@[simp] theorem record_outputs (r : InferRequest) (stage : InferStage) : (r.record stage).outputs = r.outputs := by
  unfold record
  split <;> rfl

@[simp] theorem record_pending (r : InferRequest) (stage : InferStage) : (r.record stage).pending = r.pending := by
  unfold record
  split <;> rfl

theorem record_graph (r : InferRequest) (stage : InferStage) : (r.record stage).graph = r.graph := by
  rw [graph, record_compiled, graph]

end InferRequest

namespace Served

open InferRequest

def counted (d : Device) : Device := { d with evaluations := d.evaluations + 1 }

theorem preprocess_of_unset {r : InferRequest} {p : Node} (h : r.unset = some p) :
    r.preprocess = (.error (.inputNotSet p.name), r.forgotten) := by
  unfold preprocess
  rw [unset] at h
  simp only [h]
  rfl

theorem runEach_start_unset {r : InferRequest} {p : Node} (h : r.unset = some p) (d : Option Device) :
    stages.runEach [.preprocess, .start] ⟨r, d⟩ = (.error (.infer (.inputNotSet p.name)), ⟨r.forgotten, d⟩) := by
  simp only [Stages.runEach, stages, runLocal, preprocess_of_unset h]

theorem preprocess_of_set {r : InferRequest} (h : r.unset = none) : r.preprocess = (.ok (), r.begun) := by
  unfold preprocess
  rw [unset] at h
  simp only [h]
  rfl

theorem runEach_start_released {r : InferRequest} (h : r.unset = none) :
    stages.runEach [.preprocess, .start] ⟨r, none⟩ = (.error .pluginReleased, ⟨r.begun, none⟩) := by
  simp only [Stages.runEach, stages, runLocal, preprocess_of_set h, Served.start, InferRequest.start]

theorem start_some (r : InferRequest) (d : Device) :
    r.start (some d) =
      match d.backend.evaluate d.evaluations r.graph r.inputs with
      | .ok outputs =>
        (.ok (), ({ r with pending := some outputs } : InferRequest).record .start, some (counted d))
      | .error error => (.error (.infer (.backend d.backend.name error)), r, some (counted d))
      | .panic => (.panic, r, some (counted d)) := by
  unfold InferRequest.start Device.evaluate
  simp only
  generalize d.backend.evaluate d.evaluations r.graph r.inputs = answer
  cases answer <;> rfl

theorem runEach_start_set {r : InferRequest} (h : r.unset = none) (d : Device) :
    stages.runEach [.preprocess, .start] ⟨r, some d⟩ =
      match d.backend.evaluate d.evaluations r.graph r.inputs with
      | .ok outputs => (.ok (), ⟨r.evaluated outputs, some (counted d)⟩)
      | .error error => (.error (.infer (.backend d.backend.name error)), ⟨r.begun, some (counted d)⟩)
      | .panic => (.panic, ⟨r.begun, some (counted d)⟩) := by
  have hevaluate : d.backend.evaluate d.evaluations r.begun.graph r.begun.inputs =
      d.backend.evaluate d.evaluations r.graph r.inputs := by
    rw [begun, record_graph, record_inputs]
    rfl
  simp only [Stages.runEach, stages, runLocal, preprocess_of_set h, Served.start]
  rw [start_some, hevaluate]
  cases d.backend.evaluate d.evaluations r.graph r.inputs <;> rfl

theorem runEach_finish (r : InferRequest) (d : Option Device) :
    stages.runEach [.wait, .postprocess] ⟨r, d⟩ =
      match r.pending with
      | none => (.error (.infer .notStarted), ⟨r, d⟩)
      | some outputs =>
        match checkOutputs outputs r.graph.results with
        | .error fault => (.error (.infer fault), ⟨r, d⟩)
        | .ok () => (.ok (), ⟨r.published outputs, d⟩) := by
  simp only [Stages.runEach, stages, runLocal, wait]
  cases hpending : r.pending with
  | none => rfl
  | some outputs =>
    simp only
    cases checkOutputs outputs r.graph.results with
    | error fault => rfl
    | ok value => simp only [postprocess, record_pending, hpending, published]

/-! ## What stages leave alone -/

theorem preprocess_compiled (r : InferRequest) : r.preprocess.2.compiled = r.compiled := by
  unfold preprocess
  simp only
  split
  · rfl
  · exact record_compiled _ _

theorem start_compiled (r : InferRequest) (d : Option Device) : (r.start d).2.1.compiled = r.compiled := by
  cases d with
  | none => rfl
  | some d =>
    rw [start_some]
    split
    · exact record_compiled _ _
    · rfl
    · rfl

theorem start_backend (r : InferRequest) (d : Option Device) :
    (r.start d).2.2.map Device.backend = d.map Device.backend := by
  cases d with
  | none => rfl
  | some d =>
    rw [start_some]
    split <;> rfl

theorem wait_compiled (r : InferRequest) : r.wait.2.compiled = r.compiled := by
  unfold wait
  split
  · rfl
  · split
    · rfl
    · exact record_compiled _ _

theorem postprocess_compiled (r : InferRequest) : r.postprocess.2.compiled = r.compiled := by
  unfold postprocess
  split
  · rfl
  · exact record_compiled _ _

theorem runLocal_request (s : Served) (run : InferRequest → Except InferFault Unit × InferRequest) :
    (s.runLocal run).2 = { s with request := (run s.request).2 } := by
  unfold runLocal
  split <;> simp [*]

theorem run_compiled (stage : InferStage) (s : Served) :
    (stages.run stage s).2.request.compiled = s.request.compiled := by
  cases stage with
  | preprocess => simp only [stages, runLocal_request, preprocess_compiled]
  | start => exact start_compiled s.request s.device
  | wait => simp only [stages, runLocal_request, wait_compiled]
  | postprocess => simp only [stages, runLocal_request, postprocess_compiled]

theorem run_backend (stage : InferStage) (s : Served) :
    (stages.run stage s).2.device.map Device.backend = s.device.map Device.backend := by
  cases stage with
  | preprocess => simp only [stages, runLocal_request]
  | start => exact start_backend s.request s.device
  | wait => simp only [stages, runLocal_request]
  | postprocess => simp only [stages, runLocal_request]

end Served

/-! ## The shared state -/

namespace Shared

def served (s : Shared) (r : InferRequest) : Served := ⟨r, s.devices r.compiled.plugin⟩

theorem runEach_missing {s : Shared} {id : RequestId} (h : s.requests id = none) (order : List InferStage) :
    (stages id).runEach order s = (.ok (), s) := by
  induction order with
  | nil => rfl
  | cons stage rest ih => simp only [Stages.runEach, stages, serve, h] at ih ⊢; exact ih

theorem run_eq {s : Shared} {id : RequestId} {r : InferRequest} (h : s.requests id = some r)
    (stage : InferStage) :
    (stages id).run stage s =
      ((Served.stages.run stage (s.served r)).1,
        (s.setRequest id (Served.stages.run stage (s.served r)).2.request).setDevice r.compiled.plugin
          (Served.stages.run stage (s.served r)).2.device) := by
  simp only [stages, serve, h]
  rfl

/-- On the shared state stages do what they do on their request and its backend. -/
theorem runEach_spec {id : RequestId} (order : List InferStage) {s : Shared} {r : InferRequest}
    (h : s.requests id = some r) :
    ((stages id).runEach order s).1 = (Served.stages.runEach order (s.served r)).1 ∧
      ((stages id).runEach order s).2.requests id =
        some (Served.stages.runEach order (s.served r)).2.request ∧
      ((stages id).runEach order s).2.devices r.compiled.plugin =
        (Served.stages.runEach order (s.served r)).2.device := by
  induction order generalizing s r with
  | nil => exact ⟨rfl, h, rfl⟩
  | cons stage rest ih =>
    have hcompiled := Served.run_compiled stage (s.served r)
    simp only [Stages.runEach]
    rw [run_eq h]
    generalize Served.stages.run stage (s.served r) = ran at hcompiled
    obtain ⟨outcome, served⟩ := ran
    let next := (s.setRequest id served.request).setDevice r.compiled.plugin served.device
    have hnext : next.requests id = some served.request := by simp [next, setDevice, setRequest]
    have hplugin : served.request.compiled.plugin = r.compiled.plugin := by rw [hcompiled]; rfl
    have hdevice : next.devices r.compiled.plugin = served.device := by simp [next, setDevice]
    cases outcome with
    | ok value =>
      have hrest := ih hnext
      rw [Shared.served, hplugin, hdevice] at hrest
      exact hrest
    | error failure => exact ⟨rfl, hnext, hdevice⟩
    | panic => exact ⟨rfl, hnext, hdevice⟩

/-- Stages of one request change no other request, and no backend. -/
theorem runEach_frame (id : RequestId) (order : List InferStage) (s : Shared) :
    (∀ i, i ≠ id → ((stages id).runEach order s).2.requests i = s.requests i) ∧
      ∀ p, (((stages id).runEach order s).2.devices p).map Device.backend = (s.devices p).map Device.backend := by
  induction order generalizing s with
  | nil => exact ⟨fun _ _ => rfl, fun _ => rfl⟩
  | cons stage rest ih =>
    cases h : s.requests id with
    | none =>
      rw [runEach_missing h]
      exact ⟨fun _ _ => rfl, fun _ => rfl⟩
    | some r =>
      have hbackend := Served.run_backend stage (s.served r)
      simp only [Stages.runEach]
      rw [run_eq h]
      generalize Served.stages.run stage (s.served r) = ran at hbackend
      obtain ⟨outcome, served⟩ := ran
      let next := (s.setRequest id served.request).setDevice r.compiled.plugin served.device
      have hrequests (i : RequestId) (hi : i ≠ id) : next.requests i = s.requests i := by
        simp [next, setDevice, setRequest, hi]
      have hdevices (p : PluginId) : (next.devices p).map Device.backend = (s.devices p).map Device.backend := by
        simp only [next, setDevice, setRequest]
        split
        · rename_i hp
          rw [hp]
          exact hbackend
        · rfl
      cases outcome with
      | ok value =>
        obtain ⟨hrest, hrest'⟩ := ih next
        exact ⟨fun i hi => (hrest i hi).trans (hrequests i hi), fun p => (hrest' p).trans (hdevices p)⟩
      | error failure => exact ⟨hrequests, hdevices⟩
      | panic => exact ⟨hrequests, hdevices⟩

end Shared

end DevicePlugin
