import DevicePlugin.Proofs.Request.Sound
import DevicePlugin.Proofs.Request.Stages
import DevicePlugin.Session.Step

/-!
# What a cancelled inference leaves behind

A task that was handed over runs, even when its inference was cancelled meanwhile.
No inference hears of it, but it acts on the request as every task does: its
second task publishes what the last evaluation has put out.
-/

namespace DevicePlugin

namespace Engine

def getTensor (e : Engine Shared) (rid : RequestId) (name : String) : Except Failure Tensor :=
  if (e.requests rid).poisoned then .error (.infer .poisoned)
  else
    match e.state.requests rid with
    | none => .error (.infer (.noTensor name))
    | some r => (r.getTensor name).mapError .infer

theorem getTensor_eq {e : Engine Shared} {rid : RequestId} {r : InferRequest}
    (hpoisoned : (e.requests rid).poisoned = false) (hr : e.state.requests rid = some r) (name : String) :
    e.getTensor rid name = (r.getTensor name).mapError .infer := by
  simp only [getTensor, hpoisoned, hr]
  rfl

end Engine

/-- This is what a session answers when it is asked for a tensor. -/
theorem Session.State.reply_getTensor {s : Session.State} {rid : RequestId} {r : InferRequest}
    (hr : s.engine.state.requests rid = some r) (name : String) :
    (s.onRequest (.async rid) (.getTensor name)).reply =
      .answered (.ofExcept ((s.engine.getTensor rid name).map .tensor)) := by
  simp only [onRequest, accessRequest, Engine.access, Engine.getTensor, hr]
  cases (s.engine.requests rid).poisoned with
  | true => rfl
  | false => cases r.getTensor name <;> rfl

namespace InferRequest

/-- The second task would publish tensors that can be told from those that can be read now. -/
def Publishes (r : InferRequest) : Prop :=
  ∃ outputs, r.pending = some outputs ∧ checkOutputs outputs r.graph.results = .ok () ∧
    ∃ name, r.inputs.find? name = none ∧ outputs.find? name ≠ r.outputs.find? name

def BreaksOff (r : InferRequest) (device : Option Device) : Prop :=
  r.unset = none ∧ ∃ d, device = some d ∧ d.backend.evaluate d.evaluations r.graph r.inputs = .panic

theorem getTensor_congr {r r' : InferRequest} (hinputs : r'.inputs = r.inputs)
    (houtputs : r'.outputs = r.outputs) (name : String) : r'.getTensor name = r.getTensor name := by
  rw [getTensor, getTensor, hinputs, houtputs]

theorem getTensor_ne_poisoned (r : InferRequest) (name : String) :
    (r.getTensor name).mapError Failure.infer ≠ .error (.infer .poisoned) := by
  unfold getTensor
  split <;> simp [Except.mapError]

theorem getTensor_inj {r r' : InferRequest} {name : String} :
    (r'.getTensor name).mapError Failure.infer = (r.getTensor name).mapError Failure.infer ↔
      (r'.inputs.find? name).or (r'.outputs.find? name) = (r.inputs.find? name).or (r.outputs.find? name) := by
  unfold getTensor
  generalize (r'.inputs.find? name).or (r'.outputs.find? name) = given
  generalize (r.inputs.find? name).or (r.outputs.find? name) = old
  cases given <;> cases old <;> simp [Except.mapError]

theorem getTensor_published {r : InferRequest} (outputs : Dict Tensor) :
    (∀ name, ((r.published outputs).getTensor name).mapError Failure.infer =
        (r.getTensor name).mapError Failure.infer) ↔
      ∀ name, r.inputs.find? name = none → outputs.find? name = r.outputs.find? name := by
  refine forall_congr' fun name => ?_
  rw [getTensor_inj, published, record_inputs, record_outputs, record_inputs]
  cases r.inputs.find? name <;> simp

end InferRequest

def Work.Disturbs (r : InferRequest) (device : Option Device) : Work → Prop
  | .start => r.BreaksOff device
  | .finish => r.Publishes
  | .notify _ _ => False

namespace Engine

open InferRequest

theorem getTensor_answer (e : Engine Shared) (t : Task) (reply : Reply) (rid : RequestId) (name : String) :
    (e.answer t reply).getTensor rid name = e.getTensor rid name := by
  rw [answer_eq]
  rfl

theorem getTensor_runStages {e : Engine Shared} {t : Task} {r : InferRequest}
    (hpoisoned : (e.requests t.request).poisoned = false) (hr : e.state.requests t.request = some r)
    (order : List InferStage) (name : String) :
    (runStages (Shared.stages t.request) order e t).1.getTensor t.request name =
      match Served.stages.runEach order (e.state.served r) with
      | (.panic, _) => .error (.infer .poisoned)
      | (_, served) => (served.request.getTensor name).mapError .infer := by
  obtain ⟨houtcome, hrequest, -⟩ := Shared.runEach_spec order hr
  generalize hran : (Shared.stages t.request).runEach order e.state = ran at houtcome hrequest
  generalize Served.stages.runEach order (e.state.served r) = served at houtcome hrequest
  obtain ⟨outcome, state⟩ := ran
  obtain ⟨outcome', served⟩ := served
  cases houtcome
  rw [runStages_eq _ _ hpoisoned hran, getTensor_answer]
  let next : Engine Shared := ({ e with state } : Engine Shared).note (.ran t.request t.inference t.work.hop outcome)
  cases outcome with
  | ok value => exact getTensor_eq (e := next) hpoisoned hrequest name
  | error failure => exact getTensor_eq (e := next) hpoisoned hrequest name
  | panic => simp [marked, setRequest, getTensor]

/-- Stages that end with the inputs and outputs they found, and do not break off, are not seen. -/
theorem getTensor_runStages_of_kept {e : Engine Shared} {t : Task} {r : InferRequest}
    (hpoisoned : (e.requests t.request).poisoned = false) (hr : e.state.requests t.request = some r)
    {order : List InferStage} {outcome : Outcome Failure Unit} {served : Served}
    (hran : Served.stages.runEach order (e.state.served r) = (outcome, served)) (houtcome : outcome ≠ .panic)
    (hinputs : served.request.inputs = r.inputs) (houtputs : served.request.outputs = r.outputs)
    (name : String) :
    (runStages (Shared.stages t.request) order e t).1.getTensor t.request name = e.getTensor t.request name := by
  rw [getTensor_runStages hpoisoned hr, getTensor_eq hpoisoned hr, hran]
  rw [← getTensor_congr hinputs houtputs]
  cases outcome with
  | ok value => rfl
  | error failure => rfl
  | panic => exact absurd rfl houtcome

theorem getTensor_start {e : Engine Shared} {t : Task} {r : InferRequest}
    (hpoisoned : (e.requests t.request).poisoned = false) (hr : e.state.requests t.request = some r) :
    (∀ name, (runStages (Shared.stages t.request) [.preprocess, .start] e t).1.getTensor t.request name =
        e.getTensor t.request name) ↔ ¬ r.BreaksOff (e.state.devices r.compiled.plugin) := by
  have hbegun : r.begun.inputs = r.inputs ∧ r.begun.outputs = r.outputs :=
    ⟨record_inputs _ _, record_outputs _ _⟩
  cases hunset : r.unset with
  | some p =>
    refine iff_of_true (getTensor_runStages_of_kept hpoisoned hr
      (Served.runEach_start_unset hunset _) nofun rfl rfl) ?_
    rintro ⟨hset, -⟩
    rw [hunset] at hset
    cases hset
  | none =>
    cases hdevice : e.state.devices r.compiled.plugin with
    | none =>
      have hran := Served.runEach_start_released hunset
      rw [← hdevice] at hran
      refine iff_of_true (getTensor_runStages_of_kept hpoisoned hr hran nofun hbegun.1 hbegun.2) ?_
      rintro ⟨-, d, hd, -⟩
      cases hd
    | some d =>
      have hran := Served.runEach_start_set hunset d
      rw [← hdevice] at hran
      have hbreaks : r.BreaksOff (some d) ↔ d.backend.evaluate d.evaluations r.graph r.inputs = .panic := by
        simp [BreaksOff, hunset]
      rw [hbreaks]
      cases hanswer : d.backend.evaluate d.evaluations r.graph r.inputs with
      | ok outputs =>
        rw [hanswer] at hran
        refine iff_of_true (getTensor_runStages_of_kept hpoisoned hr hran nofun ?_ ?_) nofun
        · exact (record_inputs _ _).trans hbegun.1
        · exact (record_outputs _ _).trans hbegun.2
      | error error =>
        rw [hanswer] at hran
        exact iff_of_true (getTensor_runStages_of_kept hpoisoned hr hran nofun hbegun.1 hbegun.2) nofun
      | panic =>
        rw [hanswer] at hran
        refine iff_of_false ?_ (not_not_intro rfl)
        intro hsame
        have hname := hsame ""
        rw [getTensor_runStages hpoisoned hr, getTensor_eq hpoisoned hr, Shared.served, hran] at hname
        exact getTensor_ne_poisoned r "" hname.symm

theorem getTensor_finish {e : Engine Shared} {t : Task} {r : InferRequest}
    (hpoisoned : (e.requests t.request).poisoned = false) (hr : e.state.requests t.request = some r) :
    (∀ name, (runStages (Shared.stages t.request) [.wait, .postprocess] e t).1.getTensor t.request name =
        e.getTensor t.request name) ↔ ¬ r.Publishes := by
  have hran := Served.runEach_finish r (e.state.devices r.compiled.plugin)
  cases hpending : r.pending with
  | none =>
    rw [hpending] at hran
    refine iff_of_true (getTensor_runStages_of_kept hpoisoned hr hran nofun rfl rfl) ?_
    rintro ⟨outputs, houtputs, -⟩
    rw [hpending] at houtputs
    cases houtputs
  | some outputs =>
    rw [hpending] at hran
    simp only at hran
    cases hcheck : checkOutputs outputs r.graph.results with
    | error fault =>
      rw [hcheck] at hran
      refine iff_of_true (getTensor_runStages_of_kept hpoisoned hr hran nofun rfl rfl) ?_
      rintro ⟨outputs', houtputs, hcheck', -⟩
      rw [hpending] at houtputs
      cases houtputs
      rw [hcheck] at hcheck'
      cases hcheck'
    | ok value =>
      rw [hcheck] at hran
      have hread (name : String) :
          (runStages (Shared.stages t.request) [.wait, .postprocess] e t).1.getTensor t.request name =
            ((r.published outputs).getTensor name).mapError .infer := by
        rw [getTensor_runStages hpoisoned hr, Shared.served, hran]
      simp only [hread, getTensor_eq hpoisoned hr]
      rw [getTensor_published]
      simp [Publishes, hpending, hcheck]

/-- Exactly these tasks change what can be read of their request. -/
theorem getTensor_runTask {e : Engine Shared} {t : Task} {r : InferRequest}
    (hr : e.state.requests t.request = some r) :
    (∀ name, (e.runTask Shared.stages t).1.getTensor t.request name = e.getTensor t.request name) ↔
      ¬ ((e.requests t.request).poisoned = false ∧ t.work.Disturbs r (e.state.devices r.compiled.plugin)) := by
  cases hpoisoned : (e.requests t.request).poisoned with
  | true =>
    refine iff_of_true ?_ (by simp)
    intro name
    unfold runTask
    split
    · rw [runStages_poisoned _ _ hpoisoned, getTensor_answer]
    · rw [runStages_poisoned _ _ hpoisoned, getTensor_answer]
    · simp only
      split <;> exact getTensor_answer _ _ _ _ _
  | false =>
    rw [eq_self, true_and]
    unfold runTask
    split
    · rename_i hwork
      rw [hwork]
      exact getTensor_start hpoisoned hr
    · rename_i hwork
      rw [hwork]
      exact getTensor_finish hpoisoned hr
    · rename_i hwork
      rw [hwork]
      refine iff_of_true ?_ (by simp [Work.Disturbs])
      intro name
      simp only
      split <;> exact getTensor_answer _ _ _ _ _

/-- Nobody hears of a task whose inference has ended. -/
theorem runTask_inferences {σ : Type} (stages : RequestId → Stages σ) {e : Engine σ} {t : Task}
    {result : InferResult} (hphase : (e.inferences t.inference).phase = .settled result) :
    (e.runTask stages t).1.inferences = e.inferences := by
  obtain ⟨e', reply, halike, -, heq, -⟩ := runTask_answers stages e t
  have hsettled : (e'.inferences t.inference).phase = .settled result := by rw [halike.inferences, hphase]
  have hsame : e'.answer t reply = e' := by
    rw [answer_eq, hsettled]
    have := setPhase_self e' t.inference
    rw [hsettled] at this
    exact this
  rw [heq, hsame, halike.inferences]

/-- Whenever the task of a cancelled inference runs, it was the last one on its way, and no inference
hears of it. What can be read of the request stays the same, unless the task publishes what an
evaluation has put out, or its own evaluation breaks off. -/
theorem getTensor_runQueued_cancelled {e : Engine Shared} (he : e.Reachable Shared.stages)
    {x : ExecutorId} {position : Nat} {t : Task} {rest : Engine Shared}
    (htake : e.takeTask x position = some (t, rest))
    (hphase : (e.inferences t.inference).phase = .settled (.error .cancelled)) {rid : RequestId}
    (hrid : (e.inferences t.inference).request = rid) {r : InferRequest} (hr : e.state.requests rid = some r) :
    let e' := (e.runQueued Shared.stages x position).1
    (∀ y, ∀ t' ∈ (e'.executors y).queue, t'.inference ≠ t.inference) ∧ e'.inferences = e.inferences ∧
      ((∀ name, e'.getTensor rid name = e.getTensor rid name) ↔
        ¬ ((e.requests rid).poisoned = false ∧ t.work.Disturbs r (e.state.devices r.compiled.plugin))) := by
  have htaken : Sound rest (some t) := he.sound.take htake
  have hrun : (e.runQueued Shared.stages x position).1 = (rest.runTask Shared.stages t).1 := by
    unfold runQueued
    rw [htake]
  obtain ⟨hmem, executor, rfl⟩ := takeTask_eq htake
  have howned : t.request = rid := (he.sound.owned t (.inr ⟨x, hmem⟩)).trans hrid
  subst howned
  intro e'
  simp only [e', hrun]
  refine ⟨?_, runTask_inferences Shared.stages hphase, getTensor_runTask (e := e.setExecutor x executor) hr⟩
  intro y t' ht'
  obtain ⟨ran, reply, halike, -, heq, -⟩ := runTask_answers Shared.stages (e.setExecutor x executor) t
  rw [heq, answer_eq] at ht'
  have hqueue : t' ∈ ((e.setExecutor x executor).executors y).queue := by
    rw [← halike.queue]
    exact ht'
  exact htaken.single t rfl y t' hqueue

/-! ## An engine whose second tasks are kept -/

def byte : Tensor := ⟨⟨.u8, [1]⟩, [7], rfl⟩

def mirror : Backend where
  name := "mirror"
  evaluate _ _ inputs := .ok (.ofList ((inputs.find? "x").toList.map fun t => ("y", t)))

def mirrored : CompiledModel where
  graph := ⟨"net", [⟨0, "x", .parameter, [], ⟨.u8, [1]⟩, .empty, none⟩,
    ⟨1, "y", .result, [0], ⟨.u8, [1]⟩, .empty, none⟩]⟩
  plugin := 0
  context := ⟨standardDevice, .empty⟩
  taskExecutor := 0
  config := {}
  fromCache := false

def loaded : InferRequest := { compiled := mirrored, inputs := .ofList [("x", byte)] }

def unpublished : InferRequest := { loaded with pending := some (.ofList [("y", byte)]) }

def deferring : Engine Shared where
  state :=
    { requests := fun _ => some loaded
      devices := fun _ => some { backend := mirror } }
  requests _ := { waitExecutor := 1 }
  executors x := { name := "executor", kind := if x = 1 then .parked else .inline }

theorem isNew_deferring : deferring.IsNew :=
  ⟨rfl, fun _ => rfl, fun _ => rfl, fun _ => rfl, fun _ => rfl⟩

def leftover : Engine Shared :=
  deferring.steps Shared.stages [.infer 0, .poll 0 true, .cancel 0, .poll 0 true]

theorem reachable_leftover : leftover.Reachable Shared.stages := ⟨deferring, _, isNew_deferring, rfl⟩

theorem getTensor_runQueued_leftover :
    (leftover.runQueued Shared.stages 1 0).1.inferences = leftover.inferences ∧
      ¬ ∀ name, (leftover.runQueued Shared.stages 1 0).1.getTensor 0 name = leftover.getTensor 0 name := by
  let t : Task := ⟨0, 0, .finish⟩
  have htake : leftover.takeTask 1 0 = some (t, _) := rfl
  have hrid : (leftover.inferences t.inference).request = 0 := rfl
  have hr : leftover.state.requests 0 = some unpublished := rfl
  obtain ⟨-, hinferences, hsame⟩ := getTensor_runQueued_cancelled reachable_leftover htake rfl hrid hr
  refine ⟨hinferences, ?_⟩
  rw [hsame]
  exact not_not_intro ⟨rfl, .ofList [("y", byte)], rfl, rfl, "y", rfl, by decide⟩

/-- Nothing was published before the leftover task ran, and the tensor of the cancelled inference after. -/
theorem getTensor_leftover :
    (leftover.inferences 0).phase = .settled (.error .cancelled) ∧
      leftover.getTensor 0 "y" = .error (.infer (.noTensor "y")) ∧
      (leftover.runQueued Shared.stages 1 0).1.getTensor 0 "y" = .ok byte :=
  ⟨rfl, rfl, rfl⟩

end Engine

end DevicePlugin
