import DevicePlugin.Proofs.Request.Outputs

/-!
# Calls on a request

A request is used by binding tensors to it and by running stages of it, in any order.
Whatever an engine does with it comes to such calls as well, so that a property of all
histories of calls is one of all that engines lead to.
-/

namespace DevicePlugin

namespace InferRequest

inductive Call where
  | bind (name : String) (t : Tensor)
  /-- Stages are run up to the first that does not succeed. The backend is what the call finds. -/
  | run (order : List InferStage) (device : Option Device)

def Call.infer (device : Option Device) : Call := .run [.preprocess, .start, .wait, .postprocess] device

def call (r : InferRequest) : Call → InferRequest
  | .bind name t =>
    match r.setTensor name t with
    | .ok bound => bound
    | .error _ => r
  | .run order device => (Served.stages.runEach order ⟨r, device⟩).2.request

def calls (r : InferRequest) (history : List Call) : InferRequest := history.foldl call r

theorem calls_append (r : InferRequest) (history later : List Call) :
    r.calls (history ++ later) = (r.calls history).calls later :=
  List.foldl_append

theorem call_bind {r r' : InferRequest} {name : String} {t : Tensor} (h : r.setTensor name t = .ok r') :
    r.call (.bind name t) = r' := by
  simp only [call, h]

/-! ## Stages and inputs -/

theorem wait_sameInputs (r : InferRequest) : SameInputs r r.wait.2 := by
  unfold wait
  split
  · exact ⟨rfl, rfl⟩
  · split
    · exact ⟨rfl, rfl⟩
    · exact (sameTensors_record r .wait).same

theorem postprocess_sameInputs (r : InferRequest) : SameInputs r r.postprocess.2 := by
  unfold postprocess
  split
  · exact ⟨rfl, rfl⟩
  · rename_i outputs _
    have htaken : SameInputs r { r with pending := none, outputs } := ⟨rfl, rfl⟩
    exact htaken.trans (sameTensors_record _ .postprocess).same

theorem run_sameInputs (stage : InferStage) (s : Served) :
    SameInputs s.request (Served.stages.run stage s).2.request := by
  cases stage with
  | preprocess =>
    simp only [Served.stages, Served.runLocal_request]
    exact (preprocess_sameTensors s.request).same
  | start => exact (start_sameTensors s.request s.device).same
  | wait =>
    simp only [Served.stages, Served.runLocal_request]
    exact wait_sameInputs s.request
  | postprocess =>
    simp only [Served.stages, Served.runLocal_request]
    exact postprocess_sameInputs s.request

theorem runEach_sameInputs (order : List InferStage) (s : Served) :
    SameInputs s.request (Served.stages.runEach order s).2.request := by
  induction order generalizing s with
  | nil => exact ⟨rfl, rfl⟩
  | cons stage rest ih =>
    have hstage := run_sameInputs stage s
    simp only [Stages.runEach]
    generalize Served.stages.run stage s = ran at hstage
    obtain ⟨outcome, next⟩ := ran
    cases outcome with
    | ok value => exact hstage.trans (ih next)
    | error failure => exact hstage
    | panic => exact hstage

/-! ## What all calls keep -/

structure Fed (c : CompiledModel) (r : InferRequest) : Prop where
  compiled : r.compiled = c
  parameter : ∀ name t, r.inputs.find? name = some t → ∃ p ∈ c.graph.parameters, p.name = name ∧ t.desc = p.desc

variable {c : CompiledModel} {r r' : InferRequest}

theorem fed_new (c : CompiledModel) : Fed c { compiled := c } where
  compiled := rfl
  parameter := nofun

theorem Fed.sameInputs (h : Fed c r) (hs : SameInputs r r') : Fed c r' where
  compiled := hs.compiled.trans h.compiled
  parameter := by
    rw [hs.inputs]
    exact h.parameter

theorem Fed.setTensor (h : Fed c r) {name : String} {t : Tensor} (hset : r.setTensor name t = .ok r') : Fed c r' := by
  obtain ⟨⟨p, hp, hname, hdesc⟩, rfl⟩ := setTensor_eq_ok hset
  rw [graph, h.compiled] at hp
  refine ⟨h.compiled, fun name' t' hfound => ?_⟩
  rw [Dict.find?_insert] at hfound
  split at hfound
  · rename_i heq
    cases hfound
    exact ⟨p, hp, hname.trans heq.symm, hdesc⟩
  · exact h.parameter name' t' hfound

theorem Fed.call (h : Fed c r) (call : Call) : Fed c (r.call call) := by
  cases call with
  | bind name t =>
    simp only [InferRequest.call]
    split
    · rename_i hset
      exact h.setTensor hset
    · exact h
  | run order device => exact h.sameInputs (runEach_sameInputs order ⟨r, device⟩)

theorem Fed.calls (h : Fed c r) (history : List Call) : Fed c (r.calls history) := by
  induction history generalizing r with
  | nil => exact h
  | cons call later ih => exact ih (h.call call)

theorem fed_calls (c : CompiledModel) (history : List Call) :
    Fed c (({ compiled := c } : InferRequest).calls history) :=
  (fed_new c).calls history

/-- Results and parameters differ in their names, so no input stands before an output. -/
theorem Fed.free_of_result (h : Fed c r) (hvalid : c.graph.Valid) {node : Node} (hnode : node ∈ c.graph.results) :
    r.inputs.find? node.name = none := by
  cases hfound : r.inputs.find? node.name with
  | none => rfl
  | some t =>
    obtain ⟨p, hp, hname, -⟩ := h.parameter _ t hfound
    exact absurd hname (hvalid.name_ne_of_result hp hnode)

end InferRequest

/-! ## What engines do with a request -/

namespace Engine

open InferRequest

variable {rid : RequestId}

theorem requests_runEach {s : Shared} {r : InferRequest} (hr : s.requests rid = some r) (order : List InferStage) :
    ((Shared.stages rid).runEach order s).2.requests rid =
      some (r.call (.run order (s.devices r.compiled.plugin))) :=
  (Shared.runEach_spec order hr).2.1

theorem requests_turn {m m' : Engine Shared × Option Task} (ht : Turn Shared.stages (Step.Leaves rid) m m')
    {r : InferRequest} (hr : m.1.state.requests rid = some r) :
    m'.1.state.requests rid = some r ∨
      ∃ order device, m'.1.state.requests rid = some (r.call (.run order device)) := by
  rcases ht.state with hsame | ⟨t, -, hran⟩ | ⟨other, change, hleaves, hchange⟩
  · exact .inl (by rw [hsame, hr])
  · by_cases ht : t.request = rid
    · rw [ht] at hran
      exact .inr ⟨_, _, by rw [hran, requests_runEach hr]⟩
    · exact .inl (by rw [hran, (Shared.runEach_frame t.request (stagesOf t.work) m.1.state).1 rid (Ne.symm ht), hr])
  · exact .inl (by rw [hchange, hleaves, hr])

/-- However an engine uses a request, there are calls that lead to the same request. -/
theorem Uses.exists_calls {c : CompiledModel} {start : Engine Shared} {m : Engine Shared × Option Task}
    {bound : List (String × Tensor)} (hstart : start.state.requests rid = some { compiled := c })
    (h : Uses rid start m bound) :
    ∃ history, m.1.state.requests rid = some (({ compiled := c } : InferRequest).calls history) := by
  induction h with
  | new => exact ⟨[], hstart⟩
  | turn _ ht ih =>
    obtain ⟨history, hr⟩ := ih
    rcases requests_turn ht hr with hr' | ⟨order, device, hr'⟩
    · exact ⟨history, hr'⟩
    · exact ⟨history ++ [.run order device], by rw [hr', InferRequest.calls_append]; rfl⟩
  | bind _ hset ih =>
    rename_i name t _
    obtain ⟨history, hr⟩ := ih
    rcases setTensor_cases hset hr with ⟨failure, hanswer, -⟩ | ⟨r', -, hbound, hr'⟩
    · cases hanswer
    · exact ⟨history ++ [.bind name t], by rw [hr', InferRequest.calls_append, ← call_bind hbound]; rfl⟩
  | refuse _ hset ih =>
    obtain ⟨history, hr⟩ := ih
    rcases setTensor_cases hset hr with ⟨-, -, rfl⟩ | ⟨r', hanswer, -⟩
    · exact ⟨history, hr⟩
    · cases hanswer
  | infer _ ih =>
    obtain ⟨history, hr⟩ := ih
    exact ⟨history ++ [.infer _], by rw [InferRequest.calls_append]; exact requests_runEach hr _⟩

end Engine

end DevicePlugin
