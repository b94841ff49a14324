import DevicePlugin.Proofs.Compiled.Acceptance
import DevicePlugin.Proofs.Request.Course
import DevicePlugin.Proofs.Request.Leftover
import DevicePlugin.Proofs.Request.Turns

/-!
# Tensors that can be read

Outputs are checked by the task that stores them, and no other task touches them.
So whatever the order of tasks is, the outputs of a request are those of one checked
evaluation, and its inputs are the tensors that were bound to its parameters last.
-/

namespace DevicePlugin

/-! ## The graph -/

namespace Model

theorem Valid.eq_of_name {m : Model} (h : m.Valid) {a b : Node} (ha : a ∈ m.nodes) (hb : b ∈ m.nodes)
    (hname : a.name = b.name) : a = b :=
  List.inj_on_of_nodup_map h.distinct ha hb hname

theorem mem_parameters {m : Model} {p : Node} : p ∈ m.parameters ↔ p ∈ m.nodes ∧ p.kind = .parameter := by
  simp [parameters]

theorem mem_results {m : Model} {p : Node} : p ∈ m.results ↔ p ∈ m.nodes ∧ p.kind = .result := by
  simp [results]

theorem Valid.name_ne_of_result {m : Model} (h : m.Valid) {p node : Node} (hp : p ∈ m.parameters)
    (hnode : node ∈ m.results) : p.name ≠ node.name := by
  intro hname
  obtain ⟨hmem, hkind⟩ := mem_parameters.mp hp
  obtain ⟨hmem', hkind'⟩ := mem_results.mp hnode
  rw [h.eq_of_name hmem hmem' hname, hkind'] at hkind
  cases hkind

end Model

namespace InferRequest

theorem checkOutputs_eq_ok_iff {outputs : Dict Tensor} {results : List Node} :
    checkOutputs outputs results = .ok () ↔
      ∀ node ∈ results, ∃ t, outputs.find? node.name = some t ∧ t.desc = node.desc := by
  induction results with
  | nil => simp [checkOutputs]
  | cons node results ih =>
    simp only [checkOutputs]
    cases hfound : outputs.find? node.name with
    | none => simp [hfound]
    | some t =>
      by_cases hdesc : t.desc = node.desc
      · simp [hfound, hdesc, ih]
      · simp [hfound, hdesc]

/-! ## Stages -/

structure SameTensors (r r' : InferRequest) : Prop where
  same : SameInputs r r'
  outputs : r'.outputs = r.outputs

theorem SameTensors.refl (r : InferRequest) : SameTensors r r := ⟨⟨rfl, rfl⟩, rfl⟩

theorem SameTensors.trans {r r' r'' : InferRequest} (h : SameTensors r r') (h' : SameTensors r' r'') :
    SameTensors r r'' :=
  ⟨h.same.trans h'.same, h'.outputs.trans h.outputs⟩

theorem sameTensors_record (r : InferRequest) (stage : InferStage) : SameTensors r (r.record stage) :=
  ⟨⟨record_compiled r stage, record_inputs r stage⟩, record_outputs r stage⟩

theorem preprocess_sameTensors (r : InferRequest) : SameTensors r r.preprocess.2 := by
  have hforgotten : SameTensors r r.forgotten := ⟨⟨rfl, rfl⟩, rfl⟩
  unfold preprocess
  simp only
  split
  · exact hforgotten
  · exact hforgotten.trans (sameTensors_record _ _)

theorem start_sameTensors (r : InferRequest) (d : Option Device) : SameTensors r (r.start d).2.1 := by
  cases d with
  | none => exact .refl r
  | some d =>
    rw [Served.start_some]
    split
    · rename_i outputs _
      have hpending : SameTensors r { r with pending := some outputs } := ⟨⟨rfl, rfl⟩, rfl⟩
      exact hpending.trans (sameTensors_record _ _)
    · exact .refl r
    · exact .refl r

/-- The first task reads and writes no tensors that can be read. -/
theorem runEach_start_sameTensors (s : Served) :
    SameTensors s.request (Served.stages.runEach [.preprocess, .start] s).2.request := by
  have hpreprocess : SameTensors s.request (Served.stages.run .preprocess s).2.request := by
    simp only [Served.stages, Served.runLocal_request]
    exact preprocess_sameTensors s.request
  simp only [Stages.runEach]
  generalize Served.stages.run .preprocess s = ran at hpreprocess
  obtain ⟨outcome, served⟩ := ran
  cases outcome with
  | error failure => exact hpreprocess
  | panic => exact hpreprocess
  | ok value =>
    simp only
    have hstart : SameTensors served.request (Served.stages.run .start served).2.request :=
      start_sameTensors served.request served.device
    generalize Served.stages.run .start served = ran at hstart
    obtain ⟨outcome, served'⟩ := ran
    cases outcome <;> exact hpreprocess.trans hstart

/-- The second task publishes what it has checked, or changes no tensors. -/
theorem second_tensors (r : InferRequest) :
    SameTensors r r.second.2 ∨ SameInputs r r.second.2 ∧ checkOutputs r.second.2.outputs r.graph.results = .ok () := by
  have hsame := second_same r
  unfold second at hsame ⊢
  split
  · exact .inl (.refl r)
  · rename_i outputs hpending
    rw [hpending] at hsame
    simp only at hsame
    split
    · exact .inl (.refl r)
    · rename_i hcheck
      rw [hcheck] at hsame
      refine .inr ⟨hsame, ?_⟩
      simp only [published, record_outputs]
      exact hcheck

/-! ## What can be read -/

/-- The tensors that can be read: inputs are the last ones that were bound, and outputs were checked. -/
structure Orderly (c : CompiledModel) (bound : List (String × Tensor)) (r : InferRequest) : Prop where
  compiled : r.compiled = c
  inputs : ∀ name, r.inputs.find? name = bound.lookup name
  fitting : ∀ name t, bound.lookup name = some t → ∃ p ∈ c.graph.parameters, p.name = name ∧ t.desc = p.desc
  outputs : r.outputs = .empty ∨ checkOutputs r.outputs c.graph.results = .ok ()

variable {c : CompiledModel} {bound : List (String × Tensor)} {r r' : InferRequest}

theorem orderly_new (c : CompiledModel) : Orderly c [] { compiled := c } where
  compiled := rfl
  inputs _ := rfl
  fitting := nofun
  outputs := .inl rfl

theorem Orderly.sameTensors (h : Orderly c bound r) (hs : SameTensors r r') : Orderly c bound r' where
  compiled := hs.same.compiled.trans h.compiled
  inputs name := by
    rw [hs.same.inputs]
    exact h.inputs name
  fitting := h.fitting
  outputs := by
    rw [hs.outputs]
    exact h.outputs

theorem Orderly.second (h : Orderly c bound r) : Orderly c bound r.second.2 := by
  rcases second_tensors r with hsame | ⟨hsame, hcheck⟩
  · exact h.sameTensors hsame
  · rw [graph, h.compiled] at hcheck
    exact
      { compiled := hsame.compiled.trans h.compiled
        inputs := fun name => by
          rw [hsame.inputs]
          exact h.inputs name
        fitting := h.fitting
        outputs := .inr hcheck }

theorem Orderly.runEach_finish (h : Orderly c bound r) (d : Option Device) :
    Orderly c bound (Served.stages.runEach [.wait, .postprocess] ⟨r, d⟩).2.request := by
  rw [runEach_finish_eq]
  exact h.second

theorem Orderly.infer {s : Served} (h : Orderly c bound s.request) :
    Orderly c bound (Served.stages.infer s).2.request := by
  have hfirst := h.sameTensors (runEach_start_sameTensors s)
  rw [Stages.infer_eq]
  generalize Served.stages.runEach [.preprocess, .start] s = ran at hfirst
  obtain ⟨outcome, served⟩ := ran
  cases outcome with
  | ok value => exact hfirst.runEach_finish served.device
  | error failure => exact hfirst
  | panic => exact hfirst

theorem setTensor_eq_ok {name : String} {t : Tensor} (h : r.setTensor name t = .ok r') :
    (∃ p ∈ r.graph.parameters, p.name = name ∧ t.desc = p.desc) ∧ r' = { r with inputs := r.inputs.insert name t } := by
  unfold setTensor at h
  split at h
  · cases h
  · rename_i p hp
    split at h
    · rename_i hdesc
      cases h
      exact ⟨⟨p, List.mem_of_find?_eq_some hp, by simpa using List.find?_some hp, hdesc⟩, rfl⟩
    · cases h

theorem lookup_cons_eq (name : String) (t : Tensor) (bound : List (String × Tensor)) (name' : String) :
    ((name, t) :: bound).lookup name' = if name' = name then some t else bound.lookup name' := by
  rw [List.lookup_cons]
  by_cases heq : name' = name
  · simp [heq]
  · rw [if_neg heq, beq_false_of_ne heq]

theorem Orderly.setTensor (h : Orderly c bound r) {name : String} {t : Tensor} (hset : r.setTensor name t = .ok r') :
    Orderly c ((name, t) :: bound) r' := by
  obtain ⟨⟨p, hp, hname, hdesc⟩, rfl⟩ := setTensor_eq_ok hset
  rw [graph, h.compiled] at hp
  refine ⟨h.compiled, fun name' => ?_, fun name' t' hbound => ?_, h.outputs⟩
  · rw [Dict.find?_insert, lookup_cons_eq, h.inputs]
  · rw [lookup_cons_eq] at hbound
    split at hbound
    · rename_i heq
      cases hbound
      exact ⟨p, hp, hname.trans heq.symm, hdesc⟩
    · exact h.fitting name' t' hbound

theorem Orderly.getTensor_parameter (h : Orderly c bound r) (hvalid : c.graph.Valid) {p : Node}
    (hp : p ∈ c.graph.parameters) {t : Tensor} (hbound : bound.lookup p.name = some t) :
    r.getTensor p.name = .ok t ∧ t.desc = p.desc := by
  obtain ⟨q, hq, hname, hdesc⟩ := h.fitting _ t hbound
  have heq : q = p := hvalid.eq_of_name (Model.mem_parameters.mp hq).1 (Model.mem_parameters.mp hp).1 hname
  subst heq
  refine ⟨?_, hdesc⟩
  rw [InferRequest.getTensor, h.inputs, hbound, Option.some_or]

theorem Orderly.getTensor_result (h : Orderly c bound r) (hvalid : c.graph.Valid) (hstored : r.outputs ≠ .empty)
    {node : Node} (hnode : node ∈ c.graph.results) : ∃ t, r.getTensor node.name = .ok t ∧ t.desc = node.desc := by
  -- No parameter has the name of a result, so that no input stands before the output.
  have hfree : r.inputs.find? node.name = none := by
    rw [h.inputs]
    cases hbound : bound.lookup node.name with
    | none => rfl
    | some t =>
      obtain ⟨p, hp, hname, -⟩ := h.fitting _ t hbound
      exact absurd hname (hvalid.name_ne_of_result hp hnode)
  obtain ⟨t, ht, hdesc⟩ := checkOutputs_eq_ok_iff.mp (h.outputs.resolve_left hstored) node hnode
  refine ⟨t, ?_, hdesc⟩
  rw [InferRequest.getTensor, hfree, ht, Option.none_or]

end InferRequest

/-! ## Binding and inferring at once -/

namespace Engine

def setTensor (e : Engine Shared) (rid : RequestId) (name : String) (t : Tensor) :
    Except Failure Unit × Engine Shared :=
  e.access rid fun s =>
    match s.requests rid with
    | none => (.ok (), s)
    | some r =>
      match r.setTensor name t with
      | .error fault => (.error (.infer fault), s)
      | .ok r => (.ok (), s.setRequest rid r)

def inferNow (e : Engine Shared) (rid : RequestId) : Engine Shared :=
  { e with state := ((Shared.stages rid).infer e.state).2 }

end Engine

/-- This is what a session does when it is to bind a tensor, be the request asynchronous or not. -/
theorem Session.State.onRequest_setTensor (s : Session.State) {rid : RequestId} {handle : Session.Handle}
    (hhandle : handle = .async rid ∨ handle = .sync rid ∧ (s.engine.requests rid).poisoned = false) (name : String)
    (t : Tensor) :
    let effect := s.onRequest handle (.setTensor name (.ok t))
    effect.reply = .answered (.ofExcept ((s.engine.setTensor rid name t).1.map fun () => .done)) ∧
      effect.state.engine = (s.engine.setTensor rid name t).2 := by
  rcases hhandle with rfl | ⟨rfl, hpoisoned⟩
  · simp only [onRequest, accessRequest, Engine.access, Engine.setTensor]
    cases (s.engine.requests rid).poisoned with
    | true => exact ⟨rfl, rfl⟩
    | false =>
      cases s.engine.state.requests rid with
      | none => exact ⟨rfl, rfl⟩
      | some r => cases hset : r.setTensor name t <;> simp [hset, Except.map, Outcome.ofExcept]
  · simp only [onRequest, accessRequest, Engine.access, Engine.setTensor, hpoisoned]
    cases s.engine.state.requests rid with
    | none => exact ⟨rfl, rfl⟩
    | some r => cases hset : r.setTensor name t <;> simp [hset, Except.map, Outcome.ofExcept]

/-- This is what a session does when it is to infer at once. -/
theorem Session.State.onRequest_infer (s : Session.State) (rid : RequestId) (label : String) :
    (s.onRequest (.sync rid) (.infer label)).state.engine = s.engine.inferNow rid := rfl

namespace Engine

open InferRequest

def Step.Leaves (rid : RequestId) : Step Shared → Prop
  | .access _ change => ∀ s, (change s).requests rid = s.requests rid
  | _ => True

/-- What a request can be used for, in any order: tensors are bound, it infers at once, and the engine takes
turns, in which inferences are made, polled, cancelled and given up, and tasks run. The tensors that were bound
are listed, the last one first. Reading changes nothing. -/
inductive Uses (rid : RequestId) (start : Engine Shared) :
    Engine Shared × Option Task → List (String × Tensor) → Prop
  | new : Uses rid start (start, none) []
  | turn {c c' : Engine Shared × Option Task} {bound : List (String × Tensor)} (h : Uses rid start c bound)
      (ht : Turn Shared.stages (Step.Leaves rid) c c') : Uses rid start c' bound
  | bind {e e' : Engine Shared} {hand : Option Task} {bound : List (String × Tensor)} {name : String} {t : Tensor}
      (h : Uses rid start (e, hand) bound) (hset : e.setTensor rid name t = (.ok (), e')) :
      Uses rid start (e', hand) ((name, t) :: bound)
  | refuse {e e' : Engine Shared} {hand : Option Task} {bound : List (String × Tensor)} {name : String} {t : Tensor}
      {failure : Failure} (h : Uses rid start (e, hand) bound) (hset : e.setTensor rid name t = (.error failure, e')) :
      Uses rid start (e', hand) bound
  | infer {e : Engine Shared} {hand : Option Task} {bound : List (String × Tensor)}
      (h : Uses rid start (e, hand) bound) : Uses rid start (e.inferNow rid, hand) bound

theorem Uses.turns {rid : RequestId} {start : Engine Shared} {c c' : Engine Shared × Option Task}
    {bound : List (String × Tensor)} (h : Uses rid start c bound)
    (ht : Turns Shared.stages (Step.Leaves rid) c c') : Uses rid start c' bound := by
  induction ht with
  | refl => exact h
  | tail _ hturn ih => exact ih.turn hturn

/-! ## The invariant -/

def Readable (rid : RequestId) (c : CompiledModel) (bound : List (String × Tensor)) (s : Shared) : Prop :=
  ∃ r, s.requests rid = some r ∧ r.Orderly c bound

variable {rid : RequestId} {c : CompiledModel} {bound : List (String × Tensor)}

theorem Readable.runEach {s : Shared} (h : Readable rid c bound s) {order : List InferStage}
    (horder : ∀ served : Served, served.request.Orderly c bound →
      (Served.stages.runEach order served).2.request.Orderly c bound) :
    Readable rid c bound ((Shared.stages rid).runEach order s).2 := by
  obtain ⟨r, hr, horderly⟩ := h
  obtain ⟨-, hrequest, -⟩ := Shared.runEach_spec order hr
  exact ⟨_, hrequest, horder (s.served r) horderly⟩

theorem Readable.task {s : Shared} (h : Readable rid c bound s) (t : Task) :
    Readable rid c bound ((Shared.stages t.request).runEach (stagesOf t.work) s).2 := by
  -- Tasks of other requests run on the same state, but leave this request alone.
  by_cases ht : t.request = rid
  · rw [ht]
    refine h.runEach fun served horderly => ?_
    cases t.work with
    | start => exact horderly.sameTensors (runEach_start_sameTensors served)
    | finish => exact horderly.runEach_finish served.device
    | notify callback result => exact horderly
  · obtain ⟨r, hr, horderly⟩ := h
    have hother := (Shared.runEach_frame t.request (stagesOf t.work) s).1 rid (Ne.symm ht)
    exact ⟨r, hother.trans hr, horderly⟩

theorem Readable.turn {m m' : Engine Shared × Option Task} (h : Readable rid c bound m.1.state)
    (ht : Turn Shared.stages (Step.Leaves rid) m m') : Readable rid c bound m'.1.state := by
  rcases ht.state with hsame | ⟨t, -, hran⟩ | ⟨other, change, hleaves, hchange⟩
  · rwa [hsame]
  · rw [hran]
    exact h.task t
  · obtain ⟨r, hr, horderly⟩ := h
    rw [hchange]
    exact ⟨r, (hleaves m.1.state).trans hr, horderly⟩

/-- Binding a tensor changes the inputs if it is accepted, and nothing otherwise. -/
theorem setTensor_cases {e e' : Engine Shared} {name : String} {t : Tensor} {answer : Except Failure Unit}
    (hset : e.setTensor rid name t = (answer, e')) {r : InferRequest} (hr : e.state.requests rid = some r) :
    (∃ failure, answer = .error failure ∧ e' = e) ∨
      ∃ r', answer = .ok () ∧ r.setTensor name t = .ok r' ∧ e'.state.requests rid = some r' := by
  unfold setTensor access at hset
  simp only [hr] at hset
  split at hset
  · cases hset
    exact .inl ⟨_, rfl, rfl⟩
  · cases hbound : r.setTensor name t with
    | error fault =>
      rw [hbound] at hset
      cases hset
      exact .inl ⟨_, rfl, rfl⟩
    | ok r' =>
      rw [hbound] at hset
      cases hset
      exact .inr ⟨r', rfl, rfl, by simp [Shared.setRequest]⟩

theorem Uses.readable {start : Engine Shared} {m : Engine Shared × Option Task}
    (hstart : start.state.requests rid = some { compiled := c }) (h : Uses rid start m bound) :
    Readable rid c bound m.1.state := by
  induction h with
  | new => exact ⟨_, hstart, orderly_new c⟩
  | turn _ ht ih => exact ih.turn ht
  | bind _ hset ih =>
    obtain ⟨r, hr, horderly⟩ := ih
    rcases setTensor_cases hset hr with ⟨failure, hanswer, -⟩ | ⟨r', -, hbound, hr'⟩
    · cases hanswer
    · exact ⟨r', hr', horderly.setTensor hbound⟩
  | refuse _ hset ih =>
    obtain ⟨r, hr, horderly⟩ := ih
    rcases setTensor_cases hset hr with ⟨-, -, rfl⟩ | ⟨r', hanswer, -⟩
    · exact ⟨r, hr, horderly⟩
    · cases hanswer
  | infer _ ih => exact ih.runEach fun served horderly => horderly.infer

/-- However a request is used, and whatever its backend puts out: unless a stage has broken off, either no
outputs are stored or each result of the graph can be read as a tensor of its own descriptor, and each
parameter that was bound can be read as the tensor that was bound last, which has the parameter's descriptor. -/
theorem getTensor_validated (hc : c.Made) {start : Engine Shared}
    (hstart : start.state.requests rid = some { compiled := c }) {e : Engine Shared} {hand : Option Task}
    (h : Uses rid start (e, hand) bound) (hpoisoned : (e.requests rid).poisoned = false) :
    (∃ r, e.state.requests rid = some r ∧
      (r.outputs = .empty ∨
        ∀ node ∈ c.graph.results, ∃ t, e.getTensor rid node.name = .ok t ∧ t.desc = node.desc)) ∧
    ∀ p ∈ c.graph.parameters, ∀ t, bound.lookup p.name = some t →
      e.getTensor rid p.name = .ok t ∧ t.desc = p.desc := by
  have hvalid := hc.valid
  obtain ⟨r, hr, horderly⟩ := h.readable hstart
  refine ⟨⟨r, hr, ?_⟩, fun p hp t hbound => ?_⟩
  · by_cases hstored : r.outputs = .empty
    · exact .inl hstored
    · refine .inr fun node hnode => ?_
      obtain ⟨t, ht, hdesc⟩ := horderly.getTensor_result hvalid hstored hnode
      exact ⟨t, by rw [getTensor_eq hpoisoned hr, ht]; rfl, hdesc⟩
  · obtain ⟨ht, hdesc⟩ := horderly.getTensor_parameter hvalid hp hbound
    exact ⟨by rw [getTensor_eq hpoisoned hr, ht]; rfl, hdesc⟩

def unfed : Engine Shared :=
  { deferring with state := { deferring.state with requests := fun _ => some { compiled := mirrored } } }

def fed : Engine Shared := (unfed.setTensor 0 "x" byte).2

/-- The task that a cancelled inference has left publishes a tensor that was checked. -/
theorem getTensor_validated_leftover :
    let history : List (Step Shared) := [.infer 0, .poll 0 true, .cancel 0, .poll 0 true, .runQueued 1 0]
    let e := fed.steps Shared.stages history
    (e.requests 0).poisoned = false ∧ (∃ t, e.getTensor 0 "y" = .ok t ∧ t.desc = ⟨.u8, [1]⟩) ∧
      e.getTensor 0 "x" = .ok byte := by
  intro history e
  let plugin : Plugin := { device := standardDevice, backend := mirror, transformations := .pipeline [], waitExecutor := 1 }
  have hmade : mirrored.Made := ⟨mirrored.graph, 0, plugin, ⟨standardDevice, .empty⟩, 0, {}, false, rfl⟩
  have hfed : Uses 0 unfed (fed, none) [("x", byte)] := .bind .new rfl
  have hsound : Sound fed none := IsNew.sound ⟨rfl, fun _ => rfl, fun _ => rfl, fun _ => rfl, fun _ => rfl⟩
  have hleaves : ∀ s ∈ history, Step.Leaves 0 s := by simp [history, Step.Leaves]
  have huses : Uses 0 unfed (e, none) [("x", byte)] := hfed.turns (steps_turns hsound hleaves)
  obtain ⟨⟨r, hr, houtputs⟩, hinputs⟩ := getTensor_validated hmade rfl huses rfl
  have hstored : r.outputs ≠ .empty := by
    cases hr
    decide
  have hx : (⟨0, "x", .parameter, [], ⟨.u8, [1]⟩, .empty, none⟩ : Node) ∈ mirrored.graph.parameters := by
    simp [mirrored, Model.parameters]
  have hy : (⟨1, "y", .result, [0], ⟨.u8, [1]⟩, .empty, none⟩ : Node) ∈ mirrored.graph.results := by
    simp [mirrored, Model.results]
  exact ⟨rfl, houtputs.resolve_left hstored _ hy, (hinputs _ hx byte rfl).1⟩

end Engine

end DevicePlugin
