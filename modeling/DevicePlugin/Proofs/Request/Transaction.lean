import DevicePlugin.Proofs.Request.Calls

/-!
# An inference is a transaction

An inference needs four things, in this order: each parameter has its tensor, the plugin
is alive, its backend answers with tensors, and each result finds its own among them. It
succeeds if it has them all. Otherwise it says which it lacks first, and no tensor that
can be read has changed.
-/

namespace DevicePlugin

/-! ## The first node that is bad -/

def Model.First (m : Model) (bad : Node → Prop) (node : Node) : Prop :=
  ∃ before after, m.nodes = before ++ node :: after ∧ bad node ∧ ∀ earlier ∈ before, ¬bad earlier

theorem Model.first_iff_find? {m : Model} {kind : NodeKind} {bad : Node → Bool} {node : Node} :
    m.First (fun n => n.kind = kind ∧ bad n = true) node ↔
      (m.nodes.filter fun n => n.kind = kind).find? bad = some node := by
  rw [List.find?_filter, List.find?_eq_some_iff_append]
  simp only [Model.First, decide_eq_true_eq, Bool.not_eq_true', decide_eq_false_iff_not]
  constructor
  · rintro ⟨before, after, hnodes, hbad, hbefore⟩
    exact ⟨hbad, before, after, hnodes, hbefore⟩
  · rintro ⟨hbad, before, after, hnodes, hbefore⟩
    exact ⟨before, after, hnodes, hbad, hbefore⟩

namespace InferRequest

def Meets (outputs : Dict Tensor) (node : Node) : Prop :=
  ∃ t, outputs.find? node.name = some t ∧ t.desc = node.desc

instance (outputs : Dict Tensor) (node : Node) : Decidable (Meets outputs node) :=
  decidable_of_iff _ Option.map_eq_some_iff

inductive Misses (outputs : Dict Tensor) (node : Node) : InferFault → Prop
  | missing (h : outputs.find? node.name = none) : Misses outputs node (.missingOutput node.name)
  | wrong {t : Tensor} (h : outputs.find? node.name = some t) (hdesc : t.desc ≠ node.desc) :
      Misses outputs node (.wrongOutput node.name t.desc.shape node.desc.shape)

def InputsBound (r : InferRequest) : Prop := ∀ p ∈ r.graph.parameters, ∃ t, r.inputs.find? p.name = some t

def LacksInput (r : InferRequest) (node : Node) : Prop := node.kind = .parameter ∧ r.inputs.find? node.name = none

def LacksOutput (outputs : Dict Tensor) (node : Node) : Prop := node.kind = .result ∧ ¬Meets outputs node

variable {r : InferRequest} {outputs : Dict Tensor}

theorem unset_eq_some_iff {p : Node} : r.unset = some p ↔ r.graph.First r.LacksInput p := by
  have hlacks : r.LacksInput = fun n => n.kind = .parameter ∧ (!r.inputs.contains n.name) = true := by
    funext n
    simp [LacksInput, Dict.contains]
  rw [hlacks, Model.first_iff_find?]
  rfl

theorem unset_eq_none_iff : r.unset = none ↔ r.InputsBound := by
  simp [unset, InputsBound, Dict.contains, Option.ne_none_iff_exists']

theorem checkOutputs_eq_error {results : List Node} {fault : InferFault}
    (h : checkOutputs outputs results = .error fault) :
    ∃ node, results.find? (fun n => !decide (Meets outputs n)) = some node ∧ Misses outputs node fault := by
  induction results with
  | nil => cases h
  | cons node results ih =>
    simp only [checkOutputs] at h
    split at h
    · rename_i hnone
      cases h
      exact ⟨node, by simp [Meets, hnone], .missing hnone⟩
    · rename_i t hfound
      split at h
      · rename_i hdesc
        obtain ⟨other, hfirst, hmisses⟩ := ih h
        have hmeets : Meets outputs node := ⟨t, hfound, hdesc⟩
        exact ⟨other, by simpa [hmeets] using hfirst, hmisses⟩
      · rename_i hdesc
        cases h
        exact ⟨node, by simp [Meets, hfound, hdesc], .wrong hfound hdesc⟩

theorem Misses.unique {node : Node} {fault fault' : InferFault} (h : Misses outputs node fault)
    (h' : Misses outputs node fault') : fault = fault' := by
  cases h with
  | missing h =>
    cases h' with
    | missing _ => rfl
    | wrong h' _ => cases h.symm.trans h'
  | wrong h _ =>
    cases h' with
    | missing h' => cases h.symm.trans h'
    | wrong h' _ =>
      cases h.symm.trans h'
      rfl

theorem Misses.not_meets {node : Node} {fault : InferFault} (h : Misses outputs node fault) :
    ¬Meets outputs node := by
  rintro ⟨t, hfound, hdesc⟩
  cases h with
  | missing h => cases h.symm.trans hfound
  | wrong h hne =>
    cases h.symm.trans hfound
    exact hne hdesc

theorem checkOutputs_eq_error_iff {m : Model} {fault : InferFault} :
    checkOutputs outputs m.results = .error fault ↔
      ∃ node, m.First (LacksOutput outputs) node ∧ Misses outputs node fault := by
  have hlacks : LacksOutput outputs = fun n => n.kind = .result ∧ (!decide (Meets outputs n)) = true := by
    funext n
    simp [LacksOutput]
  rw [hlacks]
  simp only [Model.first_iff_find?]
  constructor
  · exact checkOutputs_eq_error
  · rintro ⟨node, hfirst, hmisses⟩
    cases hcheck : checkOutputs outputs m.results with
    | ok value =>
      have hmeets := checkOutputs_eq_ok_iff.mp hcheck node (List.mem_of_find?_eq_some hfirst)
      exact absurd hmeets hmisses.not_meets
    | error fault' =>
      obtain ⟨node', hfirst', hmisses'⟩ := checkOutputs_eq_error hcheck
      cases hfirst.symm.trans hfirst'
      rw [hmisses.unique hmisses']

/-! ## What an inference needs -/

structure Succeeds (r : InferRequest) (device : Option Device) (outputs : Dict Tensor) : Prop where
  bound : r.InputsBound
  answered : ∃ d, device = some d ∧ d.backend.evaluate d.evaluations r.graph r.inputs = .ok outputs
  fitting : ∀ node ∈ r.graph.results, Meets outputs node

/-- What is lacking first, and how it is named. All that is asked for earlier is there. -/
inductive Lacks (r : InferRequest) : Option Device → Failure → Prop
  | input {device : Option Device} {p : Node} (hfirst : r.graph.First r.LacksInput p) :
      Lacks r device (.infer (.inputNotSet p.name))
  | plugin (hbound : r.InputsBound) : Lacks r none .pluginReleased
  | answer {d : Device} {error : ErrorChain} (hbound : r.InputsBound)
      (hanswer : d.backend.evaluate d.evaluations r.graph r.inputs = .error error) :
      Lacks r (some d) (.infer (.backend d.backend.name error))
  | output {d : Device} {outputs : Dict Tensor} {node : Node} {fault : InferFault}
      (hbound : r.InputsBound) (hanswer : d.backend.evaluate d.evaluations r.graph r.inputs = .ok outputs)
      (hfirst : r.graph.First (LacksOutput outputs) node) (hmisses : Misses outputs node fault) :
      Lacks r (some d) (.infer fault)

variable {device : Option Device} {failure : Failure}

theorem infer_of_unset {p : Node} (h : r.unset = some p) :
    Served.stages.infer ⟨r, device⟩ = (.error (.infer (.inputNotSet p.name)), ⟨r.forgotten, device⟩) := by
  rw [Stages.infer_eq, Served.runEach_start_unset h]

theorem infer_of_released (h : r.unset = none) :
    Served.stages.infer ⟨r, none⟩ = (.error .pluginReleased, ⟨r.begun, none⟩) := by
  rw [Stages.infer_eq, Served.runEach_start_released h]

theorem infer_of_set (h : r.unset = none) (d : Device) :
    Served.stages.infer ⟨r, some d⟩ =
      match d.backend.evaluate d.evaluations r.graph r.inputs with
      | .ok outputs =>
        match checkOutputs outputs r.graph.results with
        | .error fault => (.error (.infer fault), ⟨r.evaluated outputs, some (Served.counted d)⟩)
        | .ok () => (.ok (), ⟨(r.evaluated outputs).published outputs, some (Served.counted d)⟩)
      | .error error => (.error (.infer (.backend d.backend.name error)), ⟨r.begun, some (Served.counted d)⟩)
      | .panic => (.panic, ⟨r.begun, some (Served.counted d)⟩) := by
  rw [Stages.infer_eq, Served.runEach_start_set h]
  cases d.backend.evaluate d.evaluations r.graph r.inputs with
  | ok outputs =>
    have hpending : (r.evaluated outputs).pending = some outputs := record_pending _ _
    have hgraph : (r.evaluated outputs).graph = r.graph := by
      simp [evaluated, begun, graph, forgotten]
    cases hcheck : checkOutputs outputs r.graph.results <;>
      simp only [Served.runEach_finish, hpending, hgraph, hcheck]
  | error error => rfl
  | panic => rfl

theorem Succeeds.infer (h : r.Succeeds device outputs) :
    (Served.stages.infer ⟨r, device⟩).1 = .ok () ∧
      (Served.stages.infer ⟨r, device⟩).2.request.outputs = outputs := by
  obtain ⟨d, rfl, hanswer⟩ := h.answered
  have hcheck := checkOutputs_eq_ok_iff.mpr h.fitting
  have hrun : Served.stages.infer ⟨r, some d⟩ =
      (.ok (), ⟨(r.evaluated outputs).published outputs, some (Served.counted d)⟩) := by
    rw [infer_of_set (unset_eq_none_iff.mpr h.bound), hanswer]
    simp only [hcheck]
  rw [hrun]
  exact ⟨rfl, record_outputs _ _⟩

theorem Lacks.infer (h : r.Lacks device failure) : (Served.stages.infer ⟨r, device⟩).1 = .error failure := by
  cases h with
  | input hfirst => rw [infer_of_unset (unset_eq_some_iff.mpr hfirst)]
  | plugin hbound => rw [infer_of_released (unset_eq_none_iff.mpr hbound)]
  | answer hbound hanswer => rw [infer_of_set (unset_eq_none_iff.mpr hbound), hanswer]
  | output hbound hanswer hfirst hmisses =>
    rw [infer_of_set (unset_eq_none_iff.mpr hbound), hanswer]
    simp only [checkOutputs_eq_error_iff.mpr ⟨_, hfirst, hmisses⟩]

theorem BreaksOff.infer (h : r.BreaksOff device) : (Served.stages.infer ⟨r, device⟩).1 = .panic := by
  obtain ⟨hset, d, rfl, hanswer⟩ := h
  rw [infer_of_set hset, hanswer]

theorem succeeds_or_lacks (r : InferRequest) (device : Option Device) :
    (∃ outputs, r.Succeeds device outputs) ∨ (∃ failure, r.Lacks device failure) ∨ r.BreaksOff device := by
  cases hunset : r.unset with
  | some p => exact .inr (.inl ⟨_, .input (unset_eq_some_iff.mp hunset)⟩)
  | none =>
    have hbound := unset_eq_none_iff.mp hunset
    cases device with
    | none => exact .inr (.inl ⟨_, .plugin hbound⟩)
    | some d =>
      cases hanswer : d.backend.evaluate d.evaluations r.graph r.inputs with
      | error error => exact .inr (.inl ⟨_, .answer hbound hanswer⟩)
      | panic => exact .inr (.inr ⟨hunset, d, rfl, hanswer⟩)
      | ok outputs =>
        cases hcheck : checkOutputs outputs r.graph.results with
        | ok value => exact .inl ⟨outputs, hbound, ⟨d, rfl, hanswer⟩, checkOutputs_eq_ok_iff.mp hcheck⟩
        | error fault =>
          obtain ⟨node, hfirst, hmisses⟩ := checkOutputs_eq_error_iff.mp hcheck
          exact .inr (.inl ⟨_, .output hbound hanswer hfirst hmisses⟩)

theorem infer_eq_ok_iff : (Served.stages.infer ⟨r, device⟩).1 = .ok () ↔ ∃ outputs, r.Succeeds device outputs := by
  constructor
  · intro hok
    rcases succeeds_or_lacks r device with hsucceeds | ⟨failure, hlacks⟩ | hbreaks
    · exact hsucceeds
    · cases hlacks.infer.symm.trans hok
    · cases hbreaks.infer.symm.trans hok
  · rintro ⟨outputs, hsucceeds⟩
    exact hsucceeds.infer.1

theorem infer_eq_error_iff : (Served.stages.infer ⟨r, device⟩).1 = .error failure ↔ r.Lacks device failure := by
  refine ⟨fun herror => ?_, Lacks.infer⟩
  rcases succeeds_or_lacks r device with ⟨outputs, hsucceeds⟩ | ⟨failure', hlacks⟩ | hbreaks
  · cases hsucceeds.infer.1.symm.trans herror
  · cases hlacks.infer.symm.trans herror
    exact hlacks
  · cases hbreaks.infer.symm.trans herror

theorem infer_eq_panic_iff : (Served.stages.infer ⟨r, device⟩).1 = .panic ↔ r.BreaksOff device := by
  refine ⟨fun hpanic => ?_, BreaksOff.infer⟩
  rcases succeeds_or_lacks r device with ⟨outputs, hsucceeds⟩ | ⟨failure, hlacks⟩ | hbreaks
  · cases hsucceeds.infer.1.symm.trans hpanic
  · cases hlacks.infer.symm.trans hpanic
  · exact hbreaks

theorem infer_sameTensors (s : Served) (h : (Served.stages.infer s).1 ≠ .ok ()) :
    SameTensors s.request (Served.stages.infer s).2.request := by
  -- Only the last stage changes tensors, and it does not fail once the one before it has succeeded.
  have hfirst := runEach_start_sameTensors s
  rw [Stages.infer_eq] at h ⊢
  generalize Served.stages.runEach [.preprocess, .start] s = ran at h hfirst ⊢
  obtain ⟨outcome, next⟩ := ran
  cases outcome with
  | ok value =>
    have hsecond := runEach_finish_eq next.request next.device
    simp only [hsecond] at h ⊢
    rwa [second_of_ne_ok h]
  | error failure => exact hfirst
  | panic => exact hfirst

/-! ## The transaction -/

/-- Whatever was done with the request before, an inference succeeds if and only if every parameter is bound, the
plugin is alive, its backend answers with tensors and every result finds one of its own descriptor among them.
Then the results can be read as these tensors, and the inputs are the same. Otherwise it fails with what is
lacking first, or breaks off with its backend, and all that can be read stays as it was. -/
theorem infer_transaction {c : CompiledModel} (hc : c.Made) (history : List Call) (device : Option Device) :
    let r := ({ compiled := c } : InferRequest).calls history
    let ran := Served.stages.infer ⟨r, device⟩
    (ran.1 = .ok () ↔ ∃ outputs, r.Succeeds device outputs) ∧
      (∀ outputs, r.Succeeds device outputs → ran.2.request.inputs = r.inputs ∧
        ∀ node ∈ c.graph.results, ∃ t, outputs.find? node.name = some t ∧ t.desc = node.desc ∧
          ran.2.request.getTensor node.name = .ok t) ∧
      (∀ failure, ran.1 = .error failure ↔ r.Lacks device failure) ∧
      (ran.1 = .panic ↔ r.BreaksOff device) ∧
      (ran.1 ≠ .ok () → ∀ name, ran.2.request.getTensor name = r.getTensor name) := by
  intro r ran
  have hfed : Fed c r := fed_calls c history
  have hsame : SameInputs r ran.2.request := runEach_sameInputs _ ⟨r, device⟩
  refine ⟨infer_eq_ok_iff, fun outputs hsucceeds => ⟨hsame.inputs, fun node hnode => ?_⟩,
    fun failure => infer_eq_error_iff, infer_eq_panic_iff, fun hfails name => ?_⟩
  · have hresult : node ∈ r.graph.results := by rwa [graph, hfed.compiled]
    obtain ⟨t, hfound, hdesc⟩ := hsucceeds.fitting node hresult
    refine ⟨t, hfound, hdesc, ?_⟩
    have houtputs : ran.2.request.outputs = outputs := hsucceeds.infer.2
    rw [getTensor, hsame.inputs, hfed.free_of_result hc.valid hnode, houtputs, hfound, Option.none_or]
  · have hkept := infer_sameTensors ⟨r, device⟩ hfails
    exact getTensor_congr hkept.same.inputs hkept.outputs name

/-- The output of an inference that has succeeded outlives the plugin. -/
theorem infer_transaction_released :
    let r := ({ compiled := Engine.mirrored } : InferRequest).calls [.bind "x" Engine.byte]
    let first := Served.stages.infer ⟨r, some { backend := Engine.mirror }⟩
    let second := Served.stages.infer ⟨first.2.request, none⟩
    first.1 = .ok () ∧ second.1 = .error .pluginReleased ∧ second.2.request.getTensor "y" = .ok Engine.byte := by
  intro r first second
  let plugin : Plugin :=
    { device := standardDevice, backend := Engine.mirror, transformations := .pipeline [], waitExecutor := 1 }
  have hmade : Engine.mirrored.Made :=
    ⟨Engine.mirrored.graph, 0, plugin, ⟨standardDevice, .empty⟩, 0, {}, false, rfl⟩
  have hy : (⟨1, "y", .result, [0], ⟨.u8, [1]⟩, .empty, none⟩ : Node) ∈ Engine.mirrored.graph.results := by
    simp [Engine.mirrored, Model.results]
  have hsucceeds : r.Succeeds (some { backend := Engine.mirror }) (.ofList [("y", Engine.byte)]) :=
    ⟨unset_eq_none_iff.mp rfl, ⟨_, rfl, rfl⟩, checkOutputs_eq_ok_iff.mp rfl⟩
  obtain ⟨hok, hread, -⟩ := infer_transaction hmade [.bind "x" Engine.byte] (some { backend := Engine.mirror })
  obtain ⟨t, hfound, -, hget⟩ := (hread _ hsucceeds).2 _ hy
  have ht : some Engine.byte = some t := hfound
  cases ht
  obtain ⟨-, -, hfails, -, hkept⟩ := infer_transaction hmade
    [.bind "x" Engine.byte, .infer (some { backend := Engine.mirror })] none
  have hreleased : second.1 = .error .pluginReleased := (hfails _).mpr (.plugin (unset_eq_none_iff.mp rfl))
  have hfailed : second.1 ≠ .ok () := by simp [hreleased]
  exact ⟨hok.mpr ⟨_, hsucceeds⟩, hreleased, (hkept hfailed "y").trans hget⟩

end InferRequest

end DevicePlugin
