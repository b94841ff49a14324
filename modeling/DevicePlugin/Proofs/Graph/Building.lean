import DevicePlugin.Graph.Script
import DevicePlugin.Proofs.Graph.Validity

/-!
# Models that are built

Building steps look at what they are given before they add a node, but not at its
name, and at the size of its descriptor only if it is a constant. So the nodes of
a model that was built are put together well, and nothing but repeated names and
sizes that overflow can keep it from being valid.
-/

namespace DevicePlugin

def ModelStep.builds : ModelStep → Bool
  | .parameter .. => true
  | .constant .. => true
  | .operation .. => true
  | .result .. => true
  | .rename _ => true
  | _ => false

namespace Model

def concat (m : Model) (node : Node) : Model := { m with nodes := m.nodes ++ [node] }

@[simp] theorem nodes_concat (m : Model) (node : Node) : (m.concat node).nodes = m.nodes ++ [node] := rfl

@[simp] theorem nodes_rename (m : Model) (name : String) : (m.rename name).nodes = m.nodes := rfl

/-- The step passes its check, and this is the node it adds. -/
inductive Adds (m : Model) : ModelStep → Node → Prop
  | parameter (name : String) (desc : TensorDesc) :
      Adds m (.parameter name desc) ⟨UInt64.ofNat m.nodes.length, name, .parameter, [], desc, .empty, none⟩
  | constant (name : String) {desc : TensorDesc} {data : Bytes} (hsize : desc.byteSize = some data.length) :
      Adds m (.constant name desc data) ⟨UInt64.ofNat m.nodes.length, name, .constant, [], desc, .empty, some data⟩
  | operation (name type : String) {inputs : List NodeId} (desc : TensorDesc)
      (hinputs : ∀ input ∈ inputs, input.toNat < m.nodes.length) :
      Adds m (.operation name type inputs desc)
        ⟨UInt64.ofNat m.nodes.length, name, .operation type, inputs, desc, .empty, none⟩
  | result (name : String) {input : NodeId} {source : Node} (hsource : m.nodes[input.toNat]? = some source) :
      Adds m (.result name input) ⟨UInt64.ofNat m.nodes.length, name, .result, [input], source.desc, .empty, none⟩

inductive Refuses (m : Model) : ModelStep → GraphFault → Prop
  | sizeOverflow (name : String) {desc : TensorDesc} (data : Bytes) (hsize : desc.byteSize = none) :
      Refuses m (.constant name desc data) (.sizeOverflow name desc.shape)
  | constantSize (name : String) {desc : TensorDesc} {data : Bytes} {needed : Nat}
      (hsize : desc.byteSize = some needed) (hlength : data.length ≠ needed) :
      Refuses m (.constant name desc data) (.constantSize name data.length needed)
  /-- The first input that is not there is named. -/
  | unknownInput (name type : String) {known rest : List NodeId} {missing : NodeId} (desc : TensorDesc)
      (hknown : ∀ input ∈ known, input.toNat < m.nodes.length) (hmissing : m.nodes.length ≤ missing.toNat) :
      Refuses m (.operation name type (known ++ missing :: rest) desc) (.unknownInput name missing)
  | unknownSource (name : String) {input : NodeId} (hinput : m.nodes.length ≤ input.toNat) :
      Refuses m (.result name input) (.unknownInput name input)

inductive Builds (m : Model) : ModelStep → Outcome Failure ModelAnswer × Model → Prop
  | fails {s : ModelStep} {fault : GraphFault} (h : m.Refuses s fault) : Builds m s (.error (.graph fault), m)
  | renames (name : String) : Builds m (.rename name) (.ok (.renamed name), m.rename name)
  | adds {s : ModelStep} {node : Node} (h : m.Adds s node) : Builds m s (.ok (.added node.id), m.concat node)

section
variable (m : Model)

theorem builds_constant (name : String) (desc : TensorDesc) (data : Bytes) :
    m.Builds (.constant name desc data) (m.step (.constant name desc data)) := by
  simp only [step, addConstant, checkConstant]
  cases hsize : desc.byteSize with
  | none =>
    rw [checkSize_eq_error hsize]
    exact .fails (.sizeOverflow name data hsize)
  | some needed =>
    rw [checkSize_eq_ok_iff.2 hsize]
    by_cases hlength : data.length = needed
    · simp only [if_pos hlength]
      exact .adds (.constant name (hlength ▸ hsize))
    · simp only [if_neg hlength]
      exact .fails (.constantSize name hsize hlength)

theorem builds_operation (name type : String) (inputs : List NodeId) (desc : TensorDesc) :
    m.Builds (.operation name type inputs desc) (m.step (.operation name type inputs desc)) := by
  simp only [step, addOperation, checkInputs]
  cases hfind : inputs.find? fun i => m.nodes.length ≤ i.toNat with
  | none => exact .adds (.operation name type desc (by simpa using hfind))
  | some missing =>
    obtain ⟨hmissing, known, rest, rfl, hknown⟩ := List.find?_eq_some_iff_append.1 hfind
    exact .fails (.unknownInput name type desc (by simpa using hknown) (by simpa using hmissing))

theorem builds_result (name : String) (input : NodeId) :
    m.Builds (.result name input) (m.step (.result name input)) := by
  simp only [step, addResult, node?]
  cases hsource : m.nodes[input.toNat]? with
  | none => exact .fails (.unknownSource name (List.getElem?_eq_none_iff.1 hsource))
  | some source => exact .adds (.result name hsource)

theorem builds_step {s : ModelStep} (hs : s.builds = true) : m.Builds s (m.step s) := by
  cases s with
  | parameter name desc => exact .adds (.parameter name desc)
  | constant name desc data => exact m.builds_constant name desc data
  | operation name type inputs desc => exact m.builds_operation name type inputs desc
  | result name input => exact m.builds_result name input
  | rename name => exact .renames name
  | _ => cases hs

end

variable {m : Model}

theorem Adds.sound {s : ModelStep} {node : Node} (h : m.Adds s node) (hsize : m.nodes.length < UInt64.size) :
    node.Sound m.nodes := by
  have hplaced : (UInt64.ofNat m.nodes.length).toNat = m.nodes.length := UInt64.toNat_ofNat_of_lt' hsize
  cases h with
  | parameter name desc => constructor <;> simp [hplaced]
  | constant name hbytes => constructor <;> simp [hplaced, hbytes]
  | operation name type desc hinputs => refine ⟨hplaced, hinputs, ?_, ?_, ?_, ?_⟩ <;> simp
  | @result name input source hsource =>
    have hlt : input.toNat < m.nodes.length := (List.getElem?_eq_some_iff.1 hsource).1
    refine ⟨hplaced, ?_, ?_, ?_, ?_, fun _ => ⟨input, source, rfl, hsource, rfl⟩⟩ <;> simp [hlt]

theorem Builds.length_le {s : ModelStep} {outcome : Outcome Failure ModelAnswer × Model}
    (h : m.Builds s outcome) :
    m.nodes.length ≤ outcome.2.nodes.length := by
  cases h <;> simp

theorem Builds.sound {s : ModelStep} {outcome : Outcome Failure ModelAnswer × Model}
    (h : m.Builds s outcome) (hm : Node.Each Node.Sound m.nodes) (hsize : outcome.2.nodes.length < UInt64.size) :
    Node.Each Node.Sound outcome.2.nodes := by
  cases h with
  | fails => exact hm
  | renames name => exact hm
  | adds hadds =>
    simp only [nodes_concat, List.length_append, List.length_singleton] at hsize
    exact Node.each_concat.2 ⟨hm, hadds.sound (by omega)⟩

theorem length_le_run {steps : List ModelStep} (hsteps : ∀ s ∈ steps, s.builds = true) :
    m.nodes.length ≤ (m.run steps).2.nodes.length := by
  induction steps generalizing m with
  | nil => exact Nat.le_refl _
  | cons s steps ih =>
    have hstep := (m.builds_step (hsteps s (by simp))).length_le
    exact Nat.le_trans hstep (ih fun s' hs' => hsteps s' (by simp [hs']))

theorem sound_run {steps : List ModelStep} (hsteps : ∀ s ∈ steps, s.builds = true)
    (hsize : (m.run steps).2.nodes.length < UInt64.size) (hm : Node.Each Node.Sound m.nodes) :
    Node.Each Node.Sound (m.run steps).2.nodes := by
  induction steps generalizing m with
  | nil => exact hm
  | cons s steps ih =>
    have hrest : ∀ s' ∈ steps, s'.builds = true := fun s' hs' => hsteps s' (by simp [hs'])
    have hle : (m.step s).2.nodes.length ≤ ((m.step s).2.run steps).2.nodes.length := length_le_run hrest
    have hnext : (m.step s).2.nodes.length < UInt64.size := Nat.lt_of_le_of_lt hle hsize
    exact ih hrest hsize ((m.builds_step (hsteps s (by simp))).sound hm hnext)

theorem checkNode_of_sound_at (hm : Node.Each Node.Sound m.nodes) {position : Nat} {node : Node}
    (hnode : m.nodes[position]? = some node) {fault : GraphFault}
    (h : checkNode (m.nodes.take position) node = .error fault) :
    fault = .duplicateName node.name ∨
      node.desc.byteSize = none ∧ fault = .sizeOverflow node.name node.desc.shape := by
  rw [checkNode_of_sound (hm position node hnode)] at h
  split at h
  · cases h
    exact .inl rfl
  · split at h
    · cases h
    · rename_i hsize
      cases h
      exact .inr ⟨by simpa using hsize, rfl⟩

theorem valid_iff_of_sound (hm : Node.Each Node.Sound m.nodes) :
    m.Valid ↔ (m.nodes.map Node.name).Nodup ∧ ∀ node ∈ m.nodes, node.desc.byteSize.isSome := by
  constructor
  · intro h
    exact ⟨h.distinct, h.sized⟩
  · rintro ⟨hdistinct, hsized⟩
    rw [valid_iff_each]
    intro position node hnode
    exact ⟨hm position node hnode, (nodup_iff_each m.nodes).1 hdistinct position node hnode,
      hsized node (List.mem_of_getElem? hnode)⟩

/-- Of a model that was built in any steps, every further step fails its own check and leaves it, gives it another
name, or passes its own check, adds its node and answers the position. The model is valid if and only if its names
differ and its sizes do not overflow, and validating it finds no other fault. -/
theorem valid_iff_of_built (friendlyName : String) {steps : List ModelStep}
    (hsteps : ∀ s ∈ steps, s.builds = true)
    (hsize : ((empty friendlyName).run steps).2.nodes.length < UInt64.size) :
    let m := ((empty friendlyName).run steps).2
    (∀ s : ModelStep, s.builds = true →
      (∃ fault, m.Refuses s fault ∧ m.step s = (.error (.graph fault), m)) ∨
      (∃ name, s = .rename name ∧ m.step s = (.ok (.renamed name), { m with friendlyName := name })) ∨
      ∃ node, m.Adds s node ∧ m.step s = (.ok (.added node.id), { m with nodes := m.nodes ++ [node] }) ∧
        node.id.toNat = m.nodes.length) ∧
    (m.validate = .ok () ↔
      (m.nodes.map Node.name).Nodup ∧ ∀ node ∈ m.nodes, node.desc.byteSize.isSome) ∧
    (∀ fault, m.validate = .error fault → ∃ node ∈ m.nodes, fault = .duplicateName node.name ∨
      node.desc.byteSize = none ∧ fault = .sizeOverflow node.name node.desc.shape) ∧
    Node.Each Node.Sound m.nodes := by
  intro m
  have hsound : Node.Each Node.Sound m.nodes := sound_run hsteps hsize (Node.each_nil _)
  refine ⟨?_, ?_, ?_, hsound⟩
  · intro s hs
    have hbuilds := m.builds_step hs
    generalize hanswer : m.step s = answer at hbuilds
    cases hbuilds with
    | fails hrefuses => exact .inl ⟨_, hrefuses, rfl⟩
    | renames name => exact .inr (.inl ⟨name, rfl, rfl⟩)
    | adds hadds => exact .inr (.inr ⟨_, hadds, rfl, (hadds.sound hsize).placed⟩)
  · rw [validate_eq_ok_iff, valid_iff_of_sound hsound]
  · intro fault hfault
    obtain ⟨position, node, hnode, -, hcheck⟩ := exists_of_validate_eq_error hfault
    exact ⟨node, List.mem_of_getElem? hnode, checkNode_of_sound_at hsound hnode hcheck⟩

/-- Two steps fail, and two of the nodes have one name. -/
theorem valid_iff_of_built_repeated :
    let steps : List ModelStep :=
      [.parameter "x" ⟨.f32, [2]⟩, .operation "relu" "Relu" [5] ⟨.f32, [2]⟩, .constant "w" ⟨.u8, [2]⟩ [1],
        .constant "w" ⟨.u8, [2]⟩ [1, 2], .rename "net2", .operation "add" "Add" [0, 1] ⟨.f32, [2]⟩,
        .result "x" 2]
    (∀ s ∈ steps, s.builds = true) ∧ ((empty "net").run steps).2.nodes.length = 4 ∧
      ((empty "net").run steps).2.validate ≠ .ok () := by
  intro steps
  have hsteps : ∀ s ∈ steps, s.builds = true := by decide
  have hlength : ((empty "net").run steps).2.nodes.length = 4 := rfl
  have hsize : ((empty "net").run steps).2.nodes.length < UInt64.size := by
    rw [hlength]
    decide
  obtain ⟨-, hvalid, -, -⟩ := valid_iff_of_built "net" hsteps hsize
  refine ⟨hsteps, hlength, ?_⟩
  rw [Ne, hvalid]
  rintro ⟨hdistinct, -⟩
  have hnames : ((empty "net").run steps).2.nodes.map Node.name = ["x", "w", "add", "x"] := rfl
  rw [hnames] at hdistinct
  simp at hdistinct

end Model

end DevicePlugin
