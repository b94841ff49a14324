import DevicePlugin.Graph.Model
import Mathlib.Data.List.Induction
import Mathlib.Data.List.Nodup

/-!
# Valid models

What the check of a model is about: a node has to fit behind the nodes before it,
and a model is valid when every node does. Two of the conditions, names and sizes,
depend on what a model is given; the others on how its nodes are put together
(`Node.Sound`).
-/

namespace DevicePlugin

namespace Node

/-- A node that is put together well behind other nodes, whatever its name and the size of its
descriptor. -/
structure Sound (before : List Node) (node : Node) : Prop where
  placed : node.id.toNat = before.length
  ordered : ∀ input ∈ node.inputs, input.toNat < before.length
  stocked : node.data.isSome ↔ node.kind = .constant
  filled : ∀ data, node.data = some data → node.desc.byteSize = some data.length
  source : node.kind = .parameter ∨ node.kind = .constant → node.inputs = []
  result : node.kind = .result → ∃ input source,
    node.inputs = [input] ∧ before[input.toNat]? = some source ∧ source.desc = node.desc

structure Fits (before : List Node) (node : Node) : Prop extends Sound before node where
  fresh : node.name ∉ before.map Node.name
  sized : node.desc.byteSize.isSome

def Each (P : List Node → Node → Prop) (nodes : List Node) : Prop :=
  ∀ position node, nodes[position]? = some node → P (nodes.take position) node

theorem each_nil (P : List Node → Node → Prop) : Each P [] := by
  intro position node h
  simp at h

theorem each_concat {P : List Node → Node → Prop} {nodes : List Node} {last : Node} :
    Each P (nodes ++ [last]) ↔ Each P nodes ∧ P nodes last := by
  constructor
  · intro h
    constructor
    · intro position node hnode
      have hlt : position < nodes.length := (List.getElem?_eq_some_iff.1 hnode).1
      have := h position node (by rwa [List.getElem?_append_left hlt])
      rwa [List.take_append_of_le_length (Nat.le_of_lt hlt)] at this
    · have := h nodes.length last (by simp)
      rwa [List.take_append_of_le_length (Nat.le_refl _), List.take_length] at this
  · rintro ⟨hnodes, hlast⟩ position node hnode
    by_cases hlt : position < nodes.length
    · rw [List.getElem?_append_left hlt] at hnode
      rw [List.take_append_of_le_length (Nat.le_of_lt hlt)]
      exact hnodes position node hnode
    · rw [List.getElem?_append_right (Nat.le_of_not_lt hlt)] at hnode
      obtain ⟨hposition, rfl⟩ := List.getElem?_eq_some_iff.1 hnode
      simp only [List.length_singleton] at hposition
      have hend : position = nodes.length := by omega
      subst hend
      rw [List.take_append_of_le_length (Nat.le_refl _), List.take_length]
      simpa using hlast

end Node

/-! ## The checks, one by one -/

theorem checkSize_eq_ok_iff {name : String} {desc : TensorDesc} {size : Nat} :
    checkSize name desc = .ok size ↔ desc.byteSize = some size := by
  unfold checkSize
  cases desc.byteSize <;> simp

theorem checkSize_eq_error {name : String} {desc : TensorDesc} (h : desc.byteSize = none) :
    checkSize name desc = .error (.sizeOverflow name desc.shape) := by
  unfold checkSize
  rw [h]

theorem checkConstant_eq_ok_iff {name : String} {desc : TensorDesc} {data : Bytes} :
    checkConstant name desc data = .ok () ↔ desc.byteSize = some data.length := by
  unfold checkConstant checkSize
  cases desc.byteSize with
  | none => simp
  | some size =>
    simp only [Option.some.injEq]
    split
    · simp_all
    · rename_i hne
      simpa using Ne.symm hne

namespace Model

theorem checkData_eq_ok_iff {node : Node} :
    checkData node = .ok () ↔ (node.data.isSome ↔ node.kind = .constant) ∧
      ∀ data, node.data = some data → node.desc.byteSize = some data.length := by
  unfold checkData
  cases node.kind <;> cases node.data <;> simp [checkConstant_eq_ok_iff]

theorem checkResult_eq_ok_iff {before : List Node} {node : Node} :
    checkResult before node = .ok () ↔ ∃ input source,
      node.inputs = [input] ∧ before[input.toNat]? = some source ∧ source.desc = node.desc := by
  unfold checkResult
  split
  · rename_i input hinputs
    split
    · rename_i h
      simp only [true_iff]
      obtain ⟨source, hsource, hdesc⟩ := Option.map_eq_some_iff.1 h
      exact ⟨input, source, hinputs, hsource, hdesc⟩
    · rename_i h
      simp only [reduceCtorEq, false_iff]
      rintro ⟨input', source, hinputs', hsource, hdesc⟩
      cases hinputs.symm.trans hinputs'
      exact h (by rw [hsource, Option.map_some, hdesc])
  · rename_i h
    simp only [reduceCtorEq, false_iff]
    rintro ⟨input, source, hinputs, -⟩
    exact h input hinputs

theorem checkWiring_eq_ok_iff {before : List Node} {node : Node} :
    checkWiring before node = .ok () ↔
      (node.kind = .parameter ∨ node.kind = .constant → node.inputs = []) ∧
      (node.kind = .result → ∃ input source,
        node.inputs = [input] ∧ before[input.toNat]? = some source ∧ source.desc = node.desc) := by
  unfold checkWiring
  cases node.kind with
  | parameter => by_cases h : node.inputs = [] <;> simp [h]
  | constant => by_cases h : node.inputs = [] <;> simp [h]
  | result => simp [checkResult_eq_ok_iff]
  | operation type => simp

/-- Of a node that is put together well, only the name and the size can be wrong. -/
theorem checkNode_of_sound {before : List Node} {node : Node} (h : node.Sound before) :
    checkNode before node =
      if node.name ∈ before.map Node.name then .error (.duplicateName node.name)
      else if node.desc.byteSize.isSome then .ok ()
      else .error (.sizeOverflow node.name node.desc.shape) := by
  have hordered : node.inputs.find? (fun i => before.length ≤ i.toNat) = none := by
    simpa using h.ordered
  unfold checkNode
  rw [if_neg (not_not_intro h.placed)]
  by_cases hname : node.name ∈ before.map Node.name
  · rw [if_pos hname, if_pos hname]
  rw [if_neg hname, if_neg hname, hordered]
  cases hsize : node.desc.byteSize with
  | none => simp [checkSize_eq_error hsize]
  | some size =>
    have hdata : checkData node = .ok () := checkData_eq_ok_iff.2 ⟨h.stocked, h.filled⟩
    have hwiring : checkWiring before node = .ok () := checkWiring_eq_ok_iff.2 ⟨h.source, h.result⟩
    simp [checkSize_eq_ok_iff.2 hsize, hdata, hwiring]

theorem checkNode_eq_ok_iff {before : List Node} {node : Node} :
    checkNode before node = .ok () ↔ node.Fits before := by
  constructor
  · intro h
    unfold checkNode at h
    split at h
    · cases h
    rename_i hplaced
    split at h
    · cases h
    rename_i hfresh
    split at h
    · cases h
    rename_i hordered
    split at h
    · cases h
    rename_i size hsize
    split at h
    · cases h
    rename_i hdata
    obtain ⟨hstocked, hfilled⟩ := checkData_eq_ok_iff.1 hdata
    obtain ⟨hsource, hresult⟩ := checkWiring_eq_ok_iff.1 h
    refine ⟨⟨not_not.1 hplaced, ?_, hstocked, hfilled, hsource, hresult⟩, hfresh, ?_⟩
    · simpa using hordered
    · rw [checkSize_eq_ok_iff.1 hsize]
      rfl
  · intro h
    rw [checkNode_of_sound h.toSound, if_neg h.fresh, if_pos h.sized]

/-! ## The check as a whole -/

theorem checkNodes_append (before nodes nodes' : List Node) :
    checkNodes before (nodes ++ nodes') =
      match checkNodes before nodes with
      | .error fault => .error fault
      | .ok () => checkNodes (before ++ nodes) nodes' := by
  induction nodes generalizing before with
  | nil => simp [checkNodes]
  | cons node nodes ih =>
    simp only [List.cons_append, checkNodes]
    cases checkNode before node with
    | error fault => rfl
    | ok _ =>
      simp only [ih, List.append_assoc]
      rfl

theorem checkNodes_concat (nodes : List Node) (last : Node) :
    checkNodes [] (nodes ++ [last]) =
      match checkNodes [] nodes with
      | .error fault => .error fault
      | .ok () => checkNode nodes last := by
  rw [checkNodes_append]
  cases checkNodes [] nodes with
  | error fault => rfl
  | ok _ =>
    simp only [List.nil_append, checkNodes]
    cases checkNode nodes last <;> rfl

theorem validate_eq_ok_iff_each (m : Model) : m.validate = .ok () ↔ Node.Each Node.Fits m.nodes := by
  obtain ⟨friendlyName, nodes⟩ := m
  simp only [validate]
  induction nodes using List.reverseRecOn with
  | nil => simp [checkNodes, Node.each_nil]
  | append_singleton nodes last ih =>
    rw [Node.each_concat, ← ih, ← checkNode_eq_ok_iff, checkNodes_concat]
    cases checkNodes [] nodes <;> simp

/-- A fault is that of a node behind nodes that fit. -/
theorem exists_of_validate_eq_error {m : Model} {fault : GraphFault} (h : m.validate = .error fault) :
    ∃ position node, m.nodes[position]? = some node ∧
      Node.Each Node.Fits (m.nodes.take position) ∧ checkNode (m.nodes.take position) node = .error fault := by
  obtain ⟨friendlyName, nodes⟩ := m
  simp only [validate] at h ⊢
  induction nodes using List.reverseRecOn with
  | nil => cases h
  | append_singleton nodes last ih =>
    rw [checkNodes_concat] at h
    cases hnodes : checkNodes [] nodes with
    | error earlier =>
      rw [hnodes] at h
      obtain ⟨position, node, hnode, heach, hcheck⟩ := ih (hnodes.trans (by cases h; rfl))
      have hlt : position < nodes.length := (List.getElem?_eq_some_iff.1 hnode).1
      refine ⟨position, node, by rwa [List.getElem?_append_left hlt], ?_⟩
      rw [List.take_append_of_le_length (Nat.le_of_lt hlt)]
      exact ⟨heach, hcheck⟩
    | ok _ =>
      rw [hnodes] at h
      refine ⟨nodes.length, last, by simp, ?_⟩
      rw [List.take_append_of_le_length (Nat.le_refl _), List.take_length]
      exact ⟨(validate_eq_ok_iff_each ⟨friendlyName, nodes⟩).1 hnodes, h⟩

structure Valid (m : Model) : Prop where
  placed : ∀ (position : Nat) (node : Node), m.nodes[position]? = some node → node.id.toNat = position
  distinct : (m.nodes.map Node.name).Nodup
  ordered : ∀ (position : Nat) (node : Node), m.nodes[position]? = some node →
    ∀ input ∈ node.inputs, input.toNat < position
  sized : ∀ node ∈ m.nodes, node.desc.byteSize.isSome
  stocked : ∀ node ∈ m.nodes, node.data.isSome ↔ node.kind = .constant
  filled : ∀ node ∈ m.nodes, ∀ data, node.data = some data → node.desc.byteSize = some data.length
  sources : ∀ node ∈ m.nodes, node.kind = .parameter ∨ node.kind = .constant → node.inputs = []
  results : ∀ node ∈ m.nodes, node.kind = .result → ∃ input source,
    node.inputs = [input] ∧ m.node? input = some source ∧ source.desc = node.desc

end Model

theorem nodup_iff_each (nodes : List Node) :
    (nodes.map Node.name).Nodup ↔ Node.Each (fun before node => node.name ∉ before.map Node.name) nodes := by
  induction nodes using List.reverseRecOn with
  | nil => simp [Node.each_nil]
  | append_singleton nodes last ih =>
    rw [Node.each_concat, ← ih, List.map_append, List.map_singleton, ← List.concat_eq_append,
      List.nodup_concat, and_comm]

namespace Model

theorem valid_iff_each (m : Model) : m.Valid ↔ Node.Each Node.Fits m.nodes := by
  have hlength {position : Nat} {node : Node} (h : m.nodes[position]? = some node) :
      (m.nodes.take position).length = position := by
    have := (List.getElem?_eq_some_iff.1 h).1
    rw [List.length_take]
    omega
  constructor
  · intro h position node hnode
    have hmem : node ∈ m.nodes := List.mem_of_getElem? hnode
    refine ⟨⟨?_, ?_, h.stocked node hmem, h.filled node hmem, h.sources node hmem, ?_⟩, ?_, h.sized node hmem⟩
    · rw [hlength hnode]
      exact h.placed position node hnode
    · rw [hlength hnode]
      exact h.ordered position node hnode
    · intro hkind
      obtain ⟨input, source, hinputs, hsource, hdesc⟩ := h.results node hmem hkind
      have hlt : input.toNat < position := h.ordered position node hnode input (by simp [hinputs])
      exact ⟨input, source, hinputs, by rwa [List.getElem?_take_of_lt hlt], hdesc⟩
    · exact (nodup_iff_each m.nodes).1 h.distinct position node hnode
  · intro h
    have hfits {node : Node} (hmem : node ∈ m.nodes) : ∃ position, node.Fits (m.nodes.take position) := by
      obtain ⟨position, hnode⟩ := List.getElem?_of_mem hmem
      exact ⟨position, h position node hnode⟩
    constructor
    · intro position node hnode
      rw [(h position node hnode).placed, hlength hnode]
    · exact (nodup_iff_each m.nodes).2 fun position node hnode => (h position node hnode).fresh
    · intro position node hnode input hinput
      have := (h position node hnode).ordered input hinput
      rwa [hlength hnode] at this
    · intro node hmem
      exact (hfits hmem).choose_spec.sized
    · intro node hmem
      exact (hfits hmem).choose_spec.stocked
    · intro node hmem
      exact (hfits hmem).choose_spec.filled
    · intro node hmem
      exact (hfits hmem).choose_spec.source
    · intro node hmem hkind
      obtain ⟨position, hnode⟩ := hfits hmem
      obtain ⟨input, source, hinputs, hsource, hdesc⟩ := hnode.result hkind
      refine ⟨input, source, hinputs, ?_, hdesc⟩
      rw [List.getElem?_take] at hsource
      split at hsource
      · exact hsource
      · cases hsource

theorem validate_eq_ok_iff (m : Model) : m.validate = .ok () ↔ m.Valid := by
  rw [validate_eq_ok_iff_each, valid_iff_each]

end Model

end DevicePlugin
