import DevicePlugin.Outcome
import DevicePlugin.Proofs.Graph.Packing
import DevicePlugin.Proofs.Graph.Validity

/-!
# Accesses stay in range

Results look up the node they read, and constants are cut out by a start and an
end; both come from outside. Here the checks are told once more on words and on
accesses that break off when they are out of range. No check breaks off,
since what is looked at before an access rules that out.
-/

namespace DevicePlugin

namespace Outcome

variable {ε φ α : Type}

def mapError (f : ε → φ) : Outcome ε α → Outcome φ α
  | .ok value => .ok value
  | .error fault => .error (f fault)
  | .panic => .panic

theorem ofExcept_ne_panic (answer : Except ε α) : ofExcept answer ≠ .panic := by
  cases answer <;> simp [ofExcept]

end Outcome

/-! ## Raw accesses -/

namespace Raw

variable {ε α : Type}

def entry (entries : List α) (position : Nat) : Outcome ε α :=
  match entries[position]? with
  | some value => .ok value
  | none => .panic

def range (entries : List α) (start stop : Nat) : Outcome ε (List α) :=
  if start ≤ stop ∧ stop ≤ entries.length then .ok ((entries.drop start).take (stop - start)) else .panic

def add? (a b : UInt64) : Option UInt64 := if a.toNat + b.toNat < UInt64.size then some (a + b) else none

theorem add?_eq_some {a b : UInt64} (h : a.toNat + b.toNat < UInt64.size) :
    ∃ sum, add? a b = some sum ∧ sum.toNat = a.toNat + b.toNat := by
  refine ⟨a + b, if_pos h, ?_⟩
  rw [UInt64.toNat_add]
  exact Nat.mod_eq_of_lt h

end Raw

/-! ## The check of a model -/

namespace Model

def checkStanding (before : List Node) (node : Node) : Except GraphFault Unit :=
  if node.id.toNat ≠ before.length then .error (.misplaced node.name node.id before.length)
  else if node.name ∈ before.map Node.name then .error (.duplicateName node.name)
  else
    match node.inputs.find? fun i => before.length ≤ i.toNat with
    | some input => .error (.laterInput node.name input)
    | none =>
      match checkSize node.name node.desc with
      | .error fault => .error fault
      | .ok _ => checkData node

theorem checkNode_eq (before : List Node) (node : Node) :
    checkNode before node = (checkStanding before node).bind fun _ => checkWiring before node := by
  unfold checkNode checkStanding
  by_cases hplaced : node.id.toNat ≠ before.length
  · rw [if_pos hplaced, if_pos hplaced]
    rfl
  rw [if_neg hplaced, if_neg hplaced]
  by_cases hname : node.name ∈ before.map Node.name
  · rw [if_pos hname, if_pos hname]
    rfl
  rw [if_neg hname, if_neg hname]
  cases node.inputs.find? fun i => before.length ≤ i.toNat with
  | some input => rfl
  | none =>
    cases checkSize node.name node.desc with
    | error fault => rfl
    | ok size => cases checkData node <;> rfl

theorem ordered_of_checkStanding {before : List Node} {node : Node} (h : checkStanding before node = .ok ()) :
    ∀ input ∈ node.inputs, input.toNat < before.length := by
  unfold checkStanding at h
  split at h
  · cases h
  split at h
  · cases h
  split at h
  · cases h
  · rename_i hordered
    simpa using hordered

/-- The input of a result is looked up among all nodes of the model. -/
def checkResultRaw (nodes : List Node) (node : Node) : Outcome GraphFault Unit :=
  match node.inputs with
  | [input] =>
    (Raw.entry nodes input.toNat).bind fun source =>
      if source.desc = node.desc then .ok () else .error (.resultMismatch node.name)
  | inputs => .error (.resultArity node.name inputs.length)

def checkWiringRaw (nodes before : List Node) (node : Node) : Outcome GraphFault Unit :=
  match node.kind with
  | .result => checkResultRaw nodes node
  | _ => .ofExcept (checkWiring before node)

def checkNodesRaw (nodes : List Node) : (before : List Node) → List Node → Outcome GraphFault Unit
  | _, [] => .ok ()
  | before, node :: rest =>
    ((Outcome.ofExcept (checkStanding before node)).bind fun _ => checkWiringRaw nodes before node).bind fun _ =>
      checkNodesRaw nodes (before ++ [node]) rest

def validateRaw (m : Model) : Outcome GraphFault Unit := checkNodesRaw m.nodes [] m.nodes

section
variable {before : List Node} {node : Node} (h : ∀ input ∈ node.inputs, input.toNat < before.length)
  (rest : List Node)
include h

theorem checkResultRaw_eq : checkResultRaw (before ++ rest) node = .ofExcept (checkResult before node) := by
  unfold checkResultRaw checkResult
  generalize node.inputs = inputs at h ⊢
  cases inputs with
  | nil => rfl
  | cons input more =>
    cases more with
    | cons => rfl
    | nil =>
      have hlt : input.toNat < before.length := h input (by simp)
      have hentry : (before ++ rest)[input.toNat]? = some before[input.toNat] := by
        rw [List.getElem?_append_left hlt, List.getElem?_eq_getElem hlt]
      simp only [Raw.entry, hentry, Outcome.bind, List.getElem?_eq_getElem hlt, Option.map_some, Option.some.injEq]
      split <;> rfl

theorem checkWiringRaw_eq :
    checkWiringRaw (before ++ rest) before node = .ofExcept (checkWiring before node) := by
  unfold checkWiringRaw
  split
  · rename_i hkind
    rw [checkResultRaw_eq h, checkWiring, hkind]
  · rfl

end

theorem checkNodesRaw_eq (before rest : List Node) :
    checkNodesRaw (before ++ rest) before rest = .ofExcept (checkNodes before rest) := by
  induction rest generalizing before with
  | nil => rfl
  | cons node rest ih =>
    have hrest := ih (before ++ [node])
    rw [List.append_assoc, List.singleton_append] at hrest
    simp only [checkNodesRaw, checkNodes, checkNode_eq, hrest]
    cases hstanding : checkStanding before node with
    | error fault => rfl
    | ok _ =>
      -- Inputs that come before the node are among all nodes, and the same there.
      have hwiring := checkWiringRaw_eq (ordered_of_checkStanding hstanding) (node :: rest)
      simp only [Outcome.ofExcept, Outcome.bind, Except.bind] at hwiring ⊢
      rw [hwiring]
      cases checkWiring before node <;> rfl

theorem validateRaw_eq (m : Model) : m.validateRaw = .ofExcept m.validate := checkNodesRaw_eq [] m.nodes

end Model

/-! ## The data of constants -/

def Slice.cutRaw (s : Slice) (name : String) (constants : Bytes) : Outcome FormFault Bytes :=
  let outside : FormFault := .sliceRange name s.offset.toNat s.size.toNat constants.length
  match Raw.add? s.offset s.size with
  | none => .error outside
  | some stop =>
    if s.offset ≤ stop ∧ stop.toNat ≤ constants.length then Raw.range constants s.offset.toNat stop.toNat
    else .error outside

def NodeRecord.unpackRaw (r : NodeRecord) (constants : Bytes) : Outcome FormFault Node :=
  match r.slice with
  | none => .ok (r.node none)
  | some slice => (slice.cutRaw r.name constants).map fun data => r.node (some data)

def unpackNodesRaw (constants : Bytes) : List NodeRecord → Outcome FormFault (List Node)
  | [] => .ok []
  | r :: records =>
    (r.unpackRaw constants).bind fun node => (unpackNodesRaw constants records).map (node :: ·)

section
variable {constants : Bytes} (hsize : constants.length < UInt64.size)
include hsize

theorem Slice.cutRaw_eq (s : Slice) (name : String) :
    s.cutRaw name constants = .ofExcept (s.cut name constants) := by
  by_cases hinside : s.offset.toNat + s.size.toNat ≤ constants.length
  · obtain ⟨stop, hadd, hstop⟩ := Raw.add?_eq_some (Nat.lt_of_le_of_lt hinside hsize)
    have hrange : s.offset ≤ stop ∧ stop.toNat ≤ constants.length := by
      rw [UInt64.le_iff_toNat_le]
      omega
    have hword : s.offset.toNat ≤ stop.toNat ∧ stop.toNat ≤ constants.length := by omega
    simp only [cutRaw, cut, hadd, if_pos hrange, if_pos hinside, Raw.range, if_pos hword, Outcome.ofExcept]
    rw [hstop, Nat.add_sub_cancel_left]
  · simp only [cut, if_neg hinside, Outcome.ofExcept]
    by_cases hword : s.offset.toNat + s.size.toNat < UInt64.size
    · obtain ⟨stop, hadd, hstop⟩ := Raw.add?_eq_some hword
      have hrange : ¬(s.offset ≤ stop ∧ stop.toNat ≤ constants.length) := by omega
      simp only [cutRaw, hadd, if_neg hrange]
    · -- The words do not even have a sum, so it is beyond the constants.
      simp only [cutRaw, Raw.add?, if_neg hword]

theorem NodeRecord.unpackRaw_eq (r : NodeRecord) : r.unpackRaw constants = .ofExcept (r.unpack constants) := by
  unfold unpackRaw unpack
  cases r.slice with
  | none => rfl
  | some slice =>
    simp only [slice.cutRaw_eq hsize]
    cases slice.cut r.name constants <;> rfl

theorem unpackNodesRaw_eq (records : List NodeRecord) :
    unpackNodesRaw constants records = .ofExcept (unpackNodes constants records) := by
  induction records with
  | nil => rfl
  | cons r records ih =>
    simp only [unpackNodesRaw, unpackNodes, r.unpackRaw_eq hsize, ih]
    cases r.unpack constants with
    | error fault => rfl
    | ok node => cases unpackNodes constants records <;> rfl

end

/-! ## Models put together -/

def Model.ofBlobRaw (blob : Blob) : Outcome BlobFault Model :=
  (Outcome.ofExcept ((Json.decode ModelRecord.decode blob.document).mapError .document)).bind fun record =>
    ((unpackNodesRaw blob.constants record.nodes).mapError .form).bind fun nodes =>
      let m : Model := ⟨record.friendlyName, nodes⟩
      (m.validateRaw.mapError .graph).map fun _ => m

theorem Model.ofBlobRaw_eq {blob : Blob} (h : blob.constants.length < UInt64.size) :
    ofBlobRaw blob = .ofExcept (ofBlob blob) := by
  unfold ofBlobRaw ofBlob
  cases Json.decode ModelRecord.decode blob.document with
  | error fault => rfl
  | ok record =>
    simp only [Except.mapError, Outcome.ofExcept, Outcome.bind, unpackNodesRaw_eq h, validateRaw_eq]
    cases unpackNodes blob.constants record.nodes with
    | error fault => rfl
    | ok nodes =>
      simp only [Outcome.mapError]
      cases Model.validate ⟨record.friendlyName, nodes⟩ <;> rfl

end DevicePlugin
