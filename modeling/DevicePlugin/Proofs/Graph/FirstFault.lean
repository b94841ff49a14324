import DevicePlugin.Failure
import DevicePlugin.Proofs.Graph.Access

/-!
# The first node that is wrong

A model that is not valid has a first node that makes it so. The check stops at this
node, and what is said of it is true: the node breaks the condition that is named.
-/

namespace DevicePlugin

inductive Node.Breaks (before : List Node) (node : Node) : GraphFault → Prop
  | misplaced (h : node.id.toNat ≠ before.length) : Breaks before node (.misplaced node.name node.id before.length)
  | duplicateName (h : node.name ∈ before.map Node.name) : Breaks before node (.duplicateName node.name)
  | laterInput {input : NodeId} (hinput : input ∈ node.inputs) (h : before.length ≤ input.toNat) :
      Breaks before node (.laterInput node.name input)
  | sizeOverflow (h : node.desc.byteSize = none) : Breaks before node (.sizeOverflow node.name node.desc.shape)
  | dataMismatch (h : ¬(node.data.isSome ↔ node.kind = .constant)) : Breaks before node (.dataMismatch node.name)
  | constantSize {data : Bytes} {needed : Nat} (hdata : node.data = some data)
      (hneeded : node.desc.byteSize = some needed) (h : data.length ≠ needed) :
      Breaks before node (.constantSize node.name data.length needed)
  | sourceInputs (hkind : node.kind = .parameter ∨ node.kind = .constant) (h : node.inputs ≠ []) :
      Breaks before node (.sourceInputs node.name)
  | resultArity (hkind : node.kind = .result) (h : node.inputs.length ≠ 1) :
      Breaks before node (.resultArity node.name node.inputs.length)
  | resultMismatch {input : NodeId} {source : Node} (hkind : node.kind = .result) (hinputs : node.inputs = [input])
      (hsource : before[input.toNat]? = some source) (h : source.desc ≠ node.desc) :
      Breaks before node (.resultMismatch node.name)

section
variable {before : List Node} {node : Node} {fault : GraphFault}

theorem Node.Breaks.not_fits (h : node.Breaks before fault) : ¬node.Fits before := by
  intro hfits
  cases h with
  | misplaced h => exact h hfits.placed
  | duplicateName h => exact hfits.fresh h
  | laterInput hinput h => exact absurd (hfits.ordered _ hinput) (Nat.not_lt_of_le h)
  | sizeOverflow h =>
    have hsized := hfits.sized
    rw [h] at hsized
    cases hsized
  | dataMismatch h => exact h hfits.stocked
  | constantSize hdata hneeded h =>
    have hfilled := hfits.filled _ hdata
    rw [hneeded] at hfilled
    exact h (Option.some.inj hfilled).symm
  | sourceInputs hkind h => exact h (hfits.source hkind)
  | resultArity hkind h =>
    obtain ⟨input, source, hinputs, -⟩ := hfits.result hkind
    exact h (by rw [hinputs, List.length_singleton])
  | resultMismatch hkind hinputs hsource h =>
    obtain ⟨input', source', hinputs', hsource', hdesc⟩ := hfits.result hkind
    cases hinputs.symm.trans hinputs'
    cases hsource.symm.trans hsource'
    exact h hdesc

namespace Model

theorem breaks_of_checkData (hsized : node.desc.byteSize.isSome) (h : checkData node = .error fault) :
    node.Breaks before fault := by
  unfold checkData at h
  split at h
  · rename_i data hkind hdata
    obtain ⟨needed, hneeded⟩ := Option.isSome_iff_exists.mp hsized
    simp only [checkConstant, checkSize, hneeded] at h
    split at h
    · cases h
    · rename_i hlength
      cases h
      exact .constantSize hdata hneeded hlength
  · rename_i hkind hdata
    cases h
    exact .dataMismatch (by simp [hkind, hdata])
  · rename_i data hdata hkind
    cases h
    refine .dataMismatch fun hstocked => hkind (hstocked.mp ?_)
    rw [hdata]
    rfl
  · cases h

theorem breaks_of_checkStanding (h : checkStanding before node = .error fault) : node.Breaks before fault := by
  unfold checkStanding at h
  split at h
  · rename_i hplaced
    cases h
    exact .misplaced hplaced
  split at h
  · rename_i hname
    cases h
    exact .duplicateName hname
  split at h
  · rename_i input hlater
    cases h
    exact .laterInput (List.mem_of_find?_eq_some hlater) (by simpa using List.find?_some hlater)
  cases hsize : node.desc.byteSize with
  | none =>
    rw [checkSize_eq_error hsize] at h
    cases h
    exact .sizeOverflow hsize
  | some size =>
    rw [checkSize_eq_ok_iff.mpr hsize] at h
    exact breaks_of_checkData (by rw [hsize]; rfl) h

theorem breaks_of_checkResult (hkind : node.kind = .result)
    (hordered : ∀ input ∈ node.inputs, input.toNat < before.length)
    (h : checkResult before node = .error fault) : node.Breaks before fault := by
  unfold checkResult at h
  split at h
  · rename_i input hinputs
    have hlt : input.toNat < before.length := hordered input (by rw [hinputs]; exact List.mem_singleton_self input)
    have hsource : before[input.toNat]? = some before[input.toNat] := List.getElem?_eq_getElem hlt
    split at h
    · cases h
    · rename_i hdesc
      cases h
      rw [hsource, Option.map_some, Option.some.injEq] at hdesc
      exact .resultMismatch hkind hinputs hsource hdesc
  · rename_i hinputs
    cases h
    refine .resultArity hkind fun hone => ?_
    obtain ⟨input, hinput⟩ := List.length_eq_one_iff.mp hone
    exact hinputs input hinput

theorem breaks_of_checkWiring (hordered : ∀ input ∈ node.inputs, input.toNat < before.length)
    (h : checkWiring before node = .error fault) : node.Breaks before fault := by
  unfold checkWiring at h
  split at h
  · rename_i hkind
    split at h
    · cases h
    · rename_i hinputs
      cases h
      exact .sourceInputs (.inl hkind) hinputs
  · rename_i hkind
    split at h
    · cases h
    · rename_i hinputs
      cases h
      exact .sourceInputs (.inr hkind) hinputs
  · rename_i hkind
    exact breaks_of_checkResult hkind hordered h
  · cases h

theorem breaks_of_checkNode (h : checkNode before node = .error fault) : node.Breaks before fault := by
  rw [checkNode_eq] at h
  cases hstanding : checkStanding before node with
  | error earlier =>
    rw [hstanding] at h
    cases h
    exact breaks_of_checkStanding hstanding
  | ok _ =>
    rw [hstanding] at h
    exact breaks_of_checkWiring (ordered_of_checkStanding hstanding) h

end Model

end

namespace Model

def firstNodes (m : Model) (count : Nat) : Model := ⟨m.friendlyName, m.nodes.take count⟩

theorem valid_firstNodes_succ {m : Model} {position : Nat} {node : Node} (h : m.nodes[position]? = some node) :
    (m.firstNodes (position + 1)).Valid ↔ (m.firstNodes position).Valid ∧ node.Fits (m.nodes.take position) := by
  have htake : m.nodes.take (position + 1) = m.nodes.take position ++ [node] := by
    rw [List.take_add_one, h, Option.toList_some]
  rw [valid_iff_each, valid_iff_each]
  simp only [firstNodes]
  rw [htake, Node.each_concat]

/-- A model passes its check exactly if it is valid, and no look-up of the check is out of range. Otherwise the
check fails at the first node that makes the model invalid, and says of this node what is wrong with it. -/
theorem validate_decides (m : Model) :
    (m.validateRaw = .ofExcept m.validate ∧ m.validateRaw ≠ .panic) ∧
    (m.validate = .ok () ↔ m.Valid) ∧
    ∀ fault, m.validate = .error fault →
      (Failure.graph fault).kind = "InvalidGraph" ∧
      ∃ position node, m.nodes[position]? = some node ∧
        (m.firstNodes position).Valid ∧ ¬(m.firstNodes (position + 1)).Valid ∧
        node.Breaks (m.nodes.take position) fault := by
  refine ⟨⟨m.validateRaw_eq, ?_⟩, m.validate_eq_ok_iff, fun fault h => ⟨rfl, ?_⟩⟩
  · rw [m.validateRaw_eq]
    exact Outcome.ofExcept_ne_panic m.validate
  · obtain ⟨position, node, hnode, heach, hcheck⟩ := exists_of_validate_eq_error h
    have hbreaks : node.Breaks (m.nodes.take position) fault := breaks_of_checkNode hcheck
    have hbefore : (m.firstNodes position).Valid := (valid_iff_each (m.firstNodes position)).mpr heach
    refine ⟨position, node, hnode, hbefore, fun hvalid => ?_, hbreaks⟩
    exact hbreaks.not_fits ((valid_firstNodes_succ hnode).mp hvalid).2

/-- The second node reads far beyond the model; the third has no size, but is not come to. -/
def farReading : Model :=
  ⟨"net", [⟨0, "x", .parameter, [], ⟨.u8, [2]⟩, .empty, none⟩,
    ⟨1, "y", .result, [18446744073709551615], ⟨.u8, [2]⟩, .empty, none⟩,
    ⟨2, "x", .parameter, [], ⟨.i64, [18446744073709551615]⟩, .empty, none⟩]⟩

theorem validate_decides_farReading :
    farReading.validate = .error (.laterInput "y" 18446744073709551615) ∧
      ¬farReading.Valid ∧ (farReading.firstNodes 1).Valid ∧ ¬(farReading.firstNodes 2).Valid := by
  have hfault : farReading.validate = .error (.laterInput "y" 18446744073709551615) := rfl
  obtain ⟨-, hvalid, hfails⟩ := farReading.validate_decides
  obtain ⟨-, position, node, hnode, hbefore, hafter, hbreaks⟩ := hfails _ hfault
  have hposition : position = 1 := by
    generalize hname : "y" = name at hbreaks
    match position with
    | 0 =>
      cases hnode
      cases hbreaks
      exact absurd hname (by decide)
    | 1 => rfl
    | 2 =>
      cases hnode
      cases hbreaks
      exact absurd hname (by decide)
    | position + 3 => cases hnode
  subst hposition
  refine ⟨hfault, ?_, hbefore, hafter⟩
  rw [← hvalid, hfault]
  nofun

end Model

end DevicePlugin
