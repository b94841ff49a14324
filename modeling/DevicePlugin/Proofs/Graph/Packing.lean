import DevicePlugin.Failure
import DevicePlugin.Proofs.Graph.Document

/-!
# Models taken apart and put together

The slices of a model tile its constants, so cutting them out again gives every
node its own data. Whether the model is accepted is then up to its graph alone.
-/

namespace DevicePlugin

theorem packNodes_none {node : Node} (h : node.data = none) (offset : Nat) (nodes : List Node) :
    packNodes offset (node :: nodes) =
      (node.record none :: (packNodes offset nodes).1, (packNodes offset nodes).2) := by
  simp [packNodes, h]

theorem packNodes_some {node : Node} {data : Bytes} (h : node.data = some data) (offset : Nat)
    (nodes : List Node) :
    packNodes offset (node :: nodes) =
      (node.record (some ⟨.ofNat offset, .ofNat data.length⟩) :: (packNodes (offset + data.length) nodes).1,
        data ++ (packNodes (offset + data.length) nodes).2) := by
  simp [packNodes, h]

theorem cut_between (name : String) (before data after : Bytes)
    (h : before.length + data.length < UInt64.size) :
    Slice.cut ⟨.ofNat before.length, .ofNat data.length⟩ name (before ++ data ++ after) = .ok data := by
  have hoffset : (UInt64.ofNat before.length).toNat = before.length :=
    UInt64.toNat_ofNat_of_lt' (by omega)
  have hsize : (UInt64.ofNat data.length).toNat = data.length :=
    UInt64.toNat_ofNat_of_lt' (by omega)
  simp [Slice.cut, hoffset, hsize]

/-- Nodes get back the data that was packed for them, whatever stands around it. -/
theorem unpackNodes_packNodes (nodes : List Node) (before after : Bytes)
    (h : before.length + (packNodes before.length nodes).2.length < UInt64.size) :
    unpackNodes (before ++ (packNodes before.length nodes).2 ++ after) (packNodes before.length nodes).1 =
      .ok nodes := by
  induction nodes generalizing before with
  | nil => rfl
  | cons node nodes ih =>
    cases hdata : node.data with
    | none =>
      rw [packNodes_none hdata] at h ⊢
      have hnode : (node.record none).node none = node := by
        rw [← hdata]; rfl
      simp only [unpackNodes, NodeRecord.unpack, Node.record, ih before h, Except.map]
      rw [← hnode]
      rfl
    | some data =>
      rw [packNodes_some hdata] at h ⊢
      simp only [List.length_append] at h
      have hnode (slice : Option Slice) : (node.record slice).node (some data) = node := by
        rw [← hdata]; rfl
      have hcut := cut_between node.name before data
        ((packNodes (before.length + data.length) nodes).2 ++ after) (by omega)
      have hrest := ih (before ++ data) (by simp only [List.length_append]; omega)
      simp only [List.length_append, List.append_assoc] at hcut hrest ⊢
      simp only [unpackNodes, NodeRecord.unpack, Node.record] at hcut ⊢
      simp only [hcut, Except.map, hrest]
      rw [← hnode none]
      rfl

namespace Model

/-- The bytes of all constants are counted by a 64-bit word, as the length of any block in memory is. -/
def Addressable (m : Model) : Prop := m.toBlob.constants.length < UInt64.size

instance (m : Model) : Decidable m.Addressable :=
  inferInstanceAs (Decidable (m.toBlob.constants.length < UInt64.size))

theorem ofBlob_eq {blob : Blob} {record : ModelRecord}
    (h : Json.decode ModelRecord.decode blob.document = .ok record) {nodes : List Node}
    (hnodes : unpackNodes blob.constants record.nodes = .ok nodes) :
    ofBlob blob =
      match (⟨record.friendlyName, nodes⟩ : Model).validate with
      | .error fault => .error (.graph fault)
      | .ok () => .ok ⟨record.friendlyName, nodes⟩ := by
  unfold ofBlob
  simp only [h]
  generalize unpackNodes blob.constants record.nodes = unpacked at hnodes ⊢
  subst hnodes
  rfl

theorem unpackNodes_toBlob {m : Model} (h : m.Addressable) :
    unpackNodes m.toBlob.constants m.record.nodes = .ok m.nodes := by
  have := unpackNodes_packNodes m.nodes [] [] (by simpa [Addressable, toBlob] using h)
  rwa [List.append_nil, List.nil_append] at this

theorem ofBlob_toBlob_eq {m : Model} (h : m.Addressable) :
    ofBlob m.toBlob =
      match m.validate with
      | .error fault => .error (.graph fault)
      | .ok () => .ok m := by
  have hdocument : Json.decode ModelRecord.decode m.toBlob.document = .ok m.record := m.record.decode_bytes
  exact ofBlob_eq hdocument (unpackNodes_toBlob h)

theorem validate_of_ofBlob {blob : Blob} {m : Model} (h : ofBlob blob = .ok m) : m.validate = .ok () := by
  unfold ofBlob at h
  split at h
  · cases h
  split at h
  · cases h
  simp only at h
  split at h
  · cases h
  · rename_i hvalid
    cases h
    exact hvalid

/-- Putting a model together again gives the model if its graph is valid, and what is wrong with the
graph otherwise. So what was accepted once is written in the same bytes ever after. -/
theorem ofBlob_toBlob :
    (∀ m : Model, m.Addressable →
      (ofBlob m.toBlob).mapError Failure.ofBlobFault = (m.validate.map fun _ => m).mapError Failure.graph) ∧
    ∀ (blob : Blob) (m : Model), ofBlob blob = .ok m → m.Addressable →
      ofBlob m.toBlob = .ok m ∧ ∀ again, ofBlob m.toBlob = .ok again → again.toBlob = m.toBlob := by
  constructor
  · intro m h
    rw [ofBlob_toBlob_eq h]
    cases m.validate <;> rfl
  · intro blob m hblob h
    have hback : ofBlob m.toBlob = .ok m := by
      rw [ofBlob_toBlob_eq h, validate_of_ofBlob hblob]
    refine ⟨hback, ?_⟩
    intro again hagain
    rw [hback] at hagain
    cases hagain
    rfl

def oddlyNamed (kind : NodeKind) : Model :=
  ⟨"net \"1\" é", [⟨0, "w\n", .constant, [], ⟨.u8, [2]⟩, .empty, some [7, 8]⟩,
    ⟨1, "\u0001", kind, [], ⟨.f32, [0, 18446744073709551615]⟩, .ofList [("k", "\\")], some []⟩]⟩

theorem ofBlob_toBlob_oddlyNamed :
    (oddlyNamed .result).Addressable ∧
      (ofBlob (oddlyNamed .result).toBlob).mapError Failure.ofBlobFault =
        .error (.graph (.dataMismatch "\u0001")) ∧
      (oddlyNamed .constant).Addressable ∧
      ofBlob (oddlyNamed .constant).toBlob = .ok (oddlyNamed .constant) := by
  have hresult : (oddlyNamed .result).Addressable := by decide
  have hconstant : (oddlyNamed .constant).Addressable := by decide
  have haccepted : ofBlob (oddlyNamed .constant).toBlob = .ok (oddlyNamed .constant) := by
    rw [ofBlob_toBlob_eq hconstant]
    rfl
  refine ⟨hresult, ?_, hconstant, (ofBlob_toBlob.2 _ _ haccepted hconstant).1⟩
  rw [ofBlob_toBlob.1 _ hresult]
  rfl

end Model

end DevicePlugin
