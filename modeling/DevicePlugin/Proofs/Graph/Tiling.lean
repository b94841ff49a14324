import DevicePlugin.Proofs.Graph.Slices
import Mathlib.Algebra.Ring.Nat

/-!
# Constants without gaps

The data of the nodes stands in one block, in the order of the nodes. What the document
says of it are slices that follow each other without gaps or overlaps, from the start of
the block to its end, one for each node that carries data, be it empty.
-/

namespace DevicePlugin

def Tiles (start : Nat) : List Slice → Nat → Prop
  | [], stop => start = stop
  | slice :: rest, stop => slice.offset.toNat = start ∧ Tiles (start + slice.size.toNat) rest stop

theorem packNodes_tiles (nodes : List Node) (start : Nat)
    (h : start + (packNodes start nodes).2.length < UInt64.size) :
    Tiles start ((packNodes start nodes).1.filterMap NodeRecord.slice)
      (start + (packNodes start nodes).2.length) := by
  induction nodes generalizing start with
  | nil => rfl
  | cons node nodes ih =>
    cases hdata : node.data with
    | none =>
      rw [packNodes_none hdata] at h ⊢
      exact ih start h
    | some data =>
      rw [packNodes_some hdata] at h ⊢
      simp only [List.length_append] at h ⊢
      have hoffset : (UInt64.ofNat start).toNat = start := UInt64.toNat_ofNat_of_lt' (by omega)
      have hsize : (UInt64.ofNat data.length).toNat = data.length := UInt64.toNat_ofNat_of_lt' (by omega)
      have hrest := ih (start + data.length) (by omega)
      rw [Nat.add_assoc] at hrest
      refine ⟨hoffset, ?_⟩
      rw [hsize]
      exact hrest

theorem packNodes_constants (nodes : List Node) (start : Nat) :
    (packNodes start nodes).2 = (nodes.filterMap Node.data).flatten := by
  induction nodes generalizing start with
  | nil => rfl
  | cons node nodes ih =>
    cases hdata : node.data with
    | none => rw [packNodes_none hdata, List.filterMap_cons_none hdata, ih]
    | some data => rw [packNodes_some hdata, List.filterMap_cons_some hdata, ih, List.flatten_cons]

/-- Records that are put together to nodes hold the slices of these nodes' data. -/
theorem filled_of_unpackNodes {constants : Bytes} {records : List NodeRecord} {nodes : List Node}
    (h : unpackNodes constants records = .ok nodes) :
    List.Forall₂ (fun r node => r.Filled constants node) records nodes := by
  rcases inRange_or_firstExceeds constants records with hrange | ⟨fault, hexceeds⟩
  · rw [unpackNodes_of_inRange records hrange] at h
    cases h
    rw [List.forall₂_map_right_iff, List.forall₂_same]
    exact fun r hr => NodeRecord.filled_described (hrange r hr)
  · rw [unpackNodes_of_firstExceeds hexceeds] at h
    cases h

theorem sizes_of_data {nodes : List Node} (hstocked : ∀ node ∈ nodes, node.data.isSome ↔ node.kind = .constant)
    (hfilled : ∀ node ∈ nodes, ∀ data, node.data = some data → node.desc.byteSize = some data.length) :
    List.Forall₂ (fun node size => node.desc.byteSize = some size) (nodes.filter fun n => n.kind = .constant)
      ((nodes.filterMap Node.data).map List.length) := by
  induction nodes with
  | nil => exact .nil
  | cons node nodes ih =>
    obtain ⟨hnode, hrest⟩ := List.forall_mem_cons.mp hstocked
    obtain ⟨hsize, hsizes⟩ := List.forall_mem_cons.mp hfilled
    cases hdata : node.data with
    | none =>
      have hkind : ¬ node.kind = .constant := by
        rw [← hnode, hdata]
        nofun
      rw [List.filterMap_cons_none hdata, List.filter_cons_of_neg (by simpa using hkind)]
      exact ih hrest hsizes
    | some data =>
      have hkind : node.kind = .constant := by
        rw [← hnode, hdata]
        rfl
      rw [List.filterMap_cons_some hdata, List.filter_cons_of_pos (by simpa using hkind)]
      exact .cons (hsize data hdata) (ih hrest hsizes)

namespace Model

def constantNodes (m : Model) : List Node := m.nodes.filter fun n => n.kind = .constant

/-- The slices in the document of a model tile its constants, and every node that carries data has the slice
with exactly this data. The constants of a valid model are as long as its constant nodes take together. -/
theorem toBlob_tiles {m : Model} (h : m.Addressable) :
    ∃ record, Json.decode ModelRecord.decode m.toBlob.document = .ok record ∧
      Tiles 0 (record.nodes.filterMap NodeRecord.slice) m.toBlob.constants.length ∧
      List.Forall₂ (fun r node => r.Filled m.toBlob.constants node) record.nodes m.nodes ∧
      m.toBlob.constants = (m.nodes.filterMap Node.data).flatten ∧
      (m.validate = .ok () →
        ∃ sizes, List.Forall₂ (fun node size => node.desc.byteSize = some size) m.constantNodes sizes ∧
          m.toBlob.constants.length = sizes.sum) := by
  have hconstants : m.toBlob.constants = (m.nodes.filterMap Node.data).flatten := packNodes_constants m.nodes 0
  refine ⟨m.record, m.record.decode_bytes, ?_, ?_, hconstants, fun hvalidate => ?_⟩
  · have htiles := packNodes_tiles m.nodes 0
    rw [Nat.zero_add] at htiles
    exact htiles h
  · exact filled_of_unpackNodes (unpackNodes_toBlob h)
  · have hvalid : m.Valid := (validate_eq_ok_iff m).1 hvalidate
    refine ⟨_, sizes_of_data hvalid.stocked hvalid.filled, ?_⟩
    rw [hconstants, List.length_flatten]

def interleaved : Model :=
  ⟨"net", [⟨0, "x", .parameter, [], ⟨.f32, [2]⟩, .empty, none⟩,
    ⟨1, "v", .constant, [], ⟨.u8, [2]⟩, .empty, some [7, 8]⟩,
    ⟨2, "none", .constant, [], ⟨.f32, [3, 0]⟩, .empty, some []⟩,
    ⟨3, "y", .result, [0], ⟨.f32, [2]⟩, .empty, none⟩,
    ⟨4, "w", .constant, [], ⟨.f16, [1]⟩, .empty, some [9, 7]⟩]⟩

theorem toBlob_tiles_interleaved :
    interleaved.Addressable ∧ Tiles 0 [⟨0, 2⟩, ⟨2, 0⟩, ⟨2, 2⟩] 4 ∧ interleaved.toBlob.constants = [7, 8, 9, 7] ∧
      ∃ sizes, List.Forall₂ (fun node size => node.desc.byteSize = some size) interleaved.constantNodes sizes ∧
        interleaved.toBlob.constants.length = sizes.sum := by
  have haddressable : interleaved.Addressable := by decide
  obtain ⟨record, hdocument, htiles, -, hconstants, hsizes⟩ := toBlob_tiles haddressable
  have hrecord : record = interleaved.record := by
    have hwritten : Json.decode ModelRecord.decode interleaved.toBlob.document = .ok interleaved.record :=
      interleaved.record.decode_bytes
    rw [hwritten] at hdocument
    exact (Except.ok.inj hdocument).symm
  subst hrecord
  exact ⟨haddressable, htiles, hconstants, hsizes (by decide)⟩

end Model

end DevicePlugin
