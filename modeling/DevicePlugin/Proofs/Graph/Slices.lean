import DevicePlugin.Proofs.Graph.Access

/-!
# Slices of the constants

A document says where among the constants the data of a node lies, and may say
anything. The first slice in the order of the nodes that reaches beyond the constants
is reported, before the graph is looked at. If there is none, every node gets exactly
the bytes of its slice, and the graph decides.
-/

namespace DevicePlugin

def NodeRecord.InRange (r : NodeRecord) (constants : Bytes) : Prop :=
  ∀ slice, r.slice = some slice → slice.offset.toNat + slice.size.toNat ≤ constants.length

def NodeRecord.described (r : NodeRecord) (constants : Bytes) : Node :=
  r.node (r.slice.map fun slice => (constants.drop slice.offset.toNat).take slice.size.toNat)

def ModelRecord.InRange (record : ModelRecord) (constants : Bytes) : Prop :=
  ∀ r ∈ record.nodes, r.InRange constants

def ModelRecord.described (record : ModelRecord) (constants : Bytes) : Model :=
  ⟨record.friendlyName, record.nodes.map fun r => r.described constants⟩

def NodeRecord.Exceeds (r : NodeRecord) (constants : Bytes) (fault : FormFault) : Prop :=
  ∃ slice, r.slice = some slice ∧ constants.length < slice.offset.toNat + slice.size.toNat ∧
    fault = .sliceRange r.name slice.offset.toNat slice.size.toNat constants.length

def FirstExceeds (constants : Bytes) (records : List NodeRecord) (fault : FormFault) : Prop :=
  ∃ before r after, records = before ++ r :: after ∧ (∀ r' ∈ before, r'.InRange constants) ∧
    r.Exceeds constants fault

def NodeRecord.Filled (r : NodeRecord) (constants : Bytes) (node : Node) : Prop :=
  node = r.node node.data ∧
    match r.slice with
    | none => node.data = none
    | some slice => ∃ data, node.data = some data ∧ data.length = slice.size.toNat ∧
        ∀ i < slice.size.toNat, data[i]? = constants[slice.offset.toNat + i]?

section
variable {constants : Bytes}

/-! ## One record -/

theorem NodeRecord.unpack_of_inRange {r : NodeRecord} (h : r.InRange constants) :
    r.unpack constants = .ok (r.described constants) := by
  unfold unpack described
  cases hslice : r.slice with
  | none => rfl
  | some slice => simp [Slice.cut, h slice hslice, Except.map]

theorem NodeRecord.unpack_of_exceeds {r : NodeRecord} {fault : FormFault} (h : r.Exceeds constants fault) :
    r.unpack constants = .error fault := by
  obtain ⟨slice, hslice, houtside, rfl⟩ := h
  simp only [unpack, hslice, Slice.cut, if_neg (Nat.not_le_of_lt houtside), Except.map]

theorem NodeRecord.inRange_or_exceeds (r : NodeRecord) (constants : Bytes) :
    r.InRange constants ∨ ∃ fault, r.Exceeds constants fault := by
  by_cases h : r.InRange constants
  · exact .inl h
  · simp only [InRange, Classical.not_forall] at h
    obtain ⟨slice, hslice, houtside⟩ := h
    exact .inr ⟨_, slice, hslice, Nat.lt_of_not_le houtside, rfl⟩

theorem NodeRecord.Exceeds.not_inRange {r : NodeRecord} {fault : FormFault} (h : r.Exceeds constants fault) :
    ¬r.InRange constants := by
  obtain ⟨slice, hslice, houtside, -⟩ := h
  exact fun hrange => Nat.not_le_of_lt houtside (hrange slice hslice)

theorem NodeRecord.filled_described {r : NodeRecord} (h : r.InRange constants) :
    r.Filled constants (r.described constants) := by
  refine ⟨rfl, ?_⟩
  cases hslice : r.slice with
  | none =>
    simp only [described, hslice]
    rfl
  | some slice =>
    have hinside := h slice hslice
    refine ⟨(constants.drop slice.offset.toNat).take slice.size.toNat, ?_, ?_, fun i hi => ?_⟩
    · simp only [described, hslice]
      rfl
    · rw [List.length_take, List.length_drop]
      omega
    · rw [List.getElem?_take_of_lt hi, List.getElem?_drop]

/-! ## All records -/

theorem unpackNodes_of_inRange (records : List NodeRecord) (h : ∀ r ∈ records, r.InRange constants) :
    unpackNodes constants records = .ok (records.map fun r => r.described constants) := by
  induction records with
  | nil => rfl
  | cons r records ih =>
    have hfirst := NodeRecord.unpack_of_inRange (h r (by simp))
    have hrest := ih fun r' hr' => h r' (by simp [hr'])
    simp only [unpackNodes, hfirst, hrest, Except.map, List.map_cons]

theorem unpackNodes_of_firstExceeds {records : List NodeRecord} {fault : FormFault}
    (h : FirstExceeds constants records fault) : unpackNodes constants records = .error fault := by
  obtain ⟨before, r, after, rfl, hbefore, hexceeds⟩ := h
  induction before with
  | nil => simp only [List.nil_append, unpackNodes, NodeRecord.unpack_of_exceeds hexceeds]
  | cons r' before ih =>
    have hfirst := NodeRecord.unpack_of_inRange (hbefore r' (by simp))
    have hrest := ih fun r'' hr'' => hbefore r'' (by simp [hr''])
    simp only [List.cons_append, unpackNodes, hfirst, hrest, Except.map]

theorem FirstExceeds.not_inRange {records : List NodeRecord} {fault : FormFault}
    (h : FirstExceeds constants records fault) : ¬∀ r ∈ records, r.InRange constants := by
  obtain ⟨before, r, after, rfl, -, hexceeds⟩ := h
  exact fun hall => hexceeds.not_inRange (hall r (by simp))

theorem inRange_or_firstExceeds (constants : Bytes) (records : List NodeRecord) :
    (∀ r ∈ records, r.InRange constants) ∨ ∃ fault, FirstExceeds constants records fault := by
  induction records with
  | nil => exact .inl nofun
  | cons r records ih =>
    rcases r.inRange_or_exceeds constants with hfirst | ⟨fault, hexceeds⟩
    · rcases ih with hrest | ⟨fault, before, r', after, rfl, hbefore, hexceeds⟩
      · exact .inl (List.forall_mem_cons.mpr ⟨hfirst, hrest⟩)
      · exact .inr ⟨fault, r :: before, r', after, rfl, List.forall_mem_cons.mpr ⟨hfirst, hbefore⟩, hexceeds⟩
    · exact .inr ⟨fault, [], r, records, rfl, nofun, hexceeds⟩

end

/-! ## Models -/

namespace Model

theorem ofBlob_of_no_document {blob : Blob}
    (h : ¬∃ record, Json.decode ModelRecord.decode blob.document = .ok record) :
    ∃ fault, ofBlob blob = .error (.document fault) := by
  unfold ofBlob
  cases hdocument : Json.decode ModelRecord.decode blob.document with
  | ok record => exact absurd ⟨record, hdocument⟩ h
  | error fault => exact ⟨fault, rfl⟩

section
variable {blob : Blob} {record : ModelRecord} (hdocument : Json.decode ModelRecord.decode blob.document = .ok record)
include hdocument

theorem ofBlob_of_firstExceeds {form : FormFault} (h : FirstExceeds blob.constants record.nodes form) :
    ofBlob blob = .error (.form form) := by
  simp only [ofBlob, hdocument, unpackNodes_of_firstExceeds h]

theorem ofBlob_of_not_inRange (h : ¬record.InRange blob.constants) : ∃ form, ofBlob blob = .error (.form form) := by
  obtain ⟨form, hform⟩ := (inRange_or_firstExceeds blob.constants record.nodes).resolve_left h
  exact ⟨form, ofBlob_of_firstExceeds hdocument hform⟩

theorem ofBlob_of_inRange (h : record.InRange blob.constants) :
    ofBlob blob =
      match (record.described blob.constants).validate with
      | .error fault => .error (.graph fault)
      | .ok () => .ok (record.described blob.constants) :=
  ofBlob_eq hdocument (unpackNodes_of_inRange record.nodes h)

/-- Of a document that can be read, the first slice beyond the constants is reported, with its node, its start,
its size and the number of bytes there are, whatever the graph looks like. If there is none, all nodes have the
bytes of their slices, or no data where they have no slice, and the model is accepted exactly if its check passes.
Computed in words, with sums that are checked, all this is the same. -/
theorem ofBlob_slices :
    (blob.constants.length < UInt64.size → ofBlobRaw blob = .ofExcept (ofBlob blob)) ∧
    (∀ form, ofBlob blob = .error (.form form) ↔ FirstExceeds blob.constants record.nodes form) ∧
    ((∃ failure, (ofBlob blob).mapError Failure.ofBlobFault = .error failure ∧ failure.kind = "MalformedStream") ↔
      ¬record.InRange blob.constants) ∧
    (record.InRange blob.constants →
      let m := record.described blob.constants
      List.Forall₂ (fun r node => r.Filled blob.constants node) record.nodes m.nodes ∧
      (∀ again, ofBlob blob = .ok again ↔ again = m ∧ m.validate = .ok ()) ∧
      ∀ fault, ofBlob blob = .error (.graph fault) ↔ m.validate = .error fault) := by
  have hform (form : FormFault) :
      ofBlob blob = .error (.form form) ↔ FirstExceeds blob.constants record.nodes form := by
    refine ⟨fun h => ?_, ofBlob_of_firstExceeds hdocument⟩
    rcases inRange_or_firstExceeds blob.constants record.nodes with hrange | ⟨first, hfirst⟩
    · rw [ofBlob_of_inRange hdocument hrange] at h
      split at h <;> cases h
    · rw [ofBlob_of_firstExceeds hdocument hfirst] at h
      cases h
      exact hfirst
  refine ⟨ofBlobRaw_eq, hform, ⟨?_, fun h => ?_⟩, fun hrange => ?_⟩
  · rintro ⟨failure, hfailure, hkind⟩ hrange
    rw [ofBlob_of_inRange hdocument hrange] at hfailure
    split at hfailure
    · cases hfailure
      exact absurd hkind (by simp [Failure.ofBlobFault, Failure.kind])
    · cases hfailure
  · obtain ⟨form, hfault⟩ := ofBlob_of_not_inRange hdocument h
    exact ⟨.form form, by rw [hfault]; rfl, rfl⟩
  · intro m
    have hblob := ofBlob_of_inRange hdocument hrange
    have hfilled : ∀ r ∈ record.nodes, r.Filled blob.constants (r.described blob.constants) :=
      fun r hr => NodeRecord.filled_described (hrange r hr)
    refine ⟨List.forall₂_map_right_iff.mpr (List.forall₂_same.mpr hfilled), fun again => ?_, fun fault => ?_⟩
    · rw [hblob]
      cases m.validate with
      | error fault => simp
      | ok _ => simp [m, eq_comm]
    · rw [hblob]
      cases m.validate <;> simp

end

/-- The first slice lies empty at the end of the constants. The second one starts so late that its end, as a
word, comes before its start. The graph is wrong as well. -/
def wrapping : ModelRecord :=
  ⟨"net", [⟨0, "w", .constant, [], ⟨.u8, [0]⟩, .empty, some ⟨2, 0⟩⟩,
    ⟨7, "w", .constant, [], ⟨.u8, [2]⟩, .empty, some ⟨18446744073709551615, 2⟩⟩]⟩

theorem ofBlob_slices_wrapping :
    let blob : Blob := ⟨wrapping.toJson.bytes, [1, 2]⟩
    ofBlob blob = .error (.form (.sliceRange "w" 18446744073709551615 2 2)) ∧
      ofBlobRaw blob = .error (.form (.sliceRange "w" 18446744073709551615 2 2)) := by
  intro blob
  have hdocument : Json.decode ModelRecord.decode blob.document = .ok wrapping := wrapping.decode_bytes
  obtain ⟨hraw, hform, -⟩ := ofBlob_slices hdocument
  have hfirst : FirstExceeds blob.constants wrapping.nodes (.sliceRange "w" 18446744073709551615 2 2) := by
    refine ⟨[⟨0, "w", .constant, [], ⟨.u8, [0]⟩, .empty, some ⟨2, 0⟩⟩], _, [], rfl, ?_, ⟨_, rfl, ?_, rfl⟩⟩
    · intro r hr slice hslice
      cases List.mem_singleton.mp hr
      cases hslice
      decide
    · decide
  have hblob := (hform _).mpr hfirst
  refine ⟨hblob, ?_⟩
  rw [hraw (by decide), hblob]
  rfl

end Model

end DevicePlugin
