import DevicePlugin.Graph.Document
import DevicePlugin.Proofs.Json.Tree

/-!
# Documents of models

Every record of a model is read back from its document, whatever names, ids and
shapes it holds.
-/

namespace DevicePlugin

open Json (Tree Decoder Value)

/-! ## Dictionaries from their entries -/

theorem Entries.insert_append {α : Type} {key : String} {value : α} {entries : List (String × α)}
    (h : ∀ e ∈ entries, e.1 < key) : Entries.insert key value entries = entries ++ [(key, value)] := by
  induction entries with
  | nil => rfl
  | cons e rest ih =>
    obtain ⟨k, v⟩ := e
    have hlt : k < key := h (k, v) (by simp)
    have hnot : ¬key < k := fun hgt => String.lt_irrefl k (String.lt_trans hlt hgt)
    have hne : key ≠ k := fun heq => String.lt_irrefl k (heq ▸ hlt)
    simp [Entries.insert, hnot, hne, ih fun e he => h e (by simp [he])]

namespace Json.Tree

/-- Members in the order of their keys are the entries of the dictionary they make. -/
theorem foldMembers_insert {α : Type} (step : Dict α → String → Tree → Except Fault (Dict α))
    (write : α → Tree) :
    ∀ (rest : List (String × α)) (before d : Dict α),
      (∀ before, ∀ e ∈ rest, step before e.1 (write e.2) = .ok (before.insert e.1 e.2)) →
      before.entries ++ rest = d.entries →
      foldMembers step before (rest.map fun e => (some e.1, write e.2)) = .ok d
  | [], before, d, _, h => by
    obtain ⟨bs, hb⟩ := before
    obtain ⟨ds, hd⟩ := d
    simp only [List.append_nil] at h
    subst h
    rfl
  | (key, a) :: rest, before, d, hstep, h => by
    have hlt : ∀ e ∈ before.entries, e.1 < key := by
      have hsorted := d.sorted
      rw [← h, Entries.Sorted, List.pairwise_append] at hsorted
      exact fun e he => hsorted.2.2 e he (key, a) (by simp)
    have hentries : (before.insert key a).entries = before.entries ++ [(key, a)] :=
      Entries.insert_append hlt
    have hfirst : step before key (write a) = .ok (before.insert key a) :=
      hstep before (key, a) List.mem_cons_self
    have ih := foldMembers_insert step write rest (before.insert key a) d
      (fun before e he => hstep before e (List.mem_cons_of_mem _ he)) (by simp [hentries, ← h])
    simp only [List.map_cons, foldMembers, hfirst]
    exact ih

theorem decodeItems_map {α : Type} (decode : Decoder α) (write : α → Tree)
    (h : ∀ a, decode (write a) = .ok a) (as : List α) : decodeItems decode (as.map write) = .ok as := by
  induction as with
  | nil => rfl
  | cons a as ih => simp [decodeItems, h, ih, bind, Except.bind, pure, Except.pure]

theorem asList_map {α : Type} (decode : Decoder α) (write : α → Tree)
    (h : ∀ a, decode (write a) = .ok a) (as : List α) :
    asList decode (.array (as.map write) .closed) = .ok as := by
  simp only [asList, decodeItems_map decode write h]
  rfl

/-! ## Records -/

def readMember {σ : Type} (fields : List (Field σ)) (found : σ) (key : String) (value : Tree) :
    Except Fault σ :=
  match fields.find? (·.name = key) with
  | none => do
    value.skip
    return found
  | some field => if field.isSet found then .error .mistyped else field.read found value

theorem asRecord_object {σ : Type} (fields : List (Field σ)) (start : σ)
    (members : List (Option String × Tree)) :
    asRecord fields start (.object members .closed) = foldMembers (readMember fields) start members := by
  change (foldMembers (readMember fields) start members).bind _ = _
  cases foldMembers (readMember fields) start members <;> rfl

theorem foldMembers_append {σ : Type} (step : σ → String → Tree → Except Fault σ) (start : σ)
    (as bs : List (Option String × Tree)) :
    foldMembers step start (as ++ bs) = (foldMembers step start as).bind fun s => foldMembers step s bs := by
  induction as generalizing start with
  | nil => rfl
  | cons a as ih =>
    obtain ⟨key, value⟩ := a
    cases key with
    | none => rfl
    | some key =>
      simp only [List.cons_append, foldMembers, bind]
      cases step start key value with
      | error fault => rfl
      | ok next => exact ih next

end Json.Tree

open Json.Tree

theorem ElementType.decode_key (e : ElementType) : ElementType.decode (.text (some e.key)) = .ok e := by
  simp [ElementType.decode, asVariant]

theorem TensorDesc.decode_toJson (desc : TensorDesc) : TensorDesc.decode desc.toJson.toTree = .ok desc := by
  obtain ⟨elementType, shape⟩ := desc
  have hshape := asList_map asWord (fun d => .number (some (.natural d)))
    (fun _ => rfl) shape
  simp only [TensorDesc.decode, TensorDesc.toJson, Value.toTree, Value.memberTrees, Value.itemTrees_eq_map,
    List.map_map, asRecord_object]
  simp [foldMembers, readMember, TensorDesc.fields, ElementType.decode_key, Function.comp_def, Value.toTree, hshape,
    bind, Except.bind, Except.map]

theorem NodeKind.decode_toJson (kind : NodeKind) : NodeKind.decode kind.toJson.toTree = .ok kind := by
  cases kind <;> rfl

theorem Slice.decode_toJson (s : Slice) : Slice.decode s.toJson.toTree = .ok s := by
  simp only [Slice.decode, Slice.toJson, Value.toTree, Value.memberTrees, asRecord_object]
  simp [foldMembers, readMember, Slice.fields, asWord, bind, Except.bind, Except.map]

theorem attributesOfTree_entries (attributes : Dict String) :
    attributesOfTree (.object (attributes.entries.map fun e => (some e.1, .text (some e.2))) .closed) =
      .ok attributes := by
  have h := foldMembers_insert
    (fun attributes key value => value.asText.map fun s => attributes.insert key s)
    (fun s : String => .text (some s)) attributes.entries .empty attributes (fun _ _ _ => rfl) rfl
  simp only [attributesOfTree, asMembers, h]
  rfl

namespace NodeRecord

theorem readMembers_inputs {found : Found} (h : found.inputs = none) (inputs : List NodeId) :
    foldMembers (readMember fields) found
        (Value.memberTrees (if inputs = [] then [] else [("inputs", .array (inputs.map .natural))])) =
      .ok { found with inputs := if inputs = [] then none else some inputs } := by
  have hread := asList_map asWord (fun d => .number (some (.natural d)))
    (fun _ => rfl) inputs
  by_cases hi : inputs = []
  · simp [hi, Value.memberTrees, foldMembers, ← h]
  · simp [hi, Value.memberTrees, foldMembers, readMember, fields, h, Value.toTree, Value.itemTrees_eq_map,
      Function.comp_def, hread, bind, Except.bind, Except.map]

theorem readMembers_attributes {found : Found} (h : found.attributes = none) (attributes : Dict String) :
    foldMembers (readMember fields) found
        (Value.memberTrees (if attributes.entries = [] then []
          else [("attributes", .object (attributes.map Json.Value.text).entries)])) =
      .ok { found with attributes := if attributes.entries = [] then none else some attributes } := by
  have hread := attributesOfTree_entries attributes
  by_cases ha : attributes.entries = []
  · simp [ha, Value.memberTrees, foldMembers, ← h]
  · simp [ha, foldMembers, readMember, fields, h, Value.toTree, Value.memberTrees_eq_map, Dict.map,
      Function.comp_def, hread, bind, Except.bind, Except.map]

theorem readMembers_slice {found : Found} (h : found.slice = none) (slice : Option Slice) :
    foldMembers (readMember fields) found
        (Value.memberTrees (match slice with
          | none => []
          | some slice => [("constant", slice.toJson)])) =
      .ok { found with slice := slice.map some } := by
  cases slice with
  | none => simp [Value.memberTrees, foldMembers, ← h]
  | some slice =>
    have hread : asOptional Slice.decode slice.toJson.toTree = .ok (some slice) := by
      have := Slice.decode_toJson slice
      rw [Slice.toJson, Value.toTree] at this ⊢
      rw [asOptional, this]
      · rfl
      · simp
    simp [Value.memberTrees, foldMembers, readMember, fields, h, hread, bind, Except.bind, Except.map]

theorem decode_toJson (r : NodeRecord) : NodeRecord.decode r.toJson.toTree = .ok r := by
  obtain ⟨id, name, kind, inputs, desc, attributes, slice⟩ := r
  have hfirst : foldMembers (readMember fields) {} (Value.memberTrees
      [("id", .natural id), ("name", .text name), ("kind", kind.toJson)]) =
        .ok { id := some id, name := some name, kind := some kind } := by
    simp [Value.memberTrees, foldMembers, readMember, fields, Value.toTree, asWord, asText,
      NodeKind.decode_toJson, bind, Except.bind, Except.map]
  have houtput (found : Found) (h : found.desc = none) : foldMembers (readMember fields) found
      (Value.memberTrees [("output", desc.toJson)]) = .ok { found with desc := some desc } := by
    simp [Value.memberTrees, foldMembers, readMember, fields, h, TensorDesc.decode_toJson, bind,
      Except.bind, Except.map]
  have hall : asRecord fields {} (NodeRecord.toJson ⟨id, name, kind, inputs, desc, attributes, slice⟩).toTree =
      .ok { id := some id, name := some name, kind := some kind,
            inputs := if inputs = [] then none else some inputs, desc := some desc,
            attributes := if attributes.entries = [] then none else some attributes,
            slice := slice.map some } := by
    rw [NodeRecord.toJson, Value.toTree, asRecord_object]
    simp only [Value.memberTrees_append, foldMembers_append, hfirst, Except.bind]
    rw [readMembers_inputs]
    · simp only
      rw [houtput]
      · simp only
        rw [readMembers_attributes]
        · exact readMembers_slice rfl slice
        · rfl
      · rfl
    · rfl
  have hattributes : (if attributes.entries = [] then none else some attributes).getD .empty = attributes := by
    obtain ⟨entries, sorted⟩ := attributes
    cases entries <;> rfl
  have hin : (if inputs = [] then none else some inputs).getD [] = inputs := by
    cases inputs <;> rfl
  rw [NodeRecord.decode, hall]
  cases slice <;> simp only [Option.map, hattributes, hin] <;> rfl

end NodeRecord

theorem ModelRecord.decode_toJson (r : ModelRecord) : ModelRecord.decode r.toJson.toTree = .ok r := by
  obtain ⟨friendlyName, nodes⟩ := r
  have hread := asList_map NodeRecord.decode (fun n => n.toJson.toTree)
    NodeRecord.decode_toJson nodes
  simp only [ModelRecord.decode, ModelRecord.toJson, Value.toTree, Value.memberTrees, Value.itemTrees_eq_map,
    List.map_map, asRecord_object]
  simp [foldMembers, readMember, ModelRecord.fields, asText, Function.comp_def, hread, bind, Except.bind,
    Except.map]

/-! ## Documents hold no negative numbers -/

theorem naturals_written (ns : List UInt64) : Value.ItemsWritten (ns.map .natural) := by
  rw [Value.itemsWritten_iff]
  intro item hitem
  obtain ⟨n, -, rfl⟩ := List.mem_map.1 hitem
  trivial

theorem TensorDesc.toJson_written (desc : TensorDesc) : desc.toJson.IsWritten :=
  ⟨trivial, naturals_written desc.shape, trivial⟩

theorem NodeKind.toJson_written (kind : NodeKind) : kind.toJson.IsWritten := by
  cases kind <;> repeat' constructor

theorem NodeRecord.toJson_written (r : NodeRecord) : r.toJson.IsWritten := by
  change Value.MembersWritten _
  rw [Value.membersWritten_iff]
  intro m hm
  simp only [List.mem_append] at hm
  rcases hm with (((hm | hm) | hm) | hm) | hm
  · simp only [List.mem_cons, List.not_mem_nil, or_false] at hm
    rcases hm with rfl | rfl | rfl
    · trivial
    · trivial
    · exact r.kind.toJson_written
  · split at hm
    · cases hm
    · rw [List.mem_singleton] at hm
      subst hm
      exact naturals_written r.inputs
  · rw [List.mem_singleton] at hm
    subst hm
    exact r.desc.toJson_written
  · split at hm
    · cases hm
    · rw [List.mem_singleton] at hm
      subst hm
      change Value.MembersWritten _
      rw [Value.membersWritten_iff]
      intro e he
      obtain ⟨entry, -, rfl⟩ := List.mem_map.1 he
      trivial
  · split at hm
    · cases hm
    · rw [List.mem_singleton] at hm
      subst hm
      exact ⟨trivial, trivial, trivial⟩

theorem ModelRecord.toJson_written (r : ModelRecord) : r.toJson.IsWritten := by
  refine ⟨trivial, ?_, trivial⟩
  change Value.ItemsWritten _
  rw [Value.itemsWritten_iff]
  intro item hitem
  obtain ⟨n, -, rfl⟩ := List.mem_map.1 hitem
  exact n.toJson_written

/-- A record of a model is read back from its document. -/
theorem ModelRecord.decode_bytes (r : ModelRecord) : Json.decode ModelRecord.decode r.toJson.bytes = .ok r := by
  rw [Json.decode_bytes _ r.toJson_written, r.decode_toJson]

end DevicePlugin
