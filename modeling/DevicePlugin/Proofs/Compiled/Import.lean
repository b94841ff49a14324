import DevicePlugin.Proofs.Compiled.Acceptance
import DevicePlugin.Proofs.Graph.Slices
import DevicePlugin.Proofs.Stream.Format

/-!
# What is imported

An import looks at its bytes in six steps. The bytes are imported if they pass
them all, and else the first step that they do not pass decides the kind of the
failure. On the way no access is out of range.
-/

namespace DevicePlugin

/-! ## Bytes that hold a model -/

namespace Blob

structure Leads (b : Blob) (bytes : Bytes) : Prop where
  addressable : b.Addressable
  starts : ∃ rest, bytes = b.encode ++ rest

inductive Holds (bytes : Bytes) : Model → Prop
  | model {b : Blob} {record : ModelRecord} (hleads : b.Leads bytes)
      (hdocument : Json.decode ModelRecord.decode b.document = .ok record) (hrange : record.InRange b.constants) :
    Holds bytes (record.described b.constants)

end Blob

namespace StandardPlugin

variable (p : StandardPlugin) (host : Host) (self : PluginId) (properties : PropertyMap)

inductive Accepts (bytes : Bytes) : CompiledModel → Prop
  | all {m graph : Model} {config : Configuration} (hholds : Blob.Holds bytes m) (hvalid : m.Valid)
      (hmerged : p.defaults.merged host properties = .ok config)
      (hprepared : Prepared p.transformations m config.untransformed graph) (hgraph : graph.Valid) :
    Accepts bytes ⟨graph, self, p.defaultContext, p.taskExecutor, config, true⟩

inductive Rejects (bytes : Bytes) : String → Prop
  | stream (h : ¬∃ b : Blob, b.Leads bytes) : Rejects bytes "MalformedStream"
  | document {b : Blob} (hleads : b.Leads bytes)
      (h : ¬∃ record, Json.decode ModelRecord.decode b.document = .ok record) : Rejects bytes "Serialization"
  | slices {b : Blob} {record : ModelRecord} (hleads : b.Leads bytes)
      (hdocument : Json.decode ModelRecord.decode b.document = .ok record)
      (h : ¬record.InRange b.constants) : Rejects bytes "MalformedStream"
  | graph {m : Model} (hholds : Blob.Holds bytes m) (h : ¬m.Valid) : Rejects bytes "InvalidGraph"
  | unknownOption {m : Model} {name : String} (hholds : Blob.Holds bytes m) (hvalid : m.Valid)
      (h : p.defaults.merged host properties = .error (.unknown name)) : Rejects bytes "UnknownOption"
  | invalidValue {m : Model} {name : String} {cause : ValueFault} (hholds : Blob.Holds bytes m) (hvalid : m.Valid)
      (h : p.defaults.merged host properties = .error (.invalid name cause)) : Rejects bytes "InvalidValue"
  | construction {m : Model} {config : Configuration} (hholds : Blob.Holds bytes m) (hvalid : m.Valid)
      (hmerged : p.defaults.merged host properties = .ok config)
      (h : ¬∃ graph, Prepared p.transformations m config.untransformed graph ∧ graph.Valid) :
    Rejects bytes "Compilation"

/-- Every byte string is accepted or rejected. -/
theorem accepts_or_rejects (bytes : Bytes) :
    (∃ c, p.Accepts host self properties bytes c) ∨ ∃ kind, p.Rejects host properties bytes kind := by
  by_cases hleads : ∃ b : Blob, b.Leads bytes
  case neg => exact .inr ⟨_, .stream hleads⟩
  obtain ⟨b, hleads⟩ := hleads
  by_cases hdocument : ∃ record, Json.decode ModelRecord.decode b.document = .ok record
  case neg => exact .inr ⟨_, .document hleads hdocument⟩
  obtain ⟨record, hdocument⟩ := hdocument
  by_cases hrange : record.InRange b.constants
  case neg => exact .inr ⟨_, .slices hleads hdocument hrange⟩
  have hholds : Blob.Holds bytes (record.described b.constants) := .model hleads hdocument hrange
  generalize record.described b.constants = m at hholds
  by_cases hvalid : m.Valid
  case neg => exact .inr ⟨_, .graph hholds hvalid⟩
  cases hmerged : p.defaults.merged host properties with
  | error fault =>
    cases fault with
    | unknown name => exact .inr ⟨_, .unknownOption hholds hvalid hmerged⟩
    | invalid name cause => exact .inr ⟨_, .invalidValue hholds hvalid hmerged⟩
  | ok config =>
    by_cases hgraph : ∃ graph, Prepared p.transformations m config.untransformed graph ∧ graph.Valid
    case neg => exact .inr ⟨_, .construction hholds hvalid hmerged hgraph⟩
    obtain ⟨graph, hprepared, hgraph⟩ := hgraph
    exact .inl ⟨_, .all hholds hvalid hmerged hprepared hgraph⟩

/-! ## What importing answers -/

section
variable {p host self properties} {source : Stream.Source} (hs : source.Steady)
include hs

theorem importFrom_of_leads {b : Blob} (h : b.Leads source.remaining) :
    (p.importFrom host self source properties).1.outcome = (p.compileBlob host self b properties).outcome := by
  obtain ⟨rest, hbytes⟩ := h.starts
  obtain ⟨interrupts, hread⟩ := Blob.read_of_starts hs h.addressable hbytes
  simp only [importFrom, hread]

theorem importFrom_of_not_leads (h : ¬∃ b : Blob, b.Leads source.remaining) :
    ∃ form, (p.importFrom host self source properties).1.outcome = .error (.form form) := by
  rcases Blob.read_cases hs with ⟨b, rest, interrupts, hb, hbytes, hread⟩ | ⟨form, interrupts, -, hread⟩
  · exact absurd ⟨b, hb, rest, hbytes⟩ h
  · refine ⟨form, ?_⟩
    simp only [importFrom, hread]
    rfl

theorem importFrom_of_holds {m : Model} (h : Blob.Holds source.remaining m) :
    (p.importFrom host self source properties).1.outcome =
      match m.validate with
      | .error fault => .error (.graph fault)
      | .ok () =>
        match p.defaults.merged host properties with
        | .error fault => .error (.property fault)
        | .ok config =>
          (CompiledModel.create m self p.toPlugin p.defaultContext p.taskExecutor config true).outcome := by
  obtain @⟨b, record, hleads, hdocument, hrange⟩ := h
  have hnodes := unpackNodes_of_inRange record.nodes hrange
  rw [importFrom_of_leads hs hleads]
  unfold compileBlob
  rw [Model.ofBlob_eq hdocument hnodes]
  simp only [ModelRecord.described]
  cases Model.validate ⟨record.friendlyName, record.nodes.map fun r => r.described b.constants⟩ with
  | error fault => rfl
  | ok _ => cases p.defaults.merged host properties <;> rfl

theorem importFrom_of_valid {m : Model} (h : Blob.Holds source.remaining m) (hvalid : m.Valid) :
    (p.importFrom host self source properties).1.outcome =
      match p.defaults.merged host properties with
      | .error fault => .error (.property fault)
      | .ok config =>
        (CompiledModel.create m self p.toPlugin p.defaultContext p.taskExecutor config true).outcome := by
  rw [importFrom_of_holds hs h, (Model.validate_eq_ok_iff m).2 hvalid]

theorem importFrom_of_accepts {c : CompiledModel} (h : p.Accepts host self properties source.remaining c) :
    (p.importFrom host self source properties).1.outcome = .ok c := by
  obtain ⟨hholds, hvalid, hmerged, hprepared, hgraph⟩ := h
  rw [importFrom_of_valid hs hholds hvalid]
  simp only [hmerged]
  exact (CompiledModel.create_eq_ok_iff _).2 ⟨_, hprepared, hgraph, rfl⟩

theorem importFrom_of_rejects {kind : String} (h : p.Rejects host properties source.remaining kind) :
    ∃ failure, (p.importFrom host self source properties).1.outcome = .error failure ∧ failure.kind = kind := by
  cases h with
  | stream h =>
    obtain ⟨form, hform⟩ := importFrom_of_not_leads hs h
    exact ⟨_, hform, rfl⟩
  | document hleads h =>
    obtain ⟨fault, hfault⟩ := Model.ofBlob_of_no_document h
    rw [importFrom_of_leads hs hleads]
    simp only [compileBlob, hfault]
    exact ⟨_, rfl, rfl⟩
  | slices hleads hdocument h =>
    obtain ⟨form, hform⟩ := Model.ofBlob_of_not_inRange hdocument h
    rw [importFrom_of_leads hs hleads]
    simp only [compileBlob, hform]
    exact ⟨_, rfl, rfl⟩
  | @graph m hholds h =>
    rw [importFrom_of_holds hs hholds]
    rw [← Model.validate_eq_ok_iff] at h
    split
    · exact ⟨_, rfl, rfl⟩
    · contradiction
  | unknownOption hholds hvalid h =>
    rw [importFrom_of_valid hs hholds hvalid]
    simp only [h]
    exact ⟨_, rfl, rfl⟩
  | invalidValue hholds hvalid h =>
    rw [importFrom_of_valid hs hholds hvalid]
    simp only [h]
    exact ⟨_, rfl, rfl⟩
  | @construction m config hholds hvalid hmerged h =>
    rw [importFrom_of_valid hs hholds hvalid]
    simp only [hmerged]
    rw [CompiledModel.create_outcome]
    split
    · exact ⟨_, rfl, rfl⟩
    · rename_i graph hgraph
      exact absurd ⟨graph, compileGraph_eq_ok_iff.1 hgraph⟩ h

theorem importFrom_eq_ok_iff (c : CompiledModel) :
    (p.importFrom host self source properties).1.outcome = .ok c ↔
      p.Accepts host self properties source.remaining c := by
  constructor
  · intro h
    rcases p.accepts_or_rejects host self properties source.remaining with ⟨d, hd⟩ | ⟨kind, hkind⟩
    · cases h.symm.trans (importFrom_of_accepts hs hd)
      exact hd
    · obtain ⟨failure, hfailure, -⟩ := importFrom_of_rejects hs hkind
      cases h.symm.trans hfailure
  · intro h
    exact importFrom_of_accepts hs h

theorem importFrom_eq_error_iff (kind : String) :
    (∃ failure, (p.importFrom host self source properties).1.outcome = .error failure ∧ failure.kind = kind) ↔
      p.Rejects host properties source.remaining kind := by
  constructor
  · rintro ⟨failure, hfailure, rfl⟩
    rcases p.accepts_or_rejects host self properties source.remaining with ⟨c, hc⟩ | ⟨kind, hkind⟩
    · cases hfailure.symm.trans (importFrom_of_accepts hs hc)
    · obtain ⟨failure', hfailure', rfl⟩ := importFrom_of_rejects hs hkind
      cases hfailure.symm.trans hfailure'
      exact hkind
  · intro h
    exact importFrom_of_rejects hs h

end

/-! ## Over raw accesses -/

/-- An import in which every access that is out of range breaks off. -/
def importRaw (source : Stream.Source) : Outcome Failure CompiledModel :=
  (Outcome.ofExcept ((Blob.read source).1.mapError .ofReadFault)).bind fun blob =>
  ((Model.ofBlobRaw blob).mapError .ofBlobFault).bind fun m =>
  (Outcome.ofExcept ((p.defaults.merged host properties).mapError .property)).bind fun config =>
  let transformed := (transformGraph p.transformations config.untransformed m).1
  (Outcome.ofExcept (transformed.mapError .compilation)).bind fun graph =>
  (graph.validateRaw.mapError fun fault => .compilation (.compiler (Failure.graph fault).message)).map fun _ =>
    ⟨graph, self, p.defaultContext, p.taskExecutor, config, true⟩

theorem importRaw_eq {source : Stream.Source} (hs : source.Steady) :
    p.importRaw host self properties source = .ofExcept (p.importFrom host self source properties).1.outcome := by
  unfold importRaw importFrom
  -- The graph is checked twice, as it is read and as the transformations leave it.
  rcases Blob.read_cases hs with ⟨b, rest, interrupts, hb, -, hread⟩ | ⟨form, interrupts, -, hread⟩
  · simp only [hread, Except.mapError, Outcome.ofExcept, Outcome.bind, Model.ofBlobRaw_eq hb.2, compileBlob]
    cases Model.ofBlob b with
    | error fault => rfl
    | ok m =>
      simp only [Outcome.mapError]
      cases p.defaults.merged host properties with
      | error fault => rfl
      | ok config =>
        simp only [CompiledModel.create_outcome, compileGraph_eq.1]
        cases (transformGraph p.transformations config.untransformed m).1 with
        | error failure => rfl
        | ok graph =>
          simp only [Model.validateRaw_eq, acceptGraph]
          cases graph.validate <;> rfl
  · simp only [hread]
    rfl

/-- Importing never leaves the range of what it reads. Bytes that pass every step give a model from
the cache with a valid graph; else the first step that they do not pass decides the kind of failure. -/
theorem importFrom_safe {source : Stream.Source} (hs : source.Steady) :
    let raw := p.importRaw host self properties source
    let outcome := (p.importFrom host self source properties).1.outcome
    (raw = .ofExcept outcome ∧ raw ≠ .panic) ∧
    (∀ c, outcome = .ok c ↔ p.Accepts host self properties source.remaining c) ∧
    (∀ kind, (∃ failure, outcome = .error failure ∧ failure.kind = kind) ↔
      p.Rejects host properties source.remaining kind) ∧
    ∀ c, outcome = .ok c → c.fromCache = true ∧ c.graph.Valid := by
  intro raw outcome
  have hraw : raw = .ofExcept outcome := p.importRaw_eq host self properties hs
  refine ⟨⟨hraw, ?_⟩, importFrom_eq_ok_iff hs, importFrom_eq_error_iff hs, ?_⟩
  · rw [hraw]
    exact Outcome.ofExcept_ne_panic outcome
  · intro c hc
    obtain ⟨hholds, hvalid, hmerged, hprepared, hgraph⟩ := (importFrom_eq_ok_iff hs c).1 hc
    exact ⟨rfl, hgraph⟩

theorem importFrom_safe_cutShort :
    let cutShort : Blob := { (Model.oddlyNamed .constant).toBlob with constants := [7] }
    let source : Stream.Source := ⟨fun _ => .move 3, cutShort.encode, {}⟩
    ∃ failure, (keeper.importFrom ⟨1⟩ 0 source .empty).1.outcome = .error failure ∧
      failure.kind = "MalformedStream" := by
  intro cutShort source
  have hs : source.Steady := ⟨fun _ _ _ => ⟨2, rfl⟩, 3, rfl⟩
  have hleads : cutShort.Leads cutShort.encode :=
    ⟨⟨by decide +kernel, by decide⟩, [], (List.append_nil _).symm⟩
  have hdocument : Json.decode ModelRecord.decode cutShort.document = .ok (Model.oddlyNamed .constant).record :=
    ModelRecord.decode_bytes _
  have hrange : ¬(Model.oddlyNamed .constant).record.InRange cutShort.constants := by
    intro h
    have hfirst := h _ (List.mem_cons_self ..) ⟨0, 2⟩ rfl
    exact absurd hfirst (by decide)
  obtain ⟨-, -, hrejects, -⟩ := keeper.importFrom_safe ⟨1⟩ 0 .empty hs
  exact (hrejects _).2 (.slices hleads hdocument hrange)

end StandardPlugin

end DevicePlugin
