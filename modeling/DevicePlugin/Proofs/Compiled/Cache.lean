import DevicePlugin.Compiled.Model
import DevicePlugin.Proofs.Graph.Packing
import DevicePlugin.Proofs.Stream.Blob

/-!
# The path through the cache

A compiled model that is exported and imported again is what compiling its graph
gives, except that it says where it comes from.
-/

namespace DevicePlugin

/-! ## What compiling accepts -/

theorem acceptGraph_eq_ok {m graph : Model} (h : acceptGraph m = .ok graph) :
    graph = m ∧ m.validate = .ok () := by
  unfold acceptGraph at h
  split at h
  · rename_i hvalid
    cases h
    exact ⟨rfl, hvalid⟩
  · cases h

theorem acceptGraph_of_valid {m : Model} (h : m.validate = .ok ()) : acceptGraph m = .ok m := by
  rw [acceptGraph, h]

theorem validate_of_compileGraph {t : Transformation} {disabled : Bool} {m graph : Model}
    (h : (compileGraph t disabled m).1 = .ok graph) : graph.validate = .ok () := by
  unfold compileGraph at h
  split at h
  · cases h
  · obtain ⟨rfl, hvalid⟩ := acceptGraph_eq_ok h
    exact hvalid

def Transformation.Keeps (t : Transformation) (m : Model) : Prop :=
  (t.run m).model = m ∧ ∃ changed, (t.run m).ending = .ok changed

theorem transformGraph_of_keeps {t : Transformation} {disabled : Bool} {m : Model}
    (h : disabled = true ∨ t.Keeps m) : (transformGraph t disabled m).1 = .ok m := by
  unfold transformGraph
  split
  · rfl
  · rename_i henabled
    obtain ⟨hmodel, changed, hending⟩ := h.resolve_left henabled
    generalize t.run m = run at hmodel hending
    obtain ⟨next, ending, calls, notices⟩ := run
    cases hending
    cases hmodel
    rfl

theorem compileGraph_of_keeps {t : Transformation} {disabled : Bool} {m : Model}
    (h : disabled = true ∨ t.Keeps m) (hvalid : m.validate = .ok ()) :
    (compileGraph t disabled m).1 = .ok m := by
  have htransform := transformGraph_of_keeps h
  unfold compileGraph
  split
  · rename_i heq
    rw [heq] at htransform
    cases htransform
  · rename_i heq
    rw [heq] at htransform
    cases htransform
    exact acceptGraph_of_valid hvalid

namespace CompiledModel

variable {owner : PluginId} {plugin : Plugin} {context : RemoteContext} {taskExecutor : ExecutorId}
  {config : Configuration} {fromCache : Bool}

theorem create_outcome (m : Model) :
    (create m owner plugin context taskExecutor config fromCache).outcome =
      match (compileGraph plugin.transformations config.untransformed m).1 with
      | .error failure => .error (.compilation failure)
      | .ok graph => .ok ⟨graph, owner, context, taskExecutor, config, fromCache⟩ := by
  unfold create
  split <;> simp [*]

theorem create_calls (m : Model) :
    (create m owner plugin context taskExecutor config fromCache).calls =
      (compileGraph plugin.transformations config.untransformed m).2.2 := by
  unfold create
  split <;> simp [*]

def Made (c : CompiledModel) : Prop :=
  ∃ m owner plugin context taskExecutor config fromCache,
    (create m owner plugin context taskExecutor config fromCache).outcome = .ok c

theorem Made.validate {c : CompiledModel} (h : c.Made) : c.graph.validate = .ok () := by
  obtain ⟨m, owner, plugin, context, taskExecutor, config, fromCache, h⟩ := h
  rw [create_outcome] at h
  split at h
  · cases h
  · rename_i graph hgraph
    cases h
    exact validate_of_compileGraph hgraph

def cached (c : CompiledModel) : CompiledModel := { c with fromCache := true }

theorem create_cached (m : Model) :
    (create m owner plugin context taskExecutor config true).outcome =
      (create m owner plugin context taskExecutor config false).outcome.map cached := by
  rw [create_outcome, create_outcome]
  split <;> rfl

theorem taken_of_exportTo {c : CompiledModel} {sink : Stream.Behaviour} {cursor : Stream.Cursor}
    {written : Stream.Written} {events : List Event} (h : c.exportTo sink cursor = (.ok (), written, events)) :
    written.taken = c.graph.toBlob.encode := by
  unfold exportTo at h
  simp only at h
  split at h
  · cases h
  · rename_i hfault
    cases h
    exact Blob.taken_of_write hfault

/-- A sink that moves takes the whole model. -/
theorem exportTo_of_moves (c : CompiledModel) {sink : Stream.Behaviour} {cursor : Stream.Cursor}
    (h : sink.Moves cursor.position (cursor.position + c.graph.toBlob.encode.length)) :
    ∃ written events, c.exportTo sink cursor = (.ok (), written, events) := by
  have hfault : (c.graph.toBlob.write sink cursor).fault = none := sink.writeEach_of_moves _ _ h
  simp only [exportTo, hfault]
  exact ⟨_, _, rfl⟩

theorem exportTo_congr {c d : CompiledModel} (h : c.graph = d.graph) (sink : Stream.Behaviour)
    (cursor : Stream.Cursor) : c.exportTo sink cursor = d.exportTo sink cursor := by
  rw [exportTo, exportTo, h]

end CompiledModel

namespace StandardPlugin

variable (p : StandardPlugin) (host : Host) (self : PluginId)

theorem fromCache_of_compile {m : Model} {properties : PropertyMap} {c : CompiledModel}
    (h : (p.compile host self m properties).outcome = .ok c) : c.fromCache = false := by
  unfold compile at h
  split at h
  · cases h
  · rw [CompiledModel.create_outcome] at h
    split at h
    · cases h
    · cases h
      rfl

/-- Of a graph that is valid, the blob compiles as the graph itself does. -/
theorem compileBlob_toBlob {m : Model} (hvalid : m.validate = .ok ()) (hsize : m.toBlob.Addressable)
    (properties : PropertyMap) :
    (p.compileBlob host self m.toBlob properties).outcome =
        (p.compile host self m properties).outcome.map CompiledModel.cached ∧
      (p.compileBlob host self m.toBlob properties).calls = (p.compile host self m properties).calls := by
  have hback : Model.ofBlob m.toBlob = .ok m := by
    rw [Model.ofBlob_toBlob_eq hsize.2, hvalid]
  simp only [compileBlob, compile, hback]
  split
  · exact ⟨rfl, rfl⟩
  · refine ⟨CompiledModel.create_cached m, ?_⟩
    rw [CompiledModel.create_calls, CompiledModel.create_calls]

theorem compile_of_keeps {m : Model} (hvalid : m.validate = .ok ()) {properties : PropertyMap}
    {config : Configuration} (hmerged : p.defaults.merged host properties = .ok config)
    (hkeeps : config.untransformed = true ∨ p.transformations.Keeps m) :
    (p.compile host self m properties).outcome =
      .ok ⟨m, self, p.defaultContext, p.taskExecutor, config, false⟩ := by
  simp only [compile, hmerged]
  rw [CompiledModel.create_outcome, compileGraph_of_keeps hkeeps hvalid]

/-- Importing an exported model has the outcome that compiling its graph has, and stops behind the
last byte that was exported. Without passes that change the graph or fail, the imported model has
the same graph, and is exported in the same bytes. -/
theorem importFrom_exportTo {c : CompiledModel} (hc : c.Made) (hsize : c.graph.toBlob.Addressable)
    {sink : Stream.Behaviour} {cursor : Stream.Cursor} {written : Stream.Written} {events : List Event}
    (hexport : c.exportTo sink cursor = (.ok (), written, events))
    {source : Stream.Source} {rest : Bytes} (hsource : source.remaining = written.taken ++ rest)
    (hmoves : source.behaviour.Moves source.cursor.position
      (source.cursor.position + written.taken.length))
    (properties : PropertyMap) :
    let compiled := p.compile host self c.graph properties
    let imported := p.importFrom host self source properties
    (imported.1.outcome = compiled.outcome.map CompiledModel.cached ∧
      (∀ d, compiled.outcome = .ok d → d.fromCache = false) ∧
      imported.1.calls = compiled.calls) ∧
    (imported.2.remaining = rest ∧
      imported.2.cursor.position = source.cursor.position + written.taken.length) ∧
    ∀ config, p.defaults.merged host properties = .ok config →
      (config.untransformed = true ∨ p.transformations.Keeps c.graph) →
      ∃ d, imported.1.outcome = .ok d ∧ d.graph = c.graph ∧ d.config = config ∧
        ∀ sink cursor, d.exportTo sink cursor = c.exportTo sink cursor := by
  intro compiled imported
  rw [CompiledModel.taken_of_exportTo hexport] at hsource hmoves ⊢
  obtain ⟨interrupts, hread⟩ := Blob.read_encode hsize hsource hmoves
  have himported : imported.1.outcome = (p.compileBlob host self c.graph.toBlob properties).outcome ∧
      imported.1.calls = (p.compileBlob host self c.graph.toBlob properties).calls := by
    simp only [imported, importFrom, hread, and_self]
  obtain ⟨houtcome, hcalls⟩ := p.compileBlob_toBlob host self hc.validate hsize properties
  rw [houtcome, hcalls] at himported
  refine ⟨⟨himported.1, fun d => p.fromCache_of_compile host self, himported.2⟩, ?_, ?_⟩
  · simp only [imported, importFrom, hread, and_self]
  · intro config hmerged hkeeps
    refine ⟨⟨c.graph, self, p.defaultContext, p.taskExecutor, config, true⟩, ?_, rfl, rfl,
      CompiledModel.exportTo_congr rfl⟩
    rw [himported.1, p.compile_of_keeps host self hc.validate hmerged hkeeps]
    rfl

def keeper : StandardPlugin :=
  { device := standardDevice
    backend := ⟨"echo", fun _ _ inputs => .ok inputs⟩
    transformations := .pass "Keep" fun m => (m, .ok false)
    waitExecutor := 0
    taskExecutor := 1
    defaults := {} }

def kept : CompiledModel := ⟨Model.oddlyNamed .constant, 0, keeper.defaultContext, 1, {}, false⟩

theorem importFrom_exportTo_kept :
    ∃ d, (keeper.importFrom ⟨1⟩ 0 ⟨fun _ => .move 5, kept.graph.toBlob.encode ++ [1, 2, 3], {}⟩
        .empty).1.outcome = .ok d ∧ d.graph = kept.graph := by
  have hmade : kept.Made := ⟨kept.graph, 0, keeper.toPlugin, keeper.defaultContext, 1, {}, false, rfl⟩
  have hsize : kept.graph.toBlob.Addressable := by decide +kernel
  obtain ⟨written, events, hexport⟩ := @CompiledModel.exportTo_of_moves kept (fun _ => .move 64) {}
    fun _ _ _ => ⟨63, rfl⟩
  rw [← CompiledModel.taken_of_exportTo hexport]
  let source : Stream.Source := ⟨fun _ => .move 5, written.taken ++ [1, 2, 3], {}⟩
  have hsource : source.remaining = written.taken ++ [1, 2, 3] := rfl
  obtain ⟨-, -, himported⟩ := keeper.importFrom_exportTo ⟨1⟩ 0 hmade hsize hexport hsource
    (fun _ _ _ => ⟨4, rfl⟩) .empty
  obtain ⟨d, hd, hgraph, -⟩ := himported {} rfl (.inr ⟨rfl, false, rfl⟩)
  exact ⟨d, hd, hgraph⟩

end StandardPlugin

end DevicePlugin
