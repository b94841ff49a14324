import DevicePlugin.Proofs.Compiled.Cache
import DevicePlugin.Proofs.Graph.Validity

/-!
# What compiling accepts

Whatever a transformation does to a model, compiling either refuses it as a
compilation failure, or gives exactly the graph that the transformation has left,
which then is valid. So the graph of every compiled model is valid.
-/

namespace DevicePlugin

/-- The graph that compiling has to judge: the model itself where transformations are disabled, and
else what a transformation that succeeds has made of it. -/
inductive Prepared (t : Transformation) (m : Model) : (disabled : Bool) → Model → Prop
  | asIs : Prepared t m true m
  | transformed {changed : Bool} (h : (t.run m).ending = .ok changed) : Prepared t m false (t.run m).model

inductive Refused (t : Transformation) (m : Model) : (disabled : Bool) → CompileFailure → Prop
  | error {e : ErrorChain} (h : (t.run m).ending = .error e) : Refused t m false (.ofError e)
  | panic (h : (t.run m).ending = .panic) : Refused t m false .unknown
  | invalid {disabled : Bool} {graph : Model} {fault : GraphFault} (hprepared : Prepared t m disabled graph)
      (h : graph.validate = .error fault) : Refused t m disabled (.compiler (Failure.graph fault).message)

inductive PassRefused (body : PassBody) (m : Model) : CompileFailure → Prop
  | error {next : Model} {e : ErrorChain} (h : body m = (next, .error e)) : PassRefused body m (.ofError e)
  | panic {next : Model} (h : body m = (next, .panic)) : PassRefused body m .unknown
  | invalid {graph : Model} {changed : Bool} {fault : GraphFault} (h : body m = (graph, .ok changed))
      (hfault : graph.validate = .error fault) : PassRefused body m (.compiler (Failure.graph fault).message)

theorem prepared_pass_iff {name : String} {body : PassBody} {m graph : Model} :
    Prepared (.pass name body) m false graph ↔ ∃ changed, body m = (graph, .ok changed) := by
  constructor
  · intro h
    cases h with
    | transformed hending => exact ⟨_, Prod.ext rfl hending⟩
  · rintro ⟨changed, hbody⟩
    have hrun : Transformation.run (.pass name body) m = ⟨graph, .ok changed, [name], []⟩ := by
      rw [Transformation.run, hbody]
    have hending : (Transformation.run (.pass name body) m).ending = .ok changed := by rw [hrun]
    have hprepared : Prepared (.pass name body) m false _ := .transformed hending
    rwa [hrun] at hprepared

theorem refused_pass_iff {name : String} {body : PassBody} {m : Model} {cause : CompileFailure} :
    Refused (.pass name body) m false cause ↔ PassRefused body m cause := by
  constructor
  · intro h
    cases h with
    | error hending => exact .error (Prod.ext rfl hending)
    | panic hending => exact .panic (Prod.ext rfl hending)
    | invalid hprepared hfault =>
      obtain ⟨changed, hbody⟩ := prepared_pass_iff.1 hprepared
      exact .invalid hbody hfault
  · intro h
    cases h with
    | error hbody => exact .error (by rw [Transformation.run, hbody])
    | panic hbody => exact .panic (by rw [Transformation.run, hbody])
    | invalid hbody hfault => exact .invalid (prepared_pass_iff.2 ⟨_, hbody⟩) hfault

theorem acceptGraph_eq_error_iff {m : Model} {failure : CompileFailure} :
    acceptGraph m = .error failure ↔
      ∃ fault, m.validate = .error fault ∧ failure = .compiler (Failure.graph fault).message := by
  unfold acceptGraph
  cases m.validate with
  | ok _ => simp
  | error fault => simp [eq_comm]

section
variable {t : Transformation} {m : Model} {disabled : Bool}

theorem transformGraph_enabled :
    (transformGraph t false m).1 =
      match (t.run m).ending with
      | .ok _ => .ok (t.run m).model
      | .error e => .error (.ofError e)
      | .panic => .error .unknown := by
  unfold transformGraph
  obtain ⟨next, ending, calls, notices⟩ := t.run m
  cases ending <;> rfl

theorem transformGraph_eq_ok_iff {graph : Model} :
    (transformGraph t disabled m).1 = .ok graph ↔ Prepared t m disabled graph := by
  constructor
  · intro h
    cases disabled with
    | true =>
      cases h
      exact .asIs
    | false =>
      rw [transformGraph_enabled] at h
      split at h
      · rename_i changed hending
        cases h
        exact .transformed hending
      · cases h
      · cases h
  · intro h
    cases h with
    | asIs => rfl
    | transformed hending => rw [transformGraph_enabled, hending]

theorem transformGraph_calls :
    (transformGraph t disabled m).2.2 = if disabled then [] else (t.run m).calls := by
  unfold transformGraph
  by_cases hdisabled : disabled = true
  · rw [if_pos hdisabled, if_pos hdisabled]
  · rw [if_neg hdisabled, if_neg hdisabled]
    obtain ⟨next, ending, calls, notices⟩ := t.run m
    cases ending <;> rfl

theorem compileGraph_eq :
    (compileGraph t disabled m).1 =
        (match (transformGraph t disabled m).1 with
        | .error failure => .error failure
        | .ok next => acceptGraph next) ∧
      (compileGraph t disabled m).2.2 = (transformGraph t disabled m).2.2 := by
  unfold compileGraph
  obtain ⟨outcome, notices, calls⟩ := transformGraph t disabled m
  cases outcome <;> exact ⟨rfl, rfl⟩

theorem compileGraph_of_prepared {graph : Model} (h : Prepared t m disabled graph) :
    (compileGraph t disabled m).1 = acceptGraph graph := by
  rw [compileGraph_eq.1, transformGraph_eq_ok_iff.2 h]

theorem compileGraph_eq_ok_iff {graph : Model} :
    (compileGraph t disabled m).1 = .ok graph ↔ Prepared t m disabled graph ∧ graph.Valid := by
  constructor
  · intro h
    refine ⟨?_, (Model.validate_eq_ok_iff graph).1 (validate_of_compileGraph h)⟩
    rw [compileGraph_eq.1] at h
    split at h
    · cases h
    · rename_i next htransform
      rw [(acceptGraph_eq_ok h).1]
      exact transformGraph_eq_ok_iff.1 htransform
  · rintro ⟨hprepared, hvalid⟩
    rw [compileGraph_of_prepared hprepared]
    exact acceptGraph_of_valid ((Model.validate_eq_ok_iff graph).2 hvalid)

theorem refused_of_transformGraph {failure : CompileFailure}
    (h : (transformGraph t disabled m).1 = .error failure) : Refused t m disabled failure := by
  cases disabled with
  | true => cases h
  | false =>
    rw [transformGraph_enabled] at h
    split at h
    · cases h
    · rename_i e hending
      cases h
      exact .error hending
    · rename_i hending
      cases h
      exact .panic hending

theorem compileGraph_eq_error_iff {failure : CompileFailure} :
    (compileGraph t disabled m).1 = .error failure ↔ Refused t m disabled failure := by
  constructor
  · intro h
    rw [compileGraph_eq.1] at h
    split at h
    · rename_i htransform
      cases h
      exact refused_of_transformGraph htransform
    · rename_i next htransform
      obtain ⟨fault, hfault, rfl⟩ := acceptGraph_eq_error_iff.1 h
      exact .invalid (transformGraph_eq_ok_iff.1 htransform) hfault
  · intro h
    cases h with
    | error hending => rw [compileGraph_eq.1, transformGraph_enabled, hending]
    | panic hending => rw [compileGraph_eq.1, transformGraph_enabled, hending]
    | invalid hprepared hfault =>
      rw [compileGraph_of_prepared hprepared]
      exact acceptGraph_eq_error_iff.2 ⟨_, hfault, rfl⟩

end

/-! ## Compiled models -/

theorem CompiledModel.Made.valid {c : CompiledModel} (h : c.Made) : c.graph.Valid :=
  (Model.validate_eq_ok_iff c.graph).1 h.validate

namespace StandardPlugin

variable (p : StandardPlugin) (host : Host) (self : PluginId)

theorem made_of_compile {m : Model} {properties : PropertyMap} {c : CompiledModel}
    (h : (p.compile host self m properties).outcome = .ok c) : c.Made := by
  unfold compile at h
  split at h
  · cases h
  · exact ⟨_, _, _, _, _, _, _, h⟩

theorem made_of_compileBlob {blob : Blob} {properties : PropertyMap} {c : CompiledModel}
    (h : (p.compileBlob host self blob properties).outcome = .ok c) : c.Made := by
  unfold compileBlob at h
  split at h
  · cases h
  · split at h
    · cases h
    · exact ⟨_, _, _, _, _, _, _, h⟩

theorem made_of_importFrom {source : Stream.Source} {properties : PropertyMap} {c : CompiledModel}
    (h : (p.importFrom host self source properties).1.outcome = .ok c) : c.Made := by
  unfold importFrom at h
  split at h
  · cases h
  · exact p.made_of_compileBlob host self h

end StandardPlugin

namespace CompiledModel

section
variable {m : Model} {owner : PluginId} {plugin : Plugin} {context : RemoteContext} {taskExecutor : ExecutorId}
  {config : Configuration} {fromCache : Bool}

theorem create_eq_ok_iff (c : CompiledModel) :
    (create m owner plugin context taskExecutor config fromCache).outcome = .ok c ↔ ∃ graph,
      Prepared plugin.transformations m config.untransformed graph ∧ graph.Valid ∧
        c = ⟨graph, owner, context, taskExecutor, config, fromCache⟩ := by
  rw [create_outcome]
  constructor
  · intro h
    split at h
    · cases h
    · rename_i graph hgraph
      cases h
      obtain ⟨hprepared, hvalid⟩ := compileGraph_eq_ok_iff.1 hgraph
      exact ⟨graph, hprepared, hvalid, rfl⟩
  · rintro ⟨graph, hprepared, hvalid, rfl⟩
    rw [compileGraph_eq_ok_iff.2 ⟨hprepared, hvalid⟩]

theorem create_eq_error_iff (failure : Failure) :
    (create m owner plugin context taskExecutor config fromCache).outcome = .error failure ↔ ∃ cause,
      failure = .compilation cause ∧ Refused plugin.transformations m config.untransformed cause := by
  rw [create_outcome]
  constructor
  · intro h
    split at h
    · rename_i cause hcause
      cases h
      exact ⟨cause, rfl, compileGraph_eq_error_iff.1 hcause⟩
    · cases h
  · rintro ⟨cause, rfl, hrefused⟩
    rw [compileGraph_eq_error_iff.2 hrefused]

end

/-- Compiling gives a compiled model exactly when the transformation, unless it is disabled, succeeds
and leaves a valid graph. That graph is the model's, and the transformation has run once. Whatever
goes wrong is a compilation failure. If the transformation is one pass, its body is run on the model, and
decides. So no compiled model has a graph that is not valid. -/
theorem create_all_or_nothing :
    (∀ (m : Model) (owner : PluginId) (plugin : Plugin) (context : RemoteContext) (taskExecutor : ExecutorId)
      (config : Configuration) (fromCache : Bool),
      let compilation := create m owner plugin context taskExecutor config fromCache
      (∀ c, compilation.outcome = .ok c ↔ ∃ graph,
        Prepared plugin.transformations m config.untransformed graph ∧ graph.Valid ∧
          c = ⟨graph, owner, context, taskExecutor, config, fromCache⟩) ∧
      (∀ failure, compilation.outcome = .error failure ↔ ∃ cause,
        failure = .compilation cause ∧ Refused plugin.transformations m config.untransformed cause) ∧
      (compilation.calls = if config.untransformed then [] else (plugin.transformations.run m).calls) ∧
      ∀ name body, plugin.transformations = .pass name body →
        (compilation.calls = if config.untransformed then [] else [name]) ∧
        (config.untransformed = false →
          (∀ c, compilation.outcome = .ok c ↔ ∃ graph changed, body m = (graph, .ok changed) ∧ graph.Valid ∧
            c = ⟨graph, owner, context, taskExecutor, config, fromCache⟩) ∧
          ∀ failure, compilation.outcome = .error failure ↔ ∃ cause,
            failure = .compilation cause ∧ PassRefused body m cause)) ∧
    (∀ (p : StandardPlugin) (host : Host) (self : PluginId) (m : Model) (properties : PropertyMap)
      (c : CompiledModel), (p.compile host self m properties).outcome = .ok c → c.graph.Valid) ∧
    ∀ (p : StandardPlugin) (host : Host) (self : PluginId) (source : Stream.Source) (properties : PropertyMap)
      (c : CompiledModel), (p.importFrom host self source properties).1.outcome = .ok c → c.graph.Valid := by
  refine ⟨?_, ?_, ?_⟩
  · intro m owner plugin context taskExecutor config fromCache compilation
    have hcalls : compilation.calls =
        if config.untransformed then [] else (plugin.transformations.run m).calls := by
      rw [create_calls, compileGraph_eq.2, transformGraph_calls]
    refine ⟨create_eq_ok_iff, create_eq_error_iff, hcalls, ?_⟩
    intro name body hpass
    refine ⟨?_, fun henabled => ⟨fun c => ?_, fun failure => ?_⟩⟩
    · rw [hcalls, hpass]
      rfl
    · simp only [compilation, create_eq_ok_iff, hpass, henabled, prepared_pass_iff, exists_and_right]
    · simp only [compilation, create_eq_error_iff, hpass, henabled, refused_pass_iff]
  · intro p host self m properties c h
    exact (p.made_of_compile host self h).valid
  · intro p host self source properties c h
    exact (p.made_of_importFrom host self h).valid

end CompiledModel

end DevicePlugin
