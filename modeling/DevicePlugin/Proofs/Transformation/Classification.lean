import DevicePlugin.Proofs.Compiled.Acceptance
import DevicePlugin.Proofs.Transformation.Course
import DevicePlugin.Transformation.Scripted

/-!
# Failures behind pipelines

A pass may fail in as many pipelines, and below as many contexts, as one likes: of its own
error only its own text is told, of any other error all contexts and the text, and of a
break-off nothing. Compiling reports each of them as a compilation failure.
-/

namespace DevicePlugin

def CompileFailure.ofEnding {α : Type} : Outcome ErrorChain α → Option CompileFailure
  | .ok _ => none
  | .error e => some (.ofError e)
  | .panic => some .unknown

theorem compileGraph_of_ending {t : Transformation} {m : Model} {cause : CompileFailure}
    (h : CompileFailure.ofEnding (t.run m).ending = some cause) : (compileGraph t false m).1 = .error cause := by
  refine compileGraph_eq_error_iff.2 ?_
  cases hending : (t.run m).ending with
  | ok changed =>
    rw [hending] at h
    cases h
  | error e =>
    rw [hending] at h
    cases h
    exact .error hending
  | panic =>
    rw [hending] at h
    cases h
    exact .panic hending

namespace Transformation

variable {μ : Type}

inductive Classified (added : List String) : Outcome ErrorChain Bool → CompileFailure → Prop
  | compiler (own : List String) (pass message : String) :
      Classified added (.error ⟨own, .pass pass message⟩) (.compiler ("pass '" ++ pass ++ "' failed: " ++ message))
  | runtime (own : List String) (text : String) :
      Classified added (.error ⟨own, .other text⟩) (.runtime (String.intercalate ": " (added ++ own ++ [text])))
  | unknown : Classified added .panic .unknown

/-- The run comes to this leaf, and so far has made this of the model: all leaves before it have succeeded. -/
def ComesTo (t : Transformation μ) (m : μ) (l : Leaf μ) (m' : μ) : Prop :=
  ∃ before after flags, t.leaves = before ++ l :: after ∧ Course before m before flags (.ok ()) m'

/-! ## Classification -/

theorem classified_raised (l : Leaf μ) (e : ErrorChain) :
    Classified l.contexts (.error e) (.ofError (l.raised e)) := by
  obtain ⟨own, root⟩ := e
  cases root with
  | pass name message => exact .compiler own name message
  | other text => exact .runtime own text

theorem Classified.eq_of_error {l : Leaf μ} {e : ErrorChain} {cause : CompileFailure}
    (h : Classified l.contexts (.error e) cause) : cause = .ofError (l.raised e) := by
  cases h <;> rfl

section
variable {t : Transformation μ} {m m' : μ} {l : Leaf μ} {cause : CompileFailure}

theorem run_ending_of_error {next : μ} {e : ErrorChain} (h : t.ComesTo m l m') (hbody : l.body m' = (next, .error e)) :
    (t.run m).ending = .error (l.raised e) := by
  obtain ⟨before, after, flags, hleaves, hbefore⟩ := h
  obtain ⟨ran, flags', stop, hcourse, hending, -⟩ := run_follows t m
  rw [hleaves] at hcourse
  obtain ⟨-, -, rfl, -⟩ := (hbefore.append (.failed hbody)).unique hcourse
  exact hending

theorem run_ending_of_panic {next : μ} (h : t.ComesTo m l m') (hbody : l.body m' = (next, .panic)) :
    (t.run m).ending = .panic := by
  obtain ⟨before, after, flags, hleaves, hbefore⟩ := h
  obtain ⟨ran, flags', stop, hcourse, hending, -⟩ := run_follows t m
  rw [hleaves] at hcourse
  obtain ⟨-, -, rfl, -⟩ := (hbefore.append (.brokeOff hbody)).unique hcourse
  exact hending

theorem ofEnding_of_classified (h : t.ComesTo m l m') (hleaf : Classified l.contexts (l.body m').2 cause) :
    CompileFailure.ofEnding (t.run m).ending = some cause := by
  cases hbody : l.body m' with
  | mk next ending =>
    rw [hbody] at hleaf
    cases ending with
    | ok changed => cases hleaf
    | error e =>
      rw [run_ending_of_error h hbody, hleaf.eq_of_error]
      rfl
    | panic =>
      cases hleaf
      rw [run_ending_of_panic h hbody]
      rfl

theorem exists_classified (h : CompileFailure.ofEnding (t.run m).ending = some cause) :
    ∃ l m', t.ComesTo m l m' ∧ Classified l.contexts (l.body m').2 cause := by
  obtain ⟨ran, flags, stop, hcourse, hending, -⟩ := run_follows t m
  rw [hending] at h
  have hstop : stop ≠ .ok () := by
    rintro rfl
    cases h
  obtain ⟨before, l, after, m', hleaves, hbefore, ⟨e, rfl, hbody⟩ | ⟨rfl, hbody⟩⟩ := hcourse.stopped hstop
  · cases h
    refine ⟨l, m', ⟨before, after, _, hleaves, hbefore⟩, ?_⟩
    rw [hbody]
    exact classified_raised l e
  · cases h
    refine ⟨l, m', ⟨before, after, _, hleaves, hbefore⟩, ?_⟩
    rw [hbody]
    exact .unknown

end

/-- A run fails exactly if it comes to a leaf that does, and what is made of its ending is decided by the error of
the leaf: nothing is said of the pipelines around a pass that has failed by an error of its own, and of any other
error all contexts are told, first those of the pipelines and then its own. A compilation that runs this
transformation ends with the same cause, as a compilation failure. -/
theorem failure_classified :
    (∀ (μ : Type) (t : Transformation μ) (m : μ) (cause : CompileFailure),
      CompileFailure.ofEnding (t.run m).ending = some cause ↔
        ∃ l m', t.ComesTo m l m' ∧ Classified l.contexts (l.body m').2 cause) ∧
    ∀ (m : Model) (owner : PluginId) (plugin : Plugin) (context : RemoteContext) (taskExecutor : ExecutorId)
      (config : Configuration) (fromCache : Bool) (cause : CompileFailure), config.untransformed = false →
      CompileFailure.ofEnding (plugin.transformations.run m).ending = some cause →
        let failure := Failure.compilation cause
        (CompiledModel.create m owner plugin context taskExecutor config fromCache).outcome = .error failure ∧
          failure.kind = "Compilation" ∧ failure.message = "Model compilation failed: " ++ cause.message := by
  refine ⟨fun μ t m cause => ⟨exists_classified, ?_⟩, ?_⟩
  · rintro ⟨l, m', hcomes, hleaf⟩
    exact ofEnding_of_classified hcomes hleaf
  · intro m owner plugin context taskExecutor config fromCache cause henabled hending failure
    refine ⟨?_, rfl, rfl⟩
    rw [CompiledModel.create_outcome, henabled, compileGraph_of_ending hending]

def burying (body : PassBody) : Transformation :=
  .pipeline [.pipeline [], .pass "mark" markVisited,
    .pipeline [.pipeline [.pass "fold" body], .pass "late" breakingOff]]

theorem failure_classified_buried :
    let m : Model := (Model.empty "net").addParameter "x" ⟨.u8, [1]⟩ |>.1
    let outcome (body : PassBody) :=
      let plugin : Plugin :=
        { device := standardDevice, backend := ⟨"none", fun _ _ _ => .panic⟩, transformations := burying body, waitExecutor := 0 }
      (CompiledModel.create m 0 plugin ⟨standardDevice, .empty⟩ 0 {} false).outcome
    outcome (failing ⟨["at 'x'", "looking"], .pass "fold" "no data"⟩) =
        .error (.compilation (.compiler "pass 'fold' failed: no data")) ∧
      outcome (failing ⟨["at 'x'", "looking"], .other "out of memory"⟩) =
        .error (.compilation (.runtime (String.intercalate ": "
          ["while running pass 'TransformationPipeline'", "while running pass 'TransformationPipeline'",
            "while running pass 'fold'", "at 'x'", "looking", "out of memory"]))) ∧
      outcome breakingOff = .error (.compilation .unknown) := by
  intro m outcome
  obtain ⟨hclassified, hcompiled⟩ := failure_classified
  have hcomes (body : PassBody) : (burying body).ComesTo m ⟨3, "fold", body⟩ (markVisited m).1 :=
    ⟨[⟨1, "mark", markVisited⟩], [⟨2, "late", breakingOff⟩], [true], rfl, .next rfl .done⟩
  have houtcome {body : PassBody} {cause : CompileFailure}
      (h : Classified (Leaf.contexts ⟨3, "fold", body⟩) (body (markVisited m).1).2 cause) :
      outcome body = .error (.compilation cause) :=
    (hcompiled _ _ _ _ _ _ _ _ rfl ((hclassified _ _ _ _).mpr ⟨_, _, hcomes body, h⟩)).1
  refine ⟨houtcome ?_, houtcome ?_, houtcome .unknown⟩
  · exact .compiler ["at 'x'", "looking"] "fold" "no data"
  · exact .runtime ["at 'x'", "looking"] "out of memory"

end Transformation

end DevicePlugin
