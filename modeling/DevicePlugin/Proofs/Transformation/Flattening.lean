import DevicePlugin.Proofs.Transformation.Classification

/-!
# Flattening pipelines

A tree of pipelines does what the one pipeline of its leaves does: only the contexts of an
error can tell them apart. Passes may keep a memory of their own, which is then a part of
the model that they work on, so that each of them also runs equally often.
-/

namespace DevicePlugin

namespace Transformation

variable {μ : Type}

def flat (t : Transformation μ) : Transformation μ := .pipeline (t.leaves.map fun l => .pass l.name l.body)

def Leaf.shallow (l : Leaf μ) : Leaf μ := { l with depth := 1 }

/-- The second list is the first with empty pipelines put in at any places, and pipelines that only hold such. -/
inductive Padded : List (Transformation μ) → List (Transformation μ) → Prop
  | nil : Padded [] []
  | pass {passes padded : List (Transformation μ)} (name : String) (body : PassBody μ) (h : Padded passes padded) :
      Padded (.pass name body :: passes) (.pass name body :: padded)
  | pipeline {inner inner' passes padded : List (Transformation μ)} (hinner : Padded inner inner')
      (h : Padded passes padded) : Padded (.pipeline inner :: passes) (.pipeline inner' :: padded)
  | empty {hollow passes padded : List (Transformation μ)} (hhollow : Padded [] hollow) (h : Padded passes padded) :
      Padded passes (.pipeline hollow :: padded)

/-- The runs do the same, and end in the same way but for what the contexts of an error tell. -/
structure Alike (r r' : TransformationRun μ) : Prop where
  model : r'.model = r.model
  calls : r'.calls = r.calls
  changed : ∀ changed, r'.ending = .ok changed ↔ r.ending = .ok changed
  category : (CompileFailure.ofEnding r'.ending).map CompileFailure.category =
    (CompileFailure.ofEnding r.ending).map CompileFailure.category
  text : ∀ text, CompileFailure.ofEnding r'.ending = some (.compiler text) ↔
    CompileFailure.ofEnding r.ending = some (.compiler text)

/-! ## Leaves -/

theorem leavesOfPasses_map_pass (ls : List (Leaf μ)) :
    leavesOfPasses (ls.map fun l => .pass l.name l.body) = ls.map Leaf.shallow := by
  induction ls with
  | nil => rfl
  | cons l ls ih => exact congrArg (l.shallow :: ·) ih

theorem leaves_flat (t : Transformation μ) : t.flat.leaves = t.leaves.map Leaf.shallow :=
  leavesOfPasses_map_pass t.leaves

theorem Padded.leaves {passes padded : List (Transformation μ)} (h : Padded passes padded) :
    leavesOfPasses padded = leavesOfPasses passes := by
  induction h with
  | nil => rfl
  | pass name body _ ih => exact congrArg (_ :: ·) ih
  | pipeline _ _ hinner ih => simp only [leavesOfPasses, Transformation.leaves, hinner, ih]
  | empty _ _ hhollow ih => simp only [leavesOfPasses, Transformation.leaves, hhollow, ih, List.map_nil, List.nil_append]

/-! ## Runs -/

/-- What a tree does is decided by its leaves and how deep they stand. -/
theorem run_congr {t u : Transformation μ} (h : u.leaves = t.leaves) (m : μ) :
    (u.run m).model = (t.run m).model ∧ (u.run m).ending = (t.run m).ending ∧ (u.run m).calls = (t.run m).calls := by
  obtain ⟨ran, flags, stop, hcourse, hending, hcalls⟩ := run_follows t m
  obtain ⟨ran', flags', stop', hcourse', hending', hcalls'⟩ := run_follows u m
  rw [h] at hcourse'
  obtain ⟨rfl, rfl, rfl, hmodel⟩ := hcourse.unique hcourse'
  exact ⟨hmodel, hending'.trans hending.symm, hcalls'.trans hcalls.symm⟩

theorem ofError_category {e e' : ErrorChain} (h : e'.root = e.root) :
    (CompileFailure.ofError e').category = (CompileFailure.ofError e).category := by
  rw [CompileFailure.ofError, CompileFailure.ofError, h]
  cases e.root <;> rfl

theorem ofError_eq_compiler_iff {e e' : ErrorChain} (h : e'.root = e.root) (text : String) :
    CompileFailure.ofError e' = .compiler text ↔ CompileFailure.ofError e = .compiler text := by
  rw [CompileFailure.ofError, CompileFailure.ofError, h]
  cases e.root <;> simp

/-- Leaves that stand elsewhere end alike. -/
theorem alike_of_stop {r r' : TransformationRun μ} {flags : List Bool} {stop : Stop μ} {f : Leaf μ → Leaf μ}
    (hmodel : r'.model = r.model) (hcalls : r'.calls = r.calls) (hending : r.ending = answered flags stop)
    (hending' : r'.ending = answered flags (stop.map f)) : Alike r r' := by
  obtain ⟨model, ending, calls, notices⟩ := r
  obtain ⟨model', ending', calls', notices'⟩ := r'
  simp only at hending hending'
  subst hending hending'
  cases stop with
  | ok value => exact ⟨hmodel, hcalls, fun _ => Iff.rfl, rfl, fun _ => Iff.rfl⟩
  | error failure =>
    have hroot : ((f failure.1).raised failure.2).root = (failure.1.raised failure.2).root := rfl
    refine ⟨hmodel, hcalls, fun _ => iff_of_false nofun nofun, congrArg some (ofError_category hroot), fun text => ?_⟩
    exact Option.some_inj.trans ((ofError_eq_compiler_iff hroot text).trans Option.some_inj.symm)
  | panic => exact ⟨hmodel, hcalls, fun _ => Iff.rfl, rfl, fun _ => Iff.rfl⟩

theorem alike_flat (t : Transformation μ) (m : μ) : Alike (t.run m) (t.flat.run m) := by
  obtain ⟨ran, flags, stop, hcourse, hending, hcalls⟩ := run_follows t m
  obtain ⟨ran', flags', stop', hcourse', hending', hcalls'⟩ := run_follows t.flat m
  rw [leaves_flat] at hcourse'
  obtain ⟨rfl, rfl, rfl, hmodel⟩ := (hcourse.map (f := Leaf.shallow) fun _ => rfl).unique hcourse'
  refine alike_of_stop hmodel ?_ hending hending'
  rw [hcalls, hcalls', List.map_map]
  rfl

theorem answered_eq_ok_iff {ls ran : List (Leaf μ)} {m last : μ} {flags : List Bool} {stop : Stop μ}
    (h : Course ls m ran flags stop last) (changed : Bool) :
    answered flags stop = .ok changed ↔ stop = .ok () ∧ ran = ls ∧ (changed = true ↔ true ∈ flags) := by
  cases stop with
  | ok value =>
    have hany : flags.any id = true ↔ true ∈ flags := by simp
    simp only [answered, Outcome.ok.injEq, h.ran_eq, true_and]
    rw [← hany, ← Bool.eq_iff_iff, eq_comm]
  | error failure => exact iff_of_false nofun nofun
  | panic => exact iff_of_false nofun nofun

/-- A tree of pipelines does what the single pipeline of its leaves does, whatever its passes do. From left to right
each leaf runs once, up to the first that does not succeed, and no other leaf runs; if all of them succeed, a change
is reported exactly if one of them has reported one. Empty pipelines make no difference at all. -/
theorem run_as_flat :
    (∀ (μ : Type) (t : Transformation μ) (m : μ),
      Alike (t.run m) (t.flat.run m) ∧
      ∃ ran flags stop, Course t.leaves m ran flags stop (t.run m).model ∧ ran <+: t.leaves ∧
        (t.run m).calls = ran.map Leaf.name ∧
        ∀ changed, (t.run m).ending = .ok changed ↔
          stop = .ok () ∧ ran = t.leaves ∧ (changed = true ↔ true ∈ flags)) ∧
    ∀ (μ : Type) (passes padded : List (Transformation μ)) (m : μ), Padded passes padded →
      let r := (Transformation.pipeline passes).run m
      let r' := (Transformation.pipeline padded).run m
      r'.model = r.model ∧ r'.ending = r.ending ∧ r'.calls = r.calls := by
  refine ⟨fun μ t m => ?_, fun μ passes padded m h => ?_⟩
  · obtain ⟨ran, flags, stop, hcourse, hending, hcalls⟩ := run_follows t m
    refine ⟨alike_flat t m, ran, flags, stop, hcourse, hcourse.ran_prefix, hcalls, fun changed => ?_⟩
    rw [hending]
    exact answered_eq_ok_iff hcourse changed
  · exact run_congr (t := .pipeline passes) (u := .pipeline padded) h.leaves m

def wearing : PassBody Nat := fun runs =>
  (runs + 1, if runs = 2 then .error ⟨["worn out"], .pass "wearing" "no more"⟩ else .ok (runs = 0))

theorem run_as_flat_wearing :
    let passes : List (Transformation Nat) :=
      [.pass "a" wearing, .pipeline [.pass "a" wearing, .pipeline [.pass "b" wearing]], .pass "c" wearing]
    let padded : List (Transformation Nat) :=
      [.pipeline [.pipeline []], .pass "a" wearing,
        .pipeline [.pass "a" wearing, .pipeline [.pipeline [], .pass "b" wearing]], .pass "c" wearing]
    let t := Transformation.pipeline padded
    Padded passes padded ∧ (t.run 0).model = 3 ∧ (t.run 0).calls = ["a", "a", "b"] ∧ (t.flat.run 0).model = 3 ∧
      CompileFailure.ofEnding (t.flat.run 0).ending = some (.compiler "pass 'wearing' failed: no more") := by
  intro passes padded t
  have hpadded : Padded passes padded :=
    .empty (.empty .nil .nil) <| .pass _ _ <|
      .pipeline (.pass _ _ <| .pipeline (.empty .nil <| .pass _ _ .nil) .nil) <| .pass _ _ .nil
  obtain ⟨hflat, hempty⟩ := run_as_flat
  obtain ⟨hmodel, -, hcalls⟩ := hempty Nat passes padded 0 hpadded
  obtain ⟨halike, -⟩ := hflat Nat t 0
  exact ⟨hpadded, hmodel, hcalls, halike.model.trans hmodel, (halike.text _).mpr rfl⟩

end Transformation

end DevicePlugin
