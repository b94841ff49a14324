import DevicePlugin.Proofs.Request.Calls

/-!
# The profile of the last inference

The first stage of an inference forgets the profile, and every stage that succeeds adds
itself to it. So the profile lists the stages that the last inference has completed, in
their order, and nothing of what was done before.
-/

namespace DevicePlugin

namespace Stages

variable {σ : Type} (stages : Stages σ)

def completed : List InferStage → σ → Nat
  | [], _ => 0
  | stage :: rest, s =>
    match stages.run stage s with
    | (.ok (), s) => completed rest s + 1
    | (.error _, _) => 0
    | (.panic, _) => 0

theorem completed_le_length (order : List InferStage) (s : σ) : stages.completed order s ≤ order.length := by
  induction order generalizing s with
  | nil => exact Nat.le_refl 0
  | cons stage rest ih =>
    simp only [completed, List.length_cons]
    split
    · exact Nat.succ_le_succ (ih _)
    · exact Nat.zero_le _
    · exact Nat.zero_le _

theorem completed_eq_length_iff (order : List InferStage) (s : σ) :
    stages.completed order s = order.length ↔ (stages.runEach order s).1 = .ok () := by
  induction order generalizing s with
  | nil => exact iff_of_true rfl rfl
  | cons stage rest ih =>
    simp only [completed, runEach, List.length_cons]
    generalize stages.run stage s = ran
    obtain ⟨outcome, next⟩ := ran
    cases outcome with
    | ok value => exact Nat.succ_inj.trans (ih next)
    | error failure => simp
    | panic => simp

end Stages

namespace InferRequest

def listed (r : InferRequest) (done : List InferStage) : List InferStage :=
  if r.compiled.config.profiling then done else []

/-- What is left of the profile while the stage runs. -/
def keptProfile (r : InferRequest) : InferStage → List InferStage
  | .preprocess => []
  | _ => r.profile

variable {r r' : InferRequest}

@[simp] theorem listed_nil (r : InferRequest) : r.listed [] = [] := by
  unfold listed
  split <;> rfl

theorem listed_append (r : InferRequest) (done more : List InferStage) :
    r.listed (done ++ more) = r.listed done ++ r.listed more := by
  unfold listed
  split <;> rfl

theorem listed_congr (h : r'.compiled = r.compiled) : r'.listed = r.listed := by
  funext done
  rw [listed, listed, h]

theorem record_profile (r : InferRequest) (stage : InferStage) :
    (r.record stage).profile = r.profile ++ r.listed [stage] := by
  unfold record listed
  split
  · rfl
  · exact (List.append_nil _).symm

/-! ## Stages and the profile -/

/-- A stage adds itself to the profile if it succeeds. -/
theorem profile_run (stage : InferStage) (s : Served) :
    match Served.stages.run stage s with
    | (.ok (), next) => next.request.profile = s.request.keptProfile stage ++ s.request.listed [stage]
    | (.error _, next) => next.request.profile = s.request.keptProfile stage
    | (.panic, next) => next.request.profile = s.request.keptProfile stage := by
  -- Whatever a stage reads, it ends in a failure that lists nothing, or in `record`.
  obtain ⟨r, device⟩ := s
  cases stage with
  | preprocess =>
    cases hunset : r.unset with
    | some p =>
      simp only [Served.stages, Served.runLocal, Served.preprocess_of_unset hunset]
      rfl
    | none =>
      simp only [Served.stages, Served.runLocal, Served.preprocess_of_set hunset]
      exact record_profile r.forgotten .preprocess
  | start =>
    cases device with
    | none => rfl
    | some d =>
      simp only [Served.stages, Served.start, Served.start_some]
      cases d.backend.evaluate d.evaluations r.graph r.inputs with
      | ok outputs => exact record_profile _ _
      | error error => rfl
      | panic => rfl
  | wait =>
    simp only [Served.stages, Served.runLocal, wait]
    cases r.pending with
    | none => rfl
    | some outputs =>
      simp only
      cases checkOutputs outputs r.graph.results with
      | error fault => rfl
      | ok value => exact record_profile _ _
  | postprocess =>
    simp only [Served.stages, Served.runLocal, postprocess]
    cases r.pending with
    | none => rfl
    | some outputs => exact record_profile _ _

theorem keptProfile_of_ne {stage : InferStage} (h : .preprocess ≠ stage) (r : InferRequest) :
    r.keptProfile stage = r.profile := by
  cases stage with
  | preprocess => exact absurd rfl h
  | start | wait | postprocess => rfl

/-- The stages that are completed are added to what the first of them keeps. -/
theorem profile_runEach {stage : InferStage} {rest : List InferStage} (hrest : .preprocess ∉ rest) (s : Served) :
    (Served.stages.runEach (stage :: rest) s).2.request.profile =
      s.request.keptProfile stage ++
        s.request.listed ((stage :: rest).take (Served.stages.completed (stage :: rest) s)) := by
  -- The stages after the first keep all that is listed when they begin, since none of them checks the inputs.
  induction rest generalizing stage s with
  | nil =>
    have hprofile := profile_run stage s
    simp only [Stages.runEach, Stages.completed]
    generalize Served.stages.run stage s = ran at hprofile
    obtain ⟨outcome, next⟩ := ran
    cases outcome <;> simpa using hprofile
  | cons second rest ih =>
    obtain ⟨hsecond, hrest⟩ := not_or.mp (List.mem_cons.not.mp hrest)
    have hprofile := profile_run stage s
    have hcompiled := Served.run_compiled stage s
    rw [Stages.runEach, Stages.completed]
    generalize Served.stages.run stage s = ran at hprofile hcompiled
    obtain ⟨outcome, next⟩ := ran
    cases outcome with
    | ok value =>
      simp only at hprofile hcompiled ⊢
      rw [ih hrest, keptProfile_of_ne hsecond, hprofile, listed_congr hcompiled, List.append_assoc, ← listed_append]
      rfl
    | error failure => simpa using hprofile
    | panic => simpa using hprofile

theorem profile_bind (r : InferRequest) (name : String) (t : Tensor) :
    (r.call (.bind name t)).profile = r.profile := by
  simp only [call]
  split
  · rename_i hset
    obtain ⟨-, rfl⟩ := setTensor_eq_ok hset
    rfl
  · rfl

theorem profile_binds (r : InferRequest) (bindings : List (String × Tensor)) :
    (r.calls (bindings.map fun b => .bind b.1 b.2)).profile = r.profile := by
  induction bindings generalizing r with
  | nil => rfl
  | cons b rest ih => exact (ih _).trans (profile_bind r b.1 b.2)

/-- Whatever was done with the request before, once it has inferred, and until it infers again, it lists the
stages that this inference has completed, and no others. It has completed all four if and only if it
succeeded. Without profiling nothing is listed. -/
theorem profile_last_infer (c : CompiledModel) (history : List Call) (device : Option Device)
    (bindings : List (String × Tensor)) :
    let r := ({ compiled := c } : InferRequest).calls history
    let after := r.calls (.infer device :: bindings.map fun b => .bind b.1 b.2)
    let k := Served.stages.completed [.preprocess, .start, .wait, .postprocess] ⟨r, device⟩
    after.profile.map InferStage.title =
        (if c.config.profiling then
          ["input preprocessing", "execution start", "execution wait", "output postprocessing"].take k
        else []) ∧
      k ≤ 4 ∧ (k = 4 ↔ (Served.stages.infer ⟨r, device⟩).1 = .ok ()) := by
  intro r after k
  have hcompiled : r.compiled = c := (fed_calls c history).compiled
  refine ⟨?_, Served.stages.completed_le_length _ _, Served.stages.completed_eq_length_iff _ _⟩
  have hprofile : after.profile = r.listed ([.preprocess, .start, .wait, .postprocess].take k) :=
    (profile_binds (r.call (.infer device)) bindings).trans (profile_runEach (by decide) ⟨r, device⟩)
  rw [hprofile, listed, hcompiled]
  split
  · rw [List.map_take]
    rfl
  · rfl

end InferRequest

end DevicePlugin
