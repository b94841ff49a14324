import DevicePlugin.Proofs.Request.Stages

/-!
# The course of tasks on one request

While the inputs of a request stay the same and its backend is pure, every first
task comes to the same end and leaves the same behind. What a second task comes to
depends on the task that ran before it.
-/

namespace DevicePlugin

theorem Stages.runEach_append {σ : Type} (stages : Stages σ) (order order' : List InferStage) (s : σ) :
    stages.runEach (order ++ order') s =
      match stages.runEach order s with
      | (.ok (), s) => stages.runEach order' s
      | (.error failure, s) => (.error failure, s)
      | (.panic, s) => (.panic, s) := by
  induction order generalizing s with
  | nil => rfl
  | cons stage rest ih =>
    simp only [List.cons_append, runEach]
    generalize stages.run stage s = ran
    obtain ⟨outcome, s⟩ := ran
    cases outcome with
    | ok value => exact ih s
    | error failure => rfl
    | panic => rfl

theorem Stages.infer_eq {σ : Type} (stages : Stages σ) (s : σ) :
    stages.infer s =
      match stages.runEach [.preprocess, .start] s with
      | (.ok (), s) => stages.runEach [.wait, .postprocess] s
      | (.error failure, s) => (.error failure, s)
      | (.panic, s) => (.panic, s) :=
  stages.runEach_append [.preprocess, .start] [.wait, .postprocess] s

namespace InferRequest

def first (r : InferRequest) (d : Device) : Outcome Failure Unit × InferRequest :=
  match Served.stages.runEach [.preprocess, .start] ⟨r, some d⟩ with
  | (outcome, served) => (outcome, served.request)

def second (r : InferRequest) : Outcome Failure Unit × InferRequest :=
  match r.pending with
  | none => (.error (.infer .notStarted), r)
  | some outputs =>
    match checkOutputs outputs r.graph.results with
    | .error fault => (.error (.infer fault), r)
    | .ok () => (.ok (), r.published outputs)

theorem runEach_finish_eq (r : InferRequest) (d : Option Device) :
    Served.stages.runEach [.wait, .postprocess] ⟨r, d⟩ = (r.second.1, ⟨r.second.2, d⟩) := by
  rw [Served.runEach_finish]
  unfold second
  cases r.pending with
  | none => rfl
  | some outputs =>
    simp only
    cases checkOutputs outputs r.graph.results <;> rfl

structure SameInputs (r r' : InferRequest) : Prop where
  compiled : r'.compiled = r.compiled
  inputs : r'.inputs = r.inputs

structure Matches (r r' : InferRequest) : Prop where
  pending : r'.pending = r.pending
  profile : r'.profile = r.profile

theorem SameInputs.trans {r r' r'' : InferRequest} (h : SameInputs r r') (h' : SameInputs r' r'') :
    SameInputs r r'' :=
  ⟨h'.compiled.trans h.compiled, h'.inputs.trans h.inputs⟩

theorem SameInputs.graph {r r' : InferRequest} (h : SameInputs r r') : r'.graph = r.graph := by
  rw [InferRequest.graph, InferRequest.graph, h.compiled]

theorem SameInputs.unset {r r' : InferRequest} (h : SameInputs r r') : r'.unset = r.unset := by
  rw [InferRequest.unset, InferRequest.unset, h.graph, h.inputs]

theorem record_matches {r r' : InferRequest} (hcompiled : r'.compiled = r.compiled) (h : Matches r r')
    (stage : InferStage) : Matches (r.record stage) (r'.record stage) := by
  unfold record
  rw [hcompiled]
  split
  · exact ⟨h.pending, congrArg (· ++ [stage]) h.profile⟩
  · exact h

theorem forgotten_matches {r r' : InferRequest} : Matches r.forgotten r'.forgotten := ⟨rfl, rfl⟩

theorem begun_matches {r r' : InferRequest} (h : SameInputs r r') : Matches r.begun r'.begun := by
  have hcompiled : r'.forgotten.compiled = r.forgotten.compiled := h.compiled
  exact record_matches hcompiled forgotten_matches _

theorem evaluated_matches {r r' : InferRequest} (h : SameInputs r r') (outputs : Dict Tensor) :
    Matches (r.evaluated outputs) (r'.evaluated outputs) := by
  have hcompiled : r'.begun.compiled = r.begun.compiled := by
    rw [begun, begun, record_compiled, record_compiled]
    exact h.compiled
  have hpending : Matches { r.begun with pending := some outputs } { r'.begun with pending := some outputs } :=
    ⟨rfl, (begun_matches h).profile⟩
  refine record_matches ?_ hpending _
  exact hcompiled

theorem published_matches {r r' : InferRequest} (h : SameInputs r r') (hm : Matches r r')
    (outputs : Dict Tensor) : Matches (r.published outputs) (r'.published outputs) := by
  have hcompiled : (r'.record .wait).compiled = (r.record .wait).compiled := by
    rw [record_compiled, record_compiled]
    exact h.compiled
  have hpending : Matches { r.record .wait with pending := none, outputs }
      { r'.record .wait with pending := none, outputs } :=
    ⟨rfl, (record_matches h.compiled hm _).profile⟩
  refine record_matches ?_ hpending _
  exact hcompiled

/-- What the first task leaves depends on the graph and the inputs alone. -/
theorem first_same {r r' : InferRequest} (h : SameInputs r r') {d d' : Device} (hpure : d.backend.Pure)
    (hd : d'.backend = d.backend) :
    (r'.first d').1 = (r.first d).1 ∧ Matches (r.first d).2 (r'.first d').2 ∧
      SameInputs r' (r'.first d').2 ∧ (r'.first d').2.outputs = r'.outputs := by
  have hunset := h.unset
  have hevaluate : d'.backend.evaluate d'.evaluations r'.graph r'.inputs =
      d.backend.evaluate d.evaluations r.graph r.inputs := by
    rw [hd, h.graph, h.inputs, hpure d'.evaluations d.evaluations]
  have hbegun : SameInputs r' r'.begun := ⟨record_compiled _ _, record_inputs _ _⟩
  have houtputs : r'.begun.outputs = r'.outputs := record_outputs _ _
  unfold first
  cases hr : r.unset with
  | some p =>
    rw [Served.runEach_start_unset hr, Served.runEach_start_unset (hunset.trans hr)]
    exact ⟨rfl, forgotten_matches, ⟨rfl, rfl⟩, rfl⟩
  | none =>
    rw [Served.runEach_start_set hr, Served.runEach_start_set (hunset.trans hr), hevaluate]
    cases d.backend.evaluate d.evaluations r.graph r.inputs with
    | ok outputs =>
      refine ⟨rfl, evaluated_matches h outputs, ⟨?_, ?_⟩, ?_⟩
      · exact (record_compiled _ _).trans hbegun.compiled
      · exact (record_inputs _ _).trans hbegun.inputs
      · exact (record_outputs _ _).trans houtputs
    | error error =>
      rw [hd]
      exact ⟨rfl, begun_matches h, hbegun, houtputs⟩
    | panic => exact ⟨rfl, begun_matches h, hbegun, houtputs⟩

/-- A first task that fails leaves nothing to publish. -/
theorem first_pending {r : InferRequest} {d : Device} (h : (r.first d).1 ≠ .ok ()) :
    (r.first d).2.pending = none := by
  unfold first at h ⊢
  cases hr : r.unset with
  | some p => rw [Served.runEach_start_unset hr]; rfl
  | none =>
    rw [Served.runEach_start_set hr] at h ⊢
    cases hanswer : d.backend.evaluate d.evaluations r.graph r.inputs with
    | ok outputs => rw [hanswer] at h; exact absurd rfl h
    | error error => exact record_pending _ _
    | panic => exact record_pending _ _

theorem first_panic {r : InferRequest} {d : Device} (h : (r.first d).1 = .panic) :
    d.backend.evaluate d.evaluations r.graph r.inputs = .panic := by
  unfold first at h
  cases hr : r.unset with
  | some p => rw [Served.runEach_start_unset hr] at h; cases h
  | none =>
    rw [Served.runEach_start_set hr] at h
    cases hanswer : d.backend.evaluate d.evaluations r.graph r.inputs with
    | ok outputs => rw [hanswer] at h; cases h
    | error error => rw [hanswer] at h; cases h
    | panic => rfl

theorem second_of_pending_none {r : InferRequest} (h : r.pending = none) :
    r.second = (.error (.infer .notStarted), r) := by
  unfold second
  rw [h]

theorem second_ne_panic (r : InferRequest) : r.second.1 ≠ .panic := by
  unfold second
  split
  · simp
  · split <;> simp

theorem second_pending {r : InferRequest} (h : r.second.1 = .ok ()) : r.second.2.pending = none := by
  unfold second at h ⊢
  split at h
  · cases h
  · split at h
    · cases h
    · simp only [*]
      exact record_pending _ _

theorem second_of_ne_ok {r : InferRequest} (h : r.second.1 ≠ .ok ()) : r.second.2 = r := by
  unfold second at h ⊢
  split
  · rfl
  · split
    · rfl
    · simp_all

theorem second_same (r : InferRequest) : SameInputs r r.second.2 := by
  unfold second
  split
  · exact ⟨rfl, rfl⟩
  · split
    · exact ⟨rfl, rfl⟩
    · exact ⟨by simp [published], by simp [published]⟩

/-- What the second task comes to depends on how far the inference is. -/
theorem second_matches {r r' : InferRequest} (h : SameInputs r r') (hm : Matches r r') :
    r'.second.1 = r.second.1 ∧ Matches r.second.2 r'.second.2 ∧
      (r.second.1 = .ok () → r'.second.2.outputs = r.second.2.outputs) := by
  unfold second
  rw [hm.pending]
  cases r.pending with
  | none => exact ⟨rfl, hm, nofun⟩
  | some outputs =>
    simp only [h.graph]
    cases checkOutputs outputs r.graph.results with
    | error fault => exact ⟨rfl, hm, nofun⟩
    | ok value => exact ⟨rfl, published_matches h hm outputs, fun _ => by simp [published]⟩

theorem second_profile {r : InferRequest} (h : r.second.1 = .ok ()) :
    r.second.2.profile =
      if r.compiled.config.profiling then r.profile ++ [.wait, .postprocess] else r.profile := by
  unfold second at h ⊢
  split at h
  · cases h
  · split at h
    · cases h
    · simp only [*, published, record]
      split <;> simp

/-! ## An inference by itself -/

def fresh (r : InferRequest) : InferRequest := { compiled := r.compiled, inputs := r.inputs }

def alone (r : InferRequest) (d : Device) : Outcome Failure Unit × InferRequest :=
  match Served.stages.infer ⟨r.fresh, some d⟩ with
  | (outcome, served) => (outcome, served.request)

theorem alone_eq (r : InferRequest) (d : Device) :
    r.alone d =
      match r.fresh.first d with
      | (.ok (), f) => f.second
      | (outcome, f) => (outcome, f) := by
  unfold alone first
  rw [Stages.infer_eq]
  generalize Served.stages.runEach [.preprocess, .start] ⟨r.fresh, some d⟩ = ran
  obtain ⟨outcome, request, device⟩ := ran
  cases outcome with
  | ok value => simp only [runEach_finish_eq]
  | error failure => rfl
  | panic => rfl

variable {r : InferRequest} {d : Device}

theorem first_fresh (hpure : d.backend.Pure) :
    (r.fresh.first d).1 = (r.first d).1 ∧ Matches (r.first d).2 (r.fresh.first d).2 ∧
      SameInputs r (r.fresh.first d).2 ∧ SameInputs r (r.first d).2 := by
  have hfresh : SameInputs r r.fresh := ⟨rfl, rfl⟩
  obtain ⟨houtcome, hmatches, hsame, -⟩ := first_same hfresh hpure rfl
  obtain ⟨-, -, hsame', -⟩ := first_same (r := r) ⟨rfl, rfl⟩ hpure rfl
  exact ⟨houtcome, hmatches, hfresh.trans hsame, hsame'⟩

theorem alone_of_first_ne_ok (hpure : d.backend.Pure) (h : (r.first d).1 ≠ .ok ()) :
    (r.alone d).1 = (r.first d).1 ∧ Matches (r.first d).2 (r.alone d).2 := by
  obtain ⟨houtcome, hmatches, -⟩ := first_fresh (r := r) hpure
  rw [alone_eq]
  generalize r.fresh.first d = ran at houtcome hmatches
  obtain ⟨outcome, f⟩ := ran
  rw [← houtcome] at h ⊢
  cases outcome with
  | ok value => exact absurd rfl h
  | error failure => exact ⟨rfl, hmatches⟩
  | panic => exact ⟨rfl, hmatches⟩

theorem alone_of_first_ok (hpure : d.backend.Pure) (h : (r.first d).1 = .ok ()) :
    (r.alone d).1 = (r.first d).2.second.1 ∧ Matches (r.first d).2.second.2 (r.alone d).2 ∧
      ((r.first d).2.second.1 = .ok () → (r.alone d).2.outputs = (r.first d).2.second.2.outputs) := by
  obtain ⟨houtcome, hmatches, hfresh, hsame⟩ := first_fresh (r := r) hpure
  rw [alone_eq]
  generalize r.fresh.first d = ran at houtcome hmatches hfresh
  obtain ⟨outcome, f⟩ := ran
  rw [← houtcome] at h
  cases h
  exact second_matches ⟨hfresh.compiled.trans hsame.compiled.symm, hfresh.inputs.trans hsame.inputs.symm⟩ hmatches

/-! ## Tasks one after another -/

def Begun (runs : List (InferenceId × Hop)) : Prop := ∃ i, (i, Hop.start) ∈ runs

/-- A second task ran after a first one. The last task comes first. -/
def Ended : List (InferenceId × Hop) → Prop
  | [] => False
  | (_, hop) :: older => Ended older ∨ hop = .finish ∧ Begun older

/-- What a second task comes to after these: the tensors of an evaluation are published only once. -/
def verdict (outcome : Outcome Failure Unit) : List (InferenceId × Hop) → Outcome Failure Unit
  | (_, .start) :: _ => outcome
  | _ =>
    match outcome with
    | .ok () => .error (.infer .notStarted)
    | other => other

structure Fits (r : InferRequest) (d : Device) (runs : List (InferenceId × Hop)) (r' : InferRequest) :
    Prop where
  same : SameInputs r r'
  fed : ∀ i older, runs = (i, .start) :: older → Matches (r.first d).2 r'
  spent : Begun runs → (∀ i older, runs ≠ (i, .start) :: older) → Matches (r.first d).2.second.2 r' ∧
    ((r.first d).2.second.1 = .ok () → r'.outputs = (r.first d).2.second.2.outputs)
  outputs : (r.first d).2.second.1 = .ok () → Ended runs → r'.outputs = (r.first d).2.second.2.outputs

theorem begun_of_ended {runs : List (InferenceId × Hop)} (h : Ended runs) : Begun runs := by
  induction runs with
  | nil => exact h.elim
  | cons run older ih =>
    rcases h with h | ⟨-, i, h⟩
    · obtain ⟨i, h⟩ := ih h
      exact ⟨i, List.mem_cons_of_mem _ h⟩
    · exact ⟨i, List.mem_cons_of_mem _ h⟩

theorem fits_nil (r : InferRequest) (d : Device) : Fits r d [] r where
  same := ⟨rfl, rfl⟩
  fed := nofun
  spent := by
    rintro ⟨i, h⟩
    cases h
  outputs := fun _ h => h.elim

theorem Fits.first {runs : List (InferenceId × Hop)} {r' : InferRequest} (h : Fits r d runs r')
    (hpure : d.backend.Pure) {d' : Device} (hd : d'.backend = d.backend) (i : InferenceId) :
    (r'.first d').1 = (r.first d).1 ∧ Fits r d ((i, .start) :: runs) (r'.first d').2 := by
  obtain ⟨houtcome, hmatches, hsame, houtputs⟩ := first_same h.same hpure hd
  refine ⟨houtcome, h.same.trans hsame, ?_, ?_, ?_⟩
  · intro _ _ _
    exact hmatches
  · intro _ hrun
    exact absurd rfl (hrun i runs)
  · rintro hok (hended | ⟨hhop, -⟩)
    · exact houtputs.trans (h.outputs hok hended)
    · cases hhop

theorem verdict_of_ne_start (outcome : Outcome Failure Unit) {runs : List (InferenceId × Hop)}
    (h : ∀ i older, runs ≠ (i, .start) :: older) :
    verdict outcome runs =
      match outcome with
      | .ok () => .error (.infer .notStarted)
      | other => other := by
  cases runs with
  | nil => rfl
  | cons run older =>
    obtain ⟨i, hop⟩ := run
    cases hop with
    | start => exact absurd rfl (h i older)
    | finish => rfl
    | notify => rfl

theorem verdict_of_ne_ok {outcome : Outcome Failure Unit} (h : outcome ≠ .ok ())
    (runs : List (InferenceId × Hop)) : verdict outcome runs = outcome := by
  unfold verdict
  split
  · rfl
  · split
    · exact absurd rfl h
    · rfl

/-- The second task goes with the first task that ran last, or finds its tensors published. -/
theorem second_after {runs : List (InferenceId × Hop)} {r' : InferRequest} (h : Fits r d runs r')
    (hpure : d.backend.Pure) (hbegun : Begun runs) :
    r'.second.1 = verdict (r.first d).2.second.1 runs ∧ Matches (r.first d).2.second.2 r'.second.2 ∧
      ((r.first d).2.second.1 = .ok () → r'.second.2.outputs = (r.first d).2.second.2.outputs) := by
  obtain ⟨-, -, -, hfirst⟩ := first_fresh (r := r) hpure
  have hsame : SameInputs (r.first d).2 r' :=
    ⟨h.same.compiled.trans hfirst.compiled.symm, h.same.inputs.trans hfirst.inputs.symm⟩
  -- Either an evaluation was the last to run, or a second task has run since and taken what it put out.
  by_cases hstart : ∃ i older, runs = (i, .start) :: older
  · obtain ⟨i, older, rfl⟩ := hstart
    exact second_matches hsame (h.fed i older rfl)
  · have hne : ∀ i older, runs ≠ (i, .start) :: older := fun i older heq => hstart ⟨i, older, heq⟩
    obtain ⟨hmatches, houtputs⟩ := h.spent hbegun hne
    rw [verdict_of_ne_start _ hne]
    by_cases hok : (r.first d).2.second.1 = .ok ()
    · have hpending : r'.pending = none := hmatches.pending.trans (second_pending hok)
      rw [second_of_pending_none hpending, hok]
      exact ⟨rfl, hmatches, fun _ => houtputs hok⟩
    · rw [second_of_ne_ok hok] at hmatches
      obtain ⟨houtcome, hmatches', houtputs'⟩ := second_matches hsame hmatches
      refine ⟨houtcome.trans ?_, hmatches', houtputs'⟩
      cases houtcome' : (r.first d).2.second.1 with
      | ok value => exact absurd houtcome' hok
      | error failure => rfl
      | panic => rfl

theorem Fits.second {runs : List (InferenceId × Hop)} {r' : InferRequest} (h : Fits r d runs r')
    (hpure : d.backend.Pure) (i : InferenceId) : Fits r d ((i, .finish) :: runs) r'.second.2 := by
  have hbegun (hb : Begun ((i, .finish) :: runs)) : Begun runs := by
    obtain ⟨k, hk⟩ := hb
    rcases List.mem_cons.mp hk with hk | hk
    · cases hk
    · exact ⟨k, hk⟩
  refine ⟨h.same.trans (second_same r'), ?_, ?_, ?_⟩
  · intro _ _ heq
    cases heq
  · intro hb _
    exact (second_after h hpure (hbegun hb)).2
  · intro hok hended
    exact (second_after h hpure (hbegun (begun_of_ended hended))).2.2 hok

structure Agrees (r : InferRequest) (d : Device) (result : InferResult) (r' : InferRequest) : Prop where
  outcome : Outcome.ofExcept result = (r.alone d).1
  profile : r'.profile = (r.alone d).2.profile
  outputs : result = .ok () → r'.outputs = (r.alone d).2.outputs

/-- Where nothing can be published, the last first task decides how far the request is. -/
theorem matches_of_kept {runs : List (InferenceId × Hop)} {r' : InferRequest} (h : Fits r d runs r')
    (hbegun : Begun runs) (hkept : (r.first d).2.second.2 = (r.first d).2) : Matches (r.first d).2 r' := by
  by_cases hstart : ∃ i older, runs = (i, .start) :: older
  · obtain ⟨i, older, rfl⟩ := hstart
    exact h.fed i older rfl
  · have hspent := h.spent hbegun fun i older heq => hstart ⟨i, older, heq⟩
    rw [hkept] at hspent
    exact hspent.1

theorem agrees_of_first_ne_ok {runs : List (InferenceId × Hop)} {r' : InferRequest} (h : Fits r d runs r')
    (hpure : d.backend.Pure) (hfirst : (r.first d).1 ≠ .ok ()) (hbegun : Begun runs) {result : InferResult}
    (hresult : Outcome.ofExcept result = (r.first d).1) : Agrees r d result r' := by
  obtain ⟨houtcome, hmatches⟩ := alone_of_first_ne_ok hpure hfirst
  have hkept : (r.first d).2.second.2 = (r.first d).2 := by
    rw [second_of_pending_none (first_pending hfirst)]
  have hmatches' := matches_of_kept h hbegun hkept
  refine ⟨hresult.trans houtcome.symm, hmatches'.profile.trans hmatches.profile.symm, ?_⟩
  rintro rfl
  exact absurd hresult.symm hfirst

theorem profile_of_ended {runs : List (InferenceId × Hop)} {r' : InferRequest} (h : Fits r d runs r')
    (hpure : d.backend.Pure) (hok : (r.first d).2.second.1 = .ok ()) (hended : Ended runs) :
    r'.profile = (r.first d).2.second.2.profile ↔
      (r.compiled.config.profiling = true → ∀ i rest, runs ≠ (i, .start) :: rest) := by
  obtain ⟨-, -, -, hsame⟩ := first_fresh (r := r) hpure
  have hprofile := second_profile hok
  rw [hsame.compiled] at hprofile
  constructor
  · rintro heq hprofiling i rest rfl
    rw [heq.symm.trans (h.fed i rest rfl).profile, if_pos hprofiling] at hprofile
    simp at hprofile
  · intro hlast
    by_cases hstart : ∃ i rest, runs = (i, .start) :: rest
    · obtain ⟨i, rest, rfl⟩ := hstart
      have hprofiling : ¬ r.compiled.config.profiling = true := fun hp => hlast hp i rest rfl
      rw [(h.fed i rest rfl).profile, hprofile, if_neg hprofiling]
    · exact (h.spent (begun_of_ended hended) fun i rest heq => hstart ⟨i, rest, heq⟩).1.profile

/-- After a second task that ran after `older`. -/
theorem agrees_iff_of_first_ok {runs older : List (InferenceId × Hop)} {r' : InferRequest}
    (h : Fits r d runs r') (hpure : d.backend.Pure) (hfirst : (r.first d).1 = .ok ())
    (hended : Ended runs) {result : InferResult}
    (hresult : Outcome.ofExcept result = verdict (r.first d).2.second.1 older) :
    Agrees r d result r' ↔
      ((r.alone d).1 = .ok () → (∃ i rest, older = (i, .start) :: rest) ∧
        (r.compiled.config.profiling = true → ∀ i rest, runs ≠ (i, .start) :: rest)) := by
  obtain ⟨halone, hmatches, houtputs⟩ := alone_of_first_ok hpure hfirst
  by_cases hok : (r.first d).2.second.1 = .ok ()
  · have hprofile := profile_of_ended h hpure hok hended
    rw [← hmatches.profile] at hprofile
    rw [← hprofile]
    constructor
    · intro hagrees _
      refine ⟨Classical.byContradiction fun hne => ?_, hagrees.profile⟩
      have hverdict := verdict_of_ne_start (r.first d).2.second.1 fun i rest heq => hne ⟨i, rest, heq⟩
      rw [← hresult, hagrees.outcome, halone, hok] at hverdict
      cases hverdict
    · intro hcond
      obtain ⟨⟨i, rest, rfl⟩, hprofile'⟩ := hcond (halone.trans hok)
      exact ⟨hresult.trans halone.symm, hprofile', fun _ => (h.outputs hok hended).trans (houtputs hok).symm⟩
  · rw [verdict_of_ne_ok hok, ← halone] at hresult
    refine iff_of_true ?_ fun hok' => absurd (halone.symm.trans hok') hok
    have hmatches' := matches_of_kept h (begun_of_ended hended) (second_of_ne_ok hok)
    rw [second_of_ne_ok hok] at hmatches
    refine ⟨hresult, hmatches'.profile.trans hmatches.profile.symm, ?_⟩
    rintro rfl
    exact absurd (halone.symm.trans hresult.symm) hok

end InferRequest

end DevicePlugin
