import DevicePlugin.Proofs.Request.Tokens

/-!
# Engines that differ in their tokens

Which number a token has is not seen, and a tripped token is seen only by an active
inference that holds it. Two engines that differ in nothing else take the same turns.
-/

namespace DevicePlugin

namespace Engine

variable {σ : Type}

def blank (e : Engine σ) : Engine σ :=
  { e with
    requests := fun rid => { e.requests rid with token := 0, tripped := [] }
    inferences := fun i => { e.inferences i with token := 0 } }

/-! ## What is done does not depend on tokens -/

theorem blank_setInference (e : Engine σ) (id : InferenceId) (i : Inference) :
    (e.setInference id i).blank = e.blank.setInference id { i with token := 0 } := by
  have h (j : InferenceId) : ({ (e.setInference id i).inferences j with token := 0 } : Inference) =
      (e.blank.setInference id { i with token := 0 }).inferences j := by
    by_cases hj : j = id
    · simp [setInference, hj]
    · simp [setInference, blank, hj]
  simp only [blank, setInference] at h ⊢
  congr 1
  exact funext h

theorem blank_setRequest (e : Engine σ) (id : RequestId) (r : AsyncRequest) :
    (e.setRequest id r).blank = e.blank.setRequest id { r with token := 0, tripped := [] } := by
  have h (j : RequestId) : ({ (e.setRequest id r).requests j with token := 0, tripped := [] } : AsyncRequest) =
      (e.blank.setRequest id { r with token := 0, tripped := [] }).requests j := by
    by_cases hj : j = id
    · simp [setRequest, hj]
    · simp [setRequest, blank, hj]
  simp only [blank, setRequest] at h ⊢
  congr 1
  exact funext h

theorem blank_setPhase (e : Engine σ) (id : InferenceId) (phase : Phase) :
    (e.setPhase id phase).blank = e.blank.setPhase id phase :=
  blank_setInference e id _

theorem blank_note (e : Engine σ) (h : Happening) : (e.note h).blank = e.blank.note h := rfl

theorem blank_answer (e : Engine σ) (t : Task) (reply : Reply) :
    (e.answer t reply).blank = e.blank.answer t reply := by
  rw [answer_eq, answer_eq, blank_setPhase]
  rfl

theorem blank_finish (e : Engine σ) (id : InferenceId) (phase : Phase) :
    (e.finish id phase).blank = e.blank.finish id phase := by
  unfold finish
  simp only
  rw [blank_note, blank_setRequest, blank_setPhase]
  rfl

theorem blank_runStages (stages : Stages σ) (order : List InferStage) (e : Engine σ) (t : Task) :
    (runStages stages order e t).1.blank = (runStages stages order e.blank t).1 := by
  cases hpoisoned : (e.requests t.request).poisoned with
  | true =>
    have hblank : (e.blank.requests t.request).poisoned = true := hpoisoned
    rw [runStages_poisoned stages order hpoisoned, runStages_poisoned stages order hblank]
    exact blank_answer e t _
  | false =>
    have hblank : (e.blank.requests t.request).poisoned = false := hpoisoned
    generalize hrun : stages.runEach order e.state = run
    obtain ⟨outcome, state⟩ := run
    have hrun' : stages.runEach order e.blank.state = (outcome, state) := hrun
    rw [runStages_eq stages order hpoisoned hrun, runStages_eq stages order hblank hrun']
    simp only
    rw [blank_answer]
    congr 1
    cases outcome with
    | ok value => rfl
    | error failure => rfl
    | panic => exact blank_setRequest _ _ _

theorem blank_runTask (stages : RequestId → Stages σ) (e : Engine σ) (t : Task) :
    (e.runTask stages t).1.blank = (e.blank.runTask stages t).1 := by
  unfold runTask
  split
  · exact blank_runStages _ _ e t
  · exact blank_runStages _ _ e t
  · rename_i callback result _
    simp only
    split
    · exact blank_answer _ t _
    · exact blank_answer _ t _

theorem home_blank (e : Engine σ) (t : Task) : e.blank.home t = e.home t := by
  unfold home blank
  cases t.work.hop <;> rfl

theorem blank_queued (e : Engine σ) (t : Task) : (e.queued t).blank = e.blank.queued t := by
  unfold queued
  rw [home_blank]
  rfl

theorem blank_counted (e : Engine σ) (x : ExecutorId) : (e.counted x).blank = e.blank.counted x := rfl

theorem blank_handed (e : Engine σ) (id : InferenceId) (work : Work) :
    (e.handed id work).blank = e.blank.handed id work := by
  unfold handed
  rw [blank_note, blank_setPhase, home_blank]
  rfl

theorem blank_taken (e : Engine σ) (id : InferenceId) : (e.taken id).blank = e.blank.taken id := by
  unfold taken
  simp only
  rw [blank_setInference, blank_setRequest]
  rfl

theorem blank_logged (e : Engine σ) (id : InferenceId) (notice : Option Notice) :
    (e.logged id notice).blank = e.blank.logged id notice := by
  cases notice <;> rfl

theorem setRequest_self (e : Engine σ) (id : RequestId) : e.setRequest id (e.requests id) = e := by
  have h : (fun j => if j = id then e.requests id else e.requests j) = e.requests := by
    funext j
    by_cases hj : j = id
    · simp [hj]
    · simp [hj]
  unfold setRequest
  rw [h]

theorem blank_cancel (e : Engine σ) (rid : RequestId) : (e.cancel rid).blank = e.blank := by
  unfold cancel
  simp only
  rw [blank_setRequest]
  exact setRequest_self e.blank rid

theorem blank_infer (e : Engine σ) (rid : RequestId) : (e.infer rid).blank = e.blank.infer rid := by
  have h : (e.setInference e.started { request := rid }).blank = e.blank.setInference e.started { request := rid } :=
    blank_setInference e e.started { request := rid }
  unfold infer
  show { (e.setInference e.started { request := rid }).blank with started := e.started + 1 } = _
  rw [h]
  rfl

theorem blank_setCallback (e : Engine σ) (rid : RequestId) (callback : Callback) :
    (e.setCallback rid callback).blank = e.blank.setCallback rid callback :=
  blank_setRequest e rid _

theorem blank_dropQueued (e : Engine σ) (x : ExecutorId) (position : Nat) :
    (e.dropQueued x position).blank = e.blank.dropQueued x position := by
  unfold dropQueued takeTask
  have hsame : e.blank.executors x = e.executors x := rfl
  simp only [hsame]
  cases (e.executors x).queue[position]? with
  | none => rfl
  | some t => exact blank_answer _ t .dropped

theorem blank_abandon (e : Engine σ) (id : InferenceId) : (e.abandon id).blank = e.blank.abandon id := by
  unfold abandon
  have hsame : (e.blank.inferences id).phase = (e.inferences id).phase := rfl
  simp only [hsame]
  cases (e.inferences id).phase with
  | created => exact congrArg (note · (.ended id)) (blank_setPhase e id .abandoned)
  | awaiting hop reply => exact blank_finish e id .abandoned
  | _ => rfl

/-! ## What an inference comes to depends on little -/

section

variable {e d : Engine σ} {id : InferenceId} (hphase : (d.inferences id).phase = (e.inferences id).phase)
include hphase

theorem Concludes.congr {result : InferResult} (hc : e.Concludes id result) : d.Concludes id result := by
  cases hc with
  | start failure hawaits => exact .start failure (hphase.trans hawaits)
  | finish _ hawaits => exact .finish result (hphase.trans hawaits)
  | dropped hop hhop hawaits executor => exact .dropped hop hhop (hphase.trans hawaits) executor

variable (hcallback : (d.requests (d.inferences id).request).callback = (e.requests (e.inferences id).request).callback)
include hcallback

theorem Due.congr {work : Work} (hdue : e.Due id work) : d.Due id work := by
  cases hdue with
  | finish hawaits => exact .finish (hphase.trans hawaits)
  | notify callback result hc hresult hsome =>
    exact .notify callback result (hc.congr hphase) hresult (hcallback.trans hsome)

theorem Settles.congr {result : InferResult} {notice : Option Notice} (htripped : d.isTripped id = e.isTripped id)
    (hs : e.Settles id result notice) : d.Settles id result notice := by
  cases hs with
  | cancelled hop reply hhop hawaits hyes executor =>
    exact .cancelled hop reply hhop (hphase.trans hawaits) (htripped.trans hyes) executor
  | gaveUp hc executor => exact .gaveUp (hc.congr hphase) executor
  | unheard _ hc hresult hnone => exact .unheard result (hc.congr hphase) hresult (hcallback.trans hnone)
  | uncalled told callback hc hresult hsome hyes =>
    exact .uncalled told callback (hc.congr hphase) hresult (hcallback.trans hsome) (htripped.trans hyes)
  | told _ hawaits => exact .told result (hphase.trans hawaits)
  | untold hawaits executor => exact .untold (hphase.trans hawaits) executor
  | unawaited reply hawaits hyes => exact .unawaited reply (hphase.trans hawaits) (htripped.trans hyes)

end

/-! ## What is read but the tokens -/

section

variable {e d : Engine σ} (h : d.blank = e.blank)
include h

theorem started_of_blank : d.started = e.started := by
  show d.blank.started = e.blank.started
  rw [h]

theorem executors_of_blank : d.executors = e.executors := by
  show d.blank.executors = e.blank.executors
  rw [h]

theorem phase_of_blank (i : InferenceId) : (d.inferences i).phase = (e.inferences i).phase := by
  show (d.blank.inferences i).phase = (e.blank.inferences i).phase
  rw [h]

theorem request_of_blank (i : InferenceId) : (d.inferences i).request = (e.inferences i).request := by
  show (d.blank.inferences i).request = (e.blank.inferences i).request
  rw [h]

theorem inFlight_of_blank (rid : RequestId) : (d.requests rid).inFlight = (e.requests rid).inFlight := by
  show (d.blank.requests rid).inFlight = (e.blank.requests rid).inFlight
  rw [h]

theorem callback_of_blank (rid : RequestId) : (d.requests rid).callback = (e.requests rid).callback := by
  show (d.blank.requests rid).callback = (e.blank.requests rid).callback
  rw [h]

theorem home_of_blank (t : Task) : d.home t = e.home t := by rw [← home_blank, h, home_blank]

theorem task_of_blank (id : InferenceId) (work : Work) : d.task id work = e.task id work := by
  rw [task, task, request_of_blank h]

theorem active_of_blank (rid : RequestId) (i : InferenceId) : d.Active rid i ↔ e.Active rid i := by
  rw [Active, Active, started_of_blank h, request_of_blank h, phase_of_blank h]

theorem registered_of_blank (id : InferenceId) :
    (d.requests (d.inferences id).request).callback = (e.requests (e.inferences id).request).callback := by
  rw [request_of_blank h, callback_of_blank h]

theorem due_of_blank {id : InferenceId} {work : Work} (hdue : e.Due id work) : d.Due id work :=
  hdue.congr (phase_of_blank h id) (registered_of_blank h id)

theorem settles_of_blank {id : InferenceId} {result : InferResult} {notice : Option Notice}
    (htripped : d.isTripped id = e.isTripped id) (hs : e.Settles id result notice) : d.Settles id result notice :=
  hs.congr (phase_of_blank h id) (registered_of_blank h id) htripped

theorem takeTask_of_blank {x : ExecutorId} {position : Nat} {t : Task} {rest : Engine σ}
    (htake : e.takeTask x position = some (t, rest)) :
    ∃ rest', d.takeTask x position = some (t, rest') ∧ rest'.blank = rest.blank := by
  have hexecutors := executors_of_blank h
  unfold takeTask at htake ⊢
  obtain ⟨t', ht, heq⟩ := Option.map_eq_some_iff.mp htake
  cases heq
  rw [hexecutors]
  refine ⟨_, Option.map_eq_some_iff.mpr ⟨t, ht, rfl⟩, ?_⟩
  show d.blank.setExecutor x _ = e.blank.setExecutor x _
  rw [h]

end

/-! ## Twins -/

/-- The engines differ in their tokens only, and no active inference sees a difference. -/
structure Twins (e d : Engine σ) : Prop where
  blank : d.blank = e.blank
  tripped : ∀ rid i, e.Active rid i → d.isTripped i = e.isTripped i

variable {stages : RequestId → Stages σ} {allowed : Step σ → Prop} {c c' : Engine σ × Option Task}

theorem Twins.move {d : Engine σ} (h : Twins c.1 d) (hm : Move stages c c') :
    ∃ d', Move stages (d, c.2) (d', c'.2) ∧ d'.blank = c'.1.blank := by
  have hblank := h.blank
  cases hm with
  | take htake =>
    obtain ⟨rest, htake', hrest⟩ := takeTask_of_blank hblank htake
    exact ⟨rest, .take htake', hrest⟩
  | @queue e t hkind =>
    refine ⟨d.queued t, .queue ?_, by rw [blank_queued, hblank, ← blank_queued]⟩
    rw [home_of_blank hblank, executors_of_blank hblank]
    exact hkind
  | @count e t =>
    refine ⟨d.counted (d.home t), .count, ?_⟩
    rw [home_of_blank hblank, blank_counted, hblank, ← blank_counted]
  | @lose e t hkind =>
    refine ⟨d.dropTask t, .lose ?_, ?_⟩
    · rw [home_of_blank hblank, executors_of_blank hblank]
      exact hkind
    · rw [dropTask, dropTask, blank_answer, hblank, ← blank_answer]
  | @run e t =>
    refine ⟨(d.runTask stages t).1, .run, ?_⟩
    rw [blank_runTask, hblank, ← blank_runTask]
  | @busy e id hid hphase hflight =>
    refine ⟨_, .busy (started_of_blank hblank ▸ hid) ((phase_of_blank hblank id).trans hphase) ?_, ?_⟩
    · rw [request_of_blank hblank, inFlight_of_blank hblank]
      exact hflight
    · rw [blank_note, blank_setPhase, hblank, ← blank_setPhase, ← blank_note]
  | @begin e id hid hphase hflight =>
    refine ⟨(d.taken id).handed id .start, ?_, ?_⟩
    · rw [← task_of_blank hblank]
      refine .begin (started_of_blank hblank ▸ hid) ((phase_of_blank hblank id).trans hphase) ?_
      rw [request_of_blank hblank, inFlight_of_blank hblank]
      exact hflight
    · rw [blank_handed, blank_taken, hblank, ← blank_taken, ← blank_handed]
  | @hand e id work hid hdue htripped =>
    obtain ⟨hop, reply, -, hphase⟩ := Sound.due_awaiting hdue
    have hactive : e.Active (e.inferences id).request id := active_of_awaiting hid hphase
    refine ⟨d.handed id work, ?_, by rw [blank_handed, hblank, ← blank_handed]⟩
    rw [← task_of_blank hblank]
    exact .hand (started_of_blank hblank ▸ hid) (due_of_blank hblank hdue)
      ((h.tripped _ id hactive).trans htripped)
  | @settle e id result notice hid hs =>
    have hactive : e.Active (e.inferences id).request id := ⟨hid, rfl, hs.isActive⟩
    refine ⟨(d.logged id notice).settle id result, .settle (started_of_blank hblank ▸ hid)
      (settles_of_blank hblank (h.tripped _ id hactive) hs), ?_⟩
    rw [settle, settle, blank_finish, blank_logged, hblank, ← blank_logged, ← blank_finish]
  | @breakOff e id hop hid hphase =>
    refine ⟨d.finish id .panicked, .breakOff (started_of_blank hblank ▸ hid)
      ((phase_of_blank hblank id).trans hphase), ?_⟩
    rw [blank_finish, hblank, ← blank_finish]

theorem blank_step {e d : Engine σ} (h : d.blank = e.blank) {s : Step σ} (hcall : s.IsCall) :
    (d.step stages s).blank = (e.step stages s).blank := by
  cases s with
  | poll id preferReply => exact hcall.elim
  | runQueued x position => exact hcall.elim
  | infer rid =>
    show (d.infer rid).blank = (e.infer rid).blank
    rw [blank_infer, h, ← blank_infer]
  | cancel rid =>
    show (d.cancel rid).blank = (e.cancel rid).blank
    rw [blank_cancel, h, ← blank_cancel]
  | setCallback rid callback =>
    show (d.setCallback rid callback).blank = (e.setCallback rid callback).blank
    rw [blank_setCallback, h, ← blank_setCallback]
  | dropQueued x position =>
    show (d.dropQueued x position).blank = (e.dropQueued x position).blank
    rw [blank_dropQueued, h, ← blank_dropQueued]
  | abandon id =>
    simp only [step, started_of_blank h]
    split
    · rw [blank_abandon, h, ← blank_abandon]
    · exact h
  | access rid change =>
    have hpoisoned : (d.requests rid).poisoned = (e.requests rid).poisoned := by
      show (d.blank.requests rid).poisoned = (e.blank.requests rid).poisoned
      rw [h]
    have hstate : d.state = e.state := by
      show d.blank.state = e.blank.state
      rw [h]
    simp only [step, access, hpoisoned, hstate]
    split
    · exact h
    · show { d.blank with state := change e.state } = { e.blank with state := change e.state }
      rw [h]

theorem step_tokens_alike {s : Step σ} (hcall : s.IsCall) (e d : Engine σ) (rid : RequestId) :
    KeepsTokens rid e (e.step stages s) ∧ KeepsTokens rid d (d.step stages s) ∨
      Trips rid e (e.step stages s) ∧ Trips rid d (d.step stages s) := by
  by_cases hcancels : s = .cancel rid
  · subst hcancels
    right
    simp [Trips, step, cancel, setRequest]
  · left
    exact ⟨(step_tokens hcall e rid).resolve_right fun h' => hcancels h'.1,
      (step_tokens hcall d rid).resolve_right fun h' => hcancels h'.1⟩

/-- Tokens change alike, so that an active inference sees no difference after the turn either. -/
theorem Twins.next {x x' : Engine σ × Option Task} (h : Twins c.1 x.1) (hs : Sound c.1 c.2) (hs' : Sound x.1 x.2)
    (hm : Marked c.1) (hm' : Marked x.1) (ht : Turn stages allowed c c') (ht' : Turn stages allowed x x')
    (hblank : x'.1.blank = c'.1.blank)
    (halike : ∀ rid, KeepsTokens rid c.1 c'.1 ∧ KeepsTokens rid x.1 x'.1 ∨
      Trips rid c.1 c'.1 ∧ Trips rid x.1 x'.1) :
    Twins c'.1 x'.1 := by
  refine ⟨hblank, fun rid i hactive => ?_⟩
  have hactive' : x'.1.Active rid i := (active_of_blank hblank rid i).mpr hactive
  have hseen : c'.1.isTripped i = true ↔ (c'.1.inferences i).token ∈ (c'.1.requests rid).tripped := by
    rw [isTripped_iff, hactive.2.1]
  have hseen' : x'.1.isTripped i = true ↔ (x'.1.inferences i).token ∈ (x'.1.requests rid).tripped := by
    rw [isTripped_iff, hactive'.2.1]
  rw [Bool.eq_iff_iff, hseen, hseen']
  have hphase := phase_of_blank h.blank i
  rcases ht.active hs hactive with ⟨hold, htoken⟩ | ⟨hcreated, htoken⟩
  · rcases ht'.active hs' hactive' with ⟨hold', htoken'⟩ | ⟨hcreated', -⟩
    · have hsame := h.tripped rid i hold
      rw [Bool.eq_iff_iff, isTripped_iff, isTripped_iff, hold.2.1, hold'.2.1] at hsame
      rw [htoken, htoken']
      rcases halike rid with ⟨hkept, hkept'⟩ | ⟨htrips, htrips'⟩
      · rw [hkept.2, hkept'.2]
        exact hsame
      · -- Cancelling trips the token of whoever is active, in both engines.
        have hnow : (c.1.inferences i).token ∈ (c'.1.requests rid).tripped := by
          rw [htrips.2]
          exact List.mem_cons.mpr (hm rid i hold)
        have hnow' : (x.1.inferences i).token ∈ (x'.1.requests rid).tripped := by
          rw [htrips'.2]
          exact List.mem_cons.mpr (hm' rid i hold')
        exact ⟨fun _ => hnow, fun _ => hnow'⟩
    · exact absurd (hphase.symm.trans hcreated') hold.ne_created
  · rcases ht'.active hs' hactive' with ⟨hold', -⟩ | ⟨-, htoken'⟩
    · exact absurd (hphase.trans hcreated) hold'.ne_created
    · rw [htoken, htoken']
      rcases halike rid with ⟨hkept, hkept'⟩ | ⟨htrips, htrips'⟩
      · rw [hkept.2, hkept'.2]
        exact ⟨fun hmem => absurd hmem (hs'.token_fresh rid), fun hmem => absurd hmem (hs.token_fresh rid)⟩
      · rw [htrips.2, htrips'.2]
        exact ⟨fun _ => List.mem_cons_self, fun _ => List.mem_cons_self⟩

theorem Twins.turn {x : Engine σ × Option Task} (h : Twins c.1 x.1) (hhand : x.2 = c.2) (hs : Sound c.1 c.2)
    (hs' : Sound x.1 x.2) (hm : Marked c.1) (hm' : Marked x.1) (ht : Turn stages allowed c c') :
    ∃ x', Turn stages allowed x x' ∧ Twins c'.1 x'.1 ∧ x'.2 = c'.2 := by
  obtain ⟨d, hand⟩ := x
  cases hhand
  cases ht with
  | move hmove =>
    obtain ⟨d', hmove', hblank⟩ := h.move hmove
    have hturn : Turn stages allowed c c' := .move hmove
    have hturn' : Turn stages allowed (d, c.2) (d', c'.2) := .move hmove'
    exact ⟨(d', c'.2), hturn', h.next hs hs' hm hm' hturn hturn' hblank fun rid =>
      .inl ⟨hmove.keepsTokens rid, hmove'.keepsTokens rid⟩, rfl⟩
  | @defer e t =>
    have hblank : (d.queued t).blank = (e.queued t).blank := by rw [blank_queued, h.blank, ← blank_queued]
    have hturn : Turn stages allowed (e, some t) (e.queued t, none) := .defer
    have hturn' : Turn stages allowed (d, some t) (d.queued t, none) := .defer
    exact ⟨_, hturn', h.next hs hs' hm hm' hturn hturn' hblank fun rid => .inl ⟨⟨rfl, rfl⟩, ⟨rfl, rfl⟩⟩, rfl⟩
  | @call e s hcall hallowed =>
    have hturn : Turn stages allowed (e, none) (e.step stages s, none) := .call hcall hallowed
    have hturn' : Turn stages allowed (d, none) (d.step stages s, none) := .call hcall hallowed
    exact ⟨_, hturn', h.next hs hs' hm hm' hturn hturn' (blank_step h.blank hcall) (step_tokens_alike hcall e d), rfl⟩

/-- Whatever one engine comes to by turns, its twin comes to as well, but for the tokens. -/
theorem twins_turns {x : Engine σ × Option Task} (h : Twins c.1 x.1) (hhand : x.2 = c.2) (hc : Visited stages c)
    (hx : Visited stages x) (ht : Turns stages allowed c c') :
    ∃ x', Turns stages allowed x x' ∧ Twins c'.1 x'.1 ∧ x'.2 = c'.2 := by
  induction ht with
  | refl => exact ⟨x, .refl, h, hhand⟩
  | tail hbefore hturn ih =>
    obtain ⟨y, hy, htwins, hhand'⟩ := ih
    have hc' := hc.turns hbefore
    have hy' := hx.turns hy
    obtain ⟨z, hz, hnext, hhand''⟩ := htwins.turn hhand' hc'.sound hy'.sound hc'.marked hy'.marked hturn
    exact ⟨z, hy.tail hz, hnext, hhand''⟩

theorem Twins.symm {e d : Engine σ} (h : Twins e d) : Twins d e :=
  ⟨h.blank.symm, fun rid i hactive => (h.tripped rid i ((active_of_blank h.blank rid i).mp hactive)).symm⟩

/-! ## Polling twins -/

/-- Moves neither trip tokens nor change those of inferences that have begun. -/
theorem isTripped_moves {j : InferenceId} (hj : j < c.1.started) (hbegun : (c.1.inferences j).phase ≠ .created)
    (hm : Moves stages c c') : c'.1.isTripped j = c.1.isTripped j := by
  have hall : (c'.1.inferences j).phase ≠ .created ∧ c'.1.started = c.1.started ∧
      c'.1.isTripped j = c.1.isTripped j := by
    induction hm with
    | refl => exact ⟨hbegun, rfl, rfl⟩
    | tail _ hmove ih =>
      obtain ⟨hphase, hstarted, htripped⟩ := ih
      have hturn : Turn stages (fun _ => True) _ _ := .move hmove
      obtain ⟨more, -, hpart⟩ := hturn.part j
      obtain ⟨hphase', htoken⟩ := hpart.begun (hstarted ▸ hj) hphase
      refine ⟨hphase', hmove.inferences.1.trans hstarted, Eq.trans ?_ htripped⟩
      rw [Bool.eq_iff_iff, isTripped_iff, isTripped_iff, htoken, hmove.inferences.2,
        (hmove.keepsTokens _).2]
  exact hall.2.2

theorem runTask_snd_blank (stages : RequestId → Stages σ) (e : Engine σ) (t : Task) :
    (e.blank.runTask stages t).2 = (e.runTask stages t).2 := by
  have hstages (stages : Stages σ) (order : List InferStage) :
      (runStages stages order e.blank t).2 = (runStages stages order e t).2 := by
    cases hpoisoned : (e.requests t.request).poisoned with
    | true =>
      have hblank : (e.blank.requests t.request).poisoned = true := hpoisoned
      rw [runStages_poisoned stages order hpoisoned, runStages_poisoned stages order hblank]
    | false =>
      have hblank : (e.blank.requests t.request).poisoned = false := hpoisoned
      generalize hrun : stages.runEach order e.state = run
      obtain ⟨outcome, state⟩ := run
      have hrun' : stages.runEach order e.blank.state = (outcome, state) := hrun
      rw [runStages_eq stages order hpoisoned hrun, runStages_eq stages order hblank hrun']
      cases outcome <;> rfl
  unfold runTask
  split
  · exact hstages _ _
  · exact hstages _ _
  · simp only
    split <;> rfl

theorem blank_submit (stages : RequestId → Stages σ) (e : Engine σ) (x : ExecutorId) (t : Task) :
    (e.submit stages x t).1.blank = (e.blank.submit stages x t).1 ∧
      (e.blank.submit stages x t).2 = (e.submit stages x t).2 := by
  have hsame : e.blank.executors x = e.executors x := rfl
  let noted := e.note (.submitted t.inference t.work.hop x)
  unfold submit
  simp only [hsame]
  split
  · exact ⟨blank_runTask stages noted t, runTask_snd_blank stages noted t⟩
  · exact ⟨blank_runTask stages (noted.counted x) t, runTask_snd_blank stages (noted.counted x) t⟩
  · exact ⟨rfl, rfl⟩
  · exact ⟨rfl, rfl⟩
  · exact ⟨blank_answer _ t .dropped, rfl⟩

theorem conclude_cancelled (e : Engine σ) (id : InferenceId) (preferReply : Bool) :
    e.conclude stages preferReply id (.error .cancelled) =
      (e.note (.logged id (.inferenceCancelled
        (e.executors (e.requests (e.inferences id).request).taskExecutor).name))).settle id (.error .cancelled) := rfl

theorem conclude_of_ne {e : Engine σ} {id : InferenceId} {result : InferResult} (hne : result ≠ .error .cancelled)
    (preferReply : Bool) :
    e.conclude stages preferReply id result =
      match (e.requests (e.inferences id).request).callback with
      | none => (e.note (.logged id (.inferenceCompleted result.isOk))).settle id result
      | some callback =>
        match e.handOver stages id (.notify callback result) with
        | .refused => e.settle id (.error .cancelled)
        | .brokeOff e => e
        | .waiting e => e.afterNotify preferReply id := by
  unfold conclude
  simp only
  split
  · rename_i h'
    cases h'
  · rfl

theorem note_of_blank {e d : Engine σ} (h : d.blank = e.blank) (happening : Happening) :
    (d.note happening).blank = (e.note happening).blank := by
  rw [blank_note, h, ← blank_note]

theorem settle_of_blank {e d : Engine σ} (h : d.blank = e.blank) (id : InferenceId) (result : InferResult) :
    (d.settle id result).blank = (e.settle id result).blank := by
  rw [settle, settle, blank_finish, h, ← blank_finish]

section

variable {e d : Engine σ} (h : d.blank = e.blank) {id : InferenceId} (htripped : d.isTripped id = e.isTripped id)
include h htripped

theorem look_of_blank (preferReply : Bool) : d.look preferReply id = e.look preferReply id := by
  have hexecutor (rid : RequestId) (hop : Hop) : (d.requests rid).executor hop = (e.requests rid).executor hop := by
    have hblank (e : Engine σ) : (e.blank.requests rid).executor hop = (e.requests rid).executor hop := by
      cases hop <;> rfl
    rw [← hblank, h, hblank]
  unfold look
  simp only [phase_of_blank h, htripped, executors_of_blank h, request_of_blank h, hexecutor]

theorem afterNotify_of_blank (preferReply : Bool) :
    (d.afterNotify preferReply id).blank = (e.afterNotify preferReply id).blank := by
  unfold afterNotify
  rw [look_of_blank h htripped, phase_of_blank h]
  split
  · exact h
  · exact settle_of_blank h id _
  · split
    · exact settle_of_blank (note_of_blank h _) id _
    · exact settle_of_blank h id _

end

/-- Whoever waits for a task that it has just handed over is not stopped. -/
theorem handOver_untripped {e e' : Engine σ} {id : InferenceId} (hid : id < e.started) {work : Work}
    (heq : e.handOver stages id work = .waiting e') : e'.isTripped id = false ∧ id < e'.started := by
  have hhand := handOver_moves stages e id work
  rw [heq] at hhand
  obtain ⟨htripped, hmoves, hstarted, -⟩ := hhand
  have hphase : ((e.handed id work).inferences id).phase ≠ .created := by simp [handed, note]
  have hsame : (e.handed id work).isTripped id = e.isTripped id := by
    simp [isTripped, handed, note, setPhase, setInference]
  refine ⟨?_, hstarted ▸ hid⟩
  rw [isTripped_moves (c := (e.handed id work, some (e.task id work))) hid hphase hmoves]
  exact hsame.trans htripped

inductive HandedAlike (id : InferenceId) : HandedOver σ → HandedOver σ → Prop
  | refused : HandedAlike id .refused .refused
  | waiting {e d : Engine σ} (hblank : d.blank = e.blank) (hid : id < e.started)
      (htripped : d.isTripped id = e.isTripped id) : HandedAlike id (.waiting e) (.waiting d)
  | brokeOff {e d : Engine σ} (hblank : d.blank = e.blank) : HandedAlike id (.brokeOff e) (.brokeOff d)

section

variable {e d : Engine σ} (h : d.blank = e.blank) {id : InferenceId} (hid : id < e.started)
  (htripped : d.isTripped id = e.isTripped id)
include h hid htripped

theorem handOver_of_blank (stages : RequestId → Stages σ) (work : Work) :
    HandedAlike id (e.handOver stages id work) (d.handOver stages id work) := by
  have hphase : (d.setPhase id (.awaiting work.hop .waiting)).blank =
      (e.setPhase id (.awaiting work.hop .waiting)).blank := by
    rw [blank_setPhase, h, ← blank_setPhase]
  by_cases hyes : e.isTripped id = true
  · rw [handOver_eq, handOver_eq, if_pos hyes, if_pos (htripped.trans hyes)]
    exact .refused
  · have hno : ¬ d.isTripped id = true := htripped ▸ hyes
    have he := handOver_eq stages e id work
    have hd := handOver_eq stages d id work
    rw [if_neg hyes] at he
    rw [if_neg hno, home_of_blank h, task_of_blank h] at hd
    obtain ⟨hfst, hsnd⟩ := blank_submit stages (e.setPhase id (.awaiting work.hop .waiting))
      (e.home (e.task id work)) (e.task id work)
    obtain ⟨hfst', hsnd'⟩ := blank_submit stages (d.setPhase id (.awaiting work.hop .waiting))
      (e.home (e.task id work)) (e.task id work)
    rw [hphase, ← hfst] at hfst'
    rw [hphase, hsnd] at hsnd'
    generalize (e.setPhase id (.awaiting work.hop .waiting)).submit stages (e.home (e.task id work))
      (e.task id work) = submitted at he hfst' hsnd'
    generalize (d.setPhase id (.awaiting work.hop .waiting)).submit stages (e.home (e.task id work))
      (e.task id work) = submitted' at hd hfst' hsnd'
    obtain ⟨e', broke⟩ := submitted
    obtain ⟨d', broke'⟩ := submitted'
    cases hsnd'
    cases broke with
    | false =>
      obtain ⟨huntripped, hid'⟩ := handOver_untripped hid he
      obtain ⟨huntripped', -⟩ := handOver_untripped (started_of_blank h ▸ hid) hd
      rw [he, hd]
      exact .waiting hfst' hid' (huntripped'.trans huntripped.symm)
    | true =>
      rw [he, hd]
      refine .brokeOff ?_
      rw [blank_finish, blank_finish]
      exact congrArg (finish · id .panicked) hfst'

theorem conclude_of_blank (preferReply : Bool) (result : InferResult) :
    (d.conclude stages preferReply id result).blank = (e.conclude stages preferReply id result).blank := by
  by_cases hcancelled : result = .error .cancelled
  · subst hcancelled
    have hname : (d.requests (d.inferences id).request).taskExecutor =
        (e.requests (e.inferences id).request).taskExecutor := by
      show (d.blank.requests (d.blank.inferences id).request).taskExecutor =
        (e.blank.requests (e.blank.inferences id).request).taskExecutor
      rw [h]
    rw [conclude_cancelled, conclude_cancelled, executors_of_blank h, hname]
    exact settle_of_blank (note_of_blank h _) id _
  · rw [conclude_of_ne hcancelled, conclude_of_ne hcancelled, request_of_blank h, callback_of_blank h]
    cases (e.requests (e.inferences id).request).callback with
    | none => exact settle_of_blank (note_of_blank h _) id _
    | some callback =>
      have hpair := handOver_of_blank h hid htripped stages (.notify callback result)
      simp only
      generalize e.handOver stages id (.notify callback result) = handed at hpair
      generalize d.handOver stages id (.notify callback result) = handed' at hpair
      cases hpair with
      | refused => exact settle_of_blank h id _
      | waiting hblank _ hsame => exact afterNotify_of_blank hblank hsame preferReply
      | brokeOff hblank => exact hblank

theorem afterFinish_of_blank (preferReply : Bool) :
    (d.afterFinish stages preferReply id).blank = (e.afterFinish stages preferReply id).blank := by
  unfold afterFinish
  rw [look_of_blank h htripped]
  split
  · exact h
  · exact conclude_of_blank h hid htripped preferReply _
  · exact conclude_of_blank h hid htripped preferReply _

theorem afterStart_of_blank (preferReply : Bool) :
    (d.afterStart stages preferReply id).blank = (e.afterStart stages preferReply id).blank := by
  unfold afterStart
  rw [look_of_blank h htripped]
  split
  · exact h
  · exact conclude_of_blank h hid htripped preferReply _
  · exact conclude_of_blank h hid htripped preferReply _
  · have hpair := handOver_of_blank h hid htripped stages .finish
    generalize e.handOver stages id .finish = handed at hpair
    generalize d.handOver stages id .finish = handed' at hpair
    cases hpair with
    | refused => exact conclude_of_blank h hid htripped preferReply _
    | waiting hblank hid' hsame => exact afterFinish_of_blank hblank hid' hsame preferReply
    | brokeOff hblank => exact hblank

end

theorem begin_of_free {e : Engine σ} {id : InferenceId}
    (hfree : (e.requests (e.inferences id).request).inFlight = false) (preferReply : Bool) :
    e.begin stages preferReply id =
      match (e.taken id).handOver stages id .start with
      | .refused => (e.taken id).conclude stages preferReply id (.error .cancelled)
      | .brokeOff e => e
      | .waiting e => e.afterStart stages preferReply id := by
  unfold begin
  simp only [hfree]
  rfl

section

variable {e d : Engine σ} (h : Twins e d) (hs : Sound e none) (hs' : Sound d none)
include h hs hs'

theorem begin_of_twins {id : InferenceId} (hid : id < e.started) (preferReply : Bool) :
    (d.begin stages preferReply id).blank = (e.begin stages preferReply id).blank := by
  have hblank := h.blank
  have hflight' : (d.requests (d.inferences id).request).inFlight =
      (e.requests (e.inferences id).request).inFlight := by
    rw [request_of_blank hblank, inFlight_of_blank hblank]
  cases hflight : (e.requests (e.inferences id).request).inFlight with
  | true =>
    rw [begin_of_busy stages hflight, begin_of_busy stages (hflight'.trans hflight)]
    refine note_of_blank ?_ _
    rw [blank_setPhase, hblank, ← blank_setPhase]
  | false =>
    have htaken : (d.taken id).blank = (e.taken id).blank := by rw [blank_taken, hblank, ← blank_taken]
    have htripped : (d.taken id).isTripped id = (e.taken id).isTripped id :=
      (isTripped_taken (hs'.token_fresh _)).trans (isTripped_taken (hs.token_fresh _)).symm
    have hpair := handOver_of_blank htaken hid htripped stages .start
    rw [begin_of_free hflight, begin_of_free (hflight'.trans hflight)]
    generalize (e.taken id).handOver stages id .start = handed at hpair
    generalize (d.taken id).handOver stages id .start = handed' at hpair
    cases hpair with
    | refused => exact conclude_of_blank htaken hid htripped preferReply _
    | waiting hblank' hid' hsame => exact afterStart_of_blank hblank' hid' hsame preferReply
    | brokeOff hblank' => exact hblank'

theorem poll_of_twins {id : InferenceId} (hid : id < e.started) (preferReply : Bool) :
    (d.poll stages preferReply id).blank = (e.poll stages preferReply id).blank := by
  have hblank := h.blank
  have hactive {hop : Hop} {reply : Reply} (hphase : (e.inferences id).phase = .awaiting hop reply) :
      d.isTripped id = e.isTripped id :=
    h.tripped _ id (active_of_awaiting hid hphase)
  unfold poll
  rw [phase_of_blank hblank]
  split
  · exact begin_of_twins h hs hs' hid preferReply
  · rename_i hphase
    exact afterStart_of_blank hblank hid (hactive hphase) preferReply
  · rename_i hphase
    exact afterFinish_of_blank hblank hid (hactive hphase) preferReply
  · rename_i hphase
    exact afterNotify_of_blank hblank (hactive hphase) preferReply
  · exact hblank

end

/-- Whoever becomes active by moves has a token that is not tripped. -/
theorem isTripped_of_begun (hs : Sound c.1 c.2) {rid : RequestId} {i : InferenceId} (hm : Moves stages c c')
    (hbefore : ¬ c.1.Active rid i) (hafter : c'.1.Active rid i) : c'.1.isTripped i = false := by
  induction hm with
  | refl => exact absurd hafter hbefore
  | @tail m m' hmoves hmove ih =>
    have hturn : Turn stages (fun _ => True) m m' := .move hmove
    by_cases hactive : m.1.Active rid i
    · rw [isTripped_moves hactive.1 hactive.ne_created (.single hmove)]
      exact ih hactive
    · rcases hturn.active (hs.moves hmoves) hafter with ⟨hold, -⟩ | ⟨-, htoken⟩
      · exact absurd hold hactive
      · rw [Bool.eq_false_iff]
        intro htripped
        rw [isTripped_iff, hafter.2.1, htoken, (hmove.keepsTokens rid).2] at htripped
        exact (hs.moves hmoves).token_fresh rid htripped

/-- Moves of twins that lead to the same but for the tokens lead to twins. -/
theorem Twins.moves {x x' : Engine σ × Option Task} (h : Twins c.1 x.1) (hs : Sound c.1 c.2) (hs' : Sound x.1 x.2)
    (hm : Moves stages c c') (hm' : Moves stages x x') (hblank : x'.1.blank = c'.1.blank) : Twins c'.1 x'.1 := by
  refine ⟨hblank, fun rid i hafter => ?_⟩
  have hafter' : x'.1.Active rid i := (active_of_blank hblank rid i).mpr hafter
  by_cases hbefore : c.1.Active rid i
  · have hbefore' : x.1.Active rid i := (active_of_blank h.blank rid i).mpr hbefore
    rw [isTripped_moves hbefore.1 hbefore.ne_created hm, isTripped_moves hbefore'.1 hbefore'.ne_created hm']
    exact h.tripped rid i hbefore
  · have hbefore' : ¬ x.1.Active rid i := fun hold => hbefore ((active_of_blank h.blank rid i).mp hold)
    rw [isTripped_of_begun hs hm hbefore hafter, isTripped_of_begun hs' hm' hbefore' hafter']

theorem Twins.step {e d : Engine σ} (h : Twins e d) (hs : Sound e none) (hs' : Sound d none) (hm : Marked e)
    (hm' : Marked d) (s : Step σ) : Twins (e.step stages s) (d.step stages s) := by
  have hblank := h.blank
  by_cases hcall : s.IsCall
  · have hturn : Turn stages (fun _ => True) (e, none) (e.step stages s, none) := .call hcall trivial
    have hturn' : Turn stages (fun _ => True) (d, none) (d.step stages s, none) := .call hcall trivial
    exact h.next hs hs' hm hm' hturn hturn' (blank_step hblank hcall) (step_tokens_alike hcall e d)
  · cases s with
    | poll id preferReply =>
      simp only [Engine.step, started_of_blank hblank]
      split
      · rename_i hid
        exact h.moves (c := (e, none)) (x := (d, none)) hs hs' (poll_moves stages hid (hs.token_fresh _) preferReply)
          (poll_moves stages (started_of_blank hblank ▸ hid) (hs'.token_fresh _) preferReply)
          (poll_of_twins h hs hs' hid preferReply)
      · exact h
    | runQueued x position =>
      refine h.moves (c := (e, none)) (x := (d, none)) hs hs' (runQueued_moves stages e x position)
        (runQueued_moves stages d x position) ?_
      show (d.runQueued stages x position).1.blank = (e.runQueued stages x position).1.blank
      unfold runQueued
      cases htake : e.takeTask x position with
      | none =>
        cases htake' : d.takeTask x position with
        | none => exact hblank
        | some taken =>
          obtain ⟨rest, hsome, -⟩ := takeTask_of_blank hblank.symm htake'
          rw [htake] at hsome
          cases hsome
      | some taken =>
        obtain ⟨rest, htake', hrest⟩ := takeTask_of_blank hblank htake
        simp only [htake']
        rw [blank_runTask, hrest, ← blank_runTask]
    | _ => exact absurd trivial hcall

/-- Twins stay twins whatever is done to both of them. -/
theorem Twins.steps {e d : Engine σ} (h : Twins e d) (he : Visited stages (e, none)) (hd : Visited stages (d, none))
    (history : List (Step σ)) : Twins (e.steps stages history) (d.steps stages history) := by
  induction history generalizing e d with
  | nil => exact h
  | cons s history ih =>
    have hnext (e : Engine σ) (he : Visited stages (e, none)) : Visited stages (e.step stages s, none) := by
      have hturns : Turns stages (fun _ => True) (e, none) (e.step stages s, none) := step_turns he.sound trivial
      exact he.turns hturns
    exact ih (h.step he.sound hd.sound he.marked hd.marked s) (hnext e he) (hnext d hd)

end Engine

end DevicePlugin
