import DevicePlugin.Proofs.Request.Part
import DevicePlugin.Session.Step

/-!
# States that are unusable

A stage that breaks off leaves the state of its request unusable, and so it stays:
no stage of the request runs again, and nothing of the state can be read or changed.
-/

namespace DevicePlugin

namespace Engine

variable {σ : Type} {stages : RequestId → Stages σ} {allowed : Step σ → Prop} {c c' : Engine σ × Option Task}

def Unrun (rid : RequestId) (more : List Happening) : Prop :=
  ∀ i hop outcome, .ran rid i hop outcome ∉ more

theorem Unrun.append {rid : RequestId} {trace more : List Happening} (h : Unrun rid trace) (hmore : Unrun rid more) :
    Unrun rid (trace ++ more) := by
  intro i hop outcome hmem
  rcases List.mem_append.mp hmem with hmem | hmem
  · exact h i hop outcome hmem
  · exact hmore i hop outcome hmem

theorem unrun_nil (rid : RequestId) : Unrun rid [] := fun _ _ _ => List.not_mem_nil

theorem unrun_ended (rid : RequestId) (id : InferenceId) (notice : Option Notice) :
    Unrun rid ((notice.map (.logged id)).toList ++ [.ended id]) := by
  cases notice <;> simp [Unrun]

theorem poisoned_setRequest (e : Engine σ) (id : RequestId) {r : AsyncRequest}
    (hr : (e.requests id).poisoned = true → r.poisoned = true) {rid : RequestId}
    (h : (e.requests rid).poisoned = true) : ((e.setRequest id r).requests rid).poisoned = true := by
  simp only [setRequest]
  split
  · rename_i hid
    subst hid
    exact hr h
  · exact h

theorem poisoned_finish (e : Engine σ) (id : InferenceId) (phase : Phase) {rid : RequestId}
    (h : (e.requests rid).poisoned = true) : ((e.finish id phase).requests rid).poisoned = true := by
  refine poisoned_setRequest (e.setPhase id phase) (e.inferences id).request ?_ h
  exact fun hold => hold

theorem poisoned_answer (e : Engine σ) (t : Task) (reply : Reply) (rid : RequestId) :
    ((e.answer t reply).requests rid).poisoned = (e.requests rid).poisoned := by
  rw [answer_eq]
  rfl

theorem poisoned_runTask (stages : RequestId → Stages σ) (e : Engine σ) (t : Task) {rid : RequestId}
    (h : (e.requests rid).poisoned = true) : ((e.runTask stages t).1.requests rid).poisoned = true := by
  have hstages (stages : Stages σ) (order : List InferStage) :
      ((runStages stages order e t).1.requests rid).poisoned = true := by
    cases hpoisoned : (e.requests t.request).poisoned with
    | true =>
      rw [runStages_poisoned stages order hpoisoned, poisoned_answer]
      exact h
    | false =>
      generalize hrun : stages.runEach order e.state = run
      obtain ⟨outcome, state⟩ := run
      rw [runStages_eq stages order hpoisoned hrun, poisoned_answer]
      cases outcome with
      | ok value => exact h
      | error failure => exact h
      | panic => exact poisoned_setRequest _ t.request (fun _ => rfl) h
  unfold runTask
  split
  · exact hstages _ _
  · exact hstages _ _
  · simp only
    split <;> exact (poisoned_answer _ _ _ _).trans h

/-- A task of an unusable request runs no stages, and tasks of other requests run none of its own. -/
theorem Ends.unrun {stages : Stages σ} {e : Engine σ} {t : Task} {reply : Reply} {more : List Happening} {state : σ}
    (hends : Ends stages e t reply more state) {rid : RequestId} (h : (e.requests rid).poisoned = true) :
    Unrun rid more := by
  cases hends with
  | poisoned hwork hpoisoned => exact unrun_nil rid
  | stages hwork hpoisoned hrun =>
    have hother : rid ≠ t.request := by
      rintro rfl
      rw [h] at hpoisoned
      cases hpoisoned
    simp [Unrun, hother]
  | called hwork hpanics => simp [Unrun]
  | broke hwork hpanics => simp [Unrun]

theorem Move.poisoned (hm : Move stages c c') {rid : RequestId} (h : (c.1.requests rid).poisoned = true) :
    (c'.1.requests rid).poisoned = true ∧ ∃ more, c'.1.trace = c.1.trace ++ more ∧ Unrun rid more := by
  cases hm with
  | take htake =>
    obtain ⟨-, executor, rfl⟩ := takeTask_eq htake
    exact ⟨h, [], (List.append_nil _).symm, unrun_nil rid⟩
  | queue _ => exact ⟨h, [], (List.append_nil _).symm, unrun_nil rid⟩
  | count => exact ⟨h, [], (List.append_nil _).symm, unrun_nil rid⟩
  | @lose e t _ =>
    exact ⟨(poisoned_answer e t .dropped rid).trans h, [],
      (answer_trace e t .dropped).trans (List.append_nil _).symm, unrun_nil rid⟩
  | @run e t =>
    obtain ⟨reply, more, e', hruns, heq⟩ := runTask_runs stages e t
    refine ⟨poisoned_runTask stages e t h, more, ?_, hruns.ends.unrun h⟩
    rw [heq, answer_trace, hruns.trace]
  | @busy e id _ _ _ => exact ⟨h, _, rfl, unrun_ended rid id none⟩
  | @begin e id _ _ _ =>
    refine ⟨poisoned_setRequest e (e.inferences id).request ?_ h, _, rfl, by simp [Unrun]⟩
    exact fun hold => hold
  | hand _ _ _ => exact ⟨h, _, rfl, by simp [Unrun]⟩
  | @settle e id result notice _ _ =>
    have hlogged : ((e.logged id notice).requests rid).poisoned = true := by cases notice <;> exact h
    exact ⟨poisoned_finish _ id _ hlogged, _, logged_finish_trace e id notice _, unrun_ended rid id notice⟩
  | @breakOff e id hop _ _ => exact ⟨poisoned_finish e id _ h, _, rfl, unrun_ended rid id none⟩

theorem Turn.poisoned (ht : Turn stages allowed c c') {rid : RequestId} (h : (c.1.requests rid).poisoned = true) :
    (c'.1.requests rid).poisoned = true ∧ ∃ more, c'.1.trace = c.1.trace ++ more ∧ Unrun rid more := by
  cases ht with
  | move hmove => exact hmove.poisoned h
  | defer => exact ⟨h, [], (List.append_nil _).symm, unrun_nil rid⟩
  | @call e s hcall hallowed =>
    have hdoes := step_does stages e hcall
    generalize e.step stages s = next at hdoes ⊢
    cases hdoes with
    | cancel id =>
      refine ⟨poisoned_setRequest e id ?_ h, [], (List.append_nil _).symm, unrun_nil rid⟩
      exact fun hold => hold
    | setCallback id callback =>
      refine ⟨poisoned_setRequest e id ?_ h, [], (List.append_nil _).symm, unrun_nil rid⟩
      exact fun hold => hold
    | lose htake =>
      obtain ⟨-, executor, rfl⟩ := takeTask_eq htake
      exact ⟨(poisoned_answer _ _ .dropped rid).trans h, [],
        (answer_trace _ _ .dropped).trans (List.append_nil _).symm, unrun_nil rid⟩
    | @giveUp id hid hphase => exact ⟨h, _, rfl, unrun_ended rid id none⟩
    | @leave id hop reply hid hphase => exact ⟨poisoned_finish e id _ h, _, rfl, unrun_ended rid id none⟩
    | _ => exact ⟨h, [], (List.append_nil _).symm, unrun_nil rid⟩

theorem poisoned_turns {rid : RequestId} (h : (c.1.requests rid).poisoned = true) (ht : Turns stages allowed c c') :
    (c'.1.requests rid).poisoned = true ∧ ∃ more, c'.1.trace = c.1.trace ++ more ∧ Unrun rid more := by
  induction ht with
  | refl => exact ⟨h, [], (List.append_nil _).symm, unrun_nil rid⟩
  | tail _ hturn ih =>
    obtain ⟨hpoisoned, before, hbefore, hunrun⟩ := ih
    obtain ⟨hpoisoned', more, hmore, hunrun'⟩ := hturn.poisoned hpoisoned
    exact ⟨hpoisoned', before ++ more, by rw [hmore, hbefore, List.append_assoc], hunrun.append hunrun'⟩

theorem access_of_poisoned {e : Engine σ} {rid : RequestId} (h : (e.requests rid).poisoned = true) {α : Type}
    (f : σ → Except Failure α × σ) : e.access rid f = (.error (.infer .poisoned), e) := by
  unfold access
  rw [if_pos h]

end Engine

/-- Tensors are bound and read in this way, and so is the profile read. -/
theorem Session.State.onRequest_of_poisoned {s : Session.State} {rid : RequestId}
    (h : (s.engine.requests rid).poisoned = true) {step : Session.RequestStep}
    (hstep : (∃ name t, step = .setTensor name (.ok t)) ∨ (∃ name, step = .getTensor name) ∨ step = .profile) :
    s.onRequest (.async rid) step = s.fail (.infer .poisoned) := by
  rcases hstep with ⟨name, t, rfl⟩ | ⟨name, rfl⟩ | rfl <;>
  · simp only [onRequest, accessRequest, Engine.access_of_poisoned h]
    rfl

end DevicePlugin
