import DevicePlugin.Proofs.Request.Own

/-!
# What others do

A request does not see what others do: a task of theirs that runs, and an inference of
theirs that is polled or given up, leave nothing behind in what is left when they are
taken away, even if the task breaks off or the inference is cancelled.
-/

namespace DevicePlugin

namespace Engine

open Shared (stages)

variable {e e' e'' : Engine Shared} {rid : RequestId} {i : InferenceId}

structure Unseen (rid : RequestId) (i : InferenceId) (e e' : Engine Shared) : Prop where
  solo : e'.solo rid = e.solo rid
  request : (e'.inferences i).request = (e.inferences i).request

theorem Unseen.refl (rid : RequestId) (i : InferenceId) (e : Engine Shared) : Unseen rid i e e := ⟨rfl, rfl⟩

theorem Unseen.trans (h : Unseen rid i e e') (h' : Unseen rid i e' e'') : Unseen rid i e e'' :=
  ⟨h'.solo.trans h.solo, h'.request.trans h.request⟩

theorem Unseen.other (h : Unseen rid i e e') (hi : (e.inferences i).request ≠ rid) :
    (e'.inferences i).request ≠ rid := by
  rwa [h.request]

theorem unseen_setRequest (e : Engine Shared) {who : RequestId} (hwho : who ≠ rid) (r : AsyncRequest) :
    Unseen rid i e (e.setRequest who r) := by
  refine ⟨?_, rfl⟩
  have hsame : (e.setRequest who r).requests rid = e.requests rid := if_neg (Ne.symm hwho)
  have hown : (e.setRequest who r).own rid = e.own rid := rfl
  unfold Engine.solo
  rw [hsame, hown]
  rfl

theorem unseen_setExecutor (e : Engine Shared) {x : ExecutorId} {executor : Executor Task}
    (hsame : executor.solo (e.own rid) rid = (e.executors x).solo (e.own rid) rid) :
    Unseen rid i e (e.setExecutor x executor) :=
  ⟨solo_setExecutor_same hsame, rfl⟩

theorem unseen_state (e : Engine Shared) {state : Shared} (hrequest : state.requests rid = e.state.requests rid)
    (hbackend : ∀ p, (state.devices p).map Device.backend = (e.state.devices p).map Device.backend) :
    Unseen rid i e { e with state } := by
  refine ⟨?_, rfl⟩
  rw [solo_state, Shared.solo_congr hrequest hbackend]
  rfl

/-! ## Tasks of others -/

section

variable (hi : (e.inferences i).request ≠ rid)
include hi

theorem not_mem_own : i ∉ e.own rid := fun hmem => hi (mem_own.mp hmem).2

theorem unseen_note {happening : Happening} (hof : happening.inference = i) : Unseen rid i e (e.note happening) := by
  refine ⟨?_, rfl⟩
  have hown : (e.note happening).own rid = e.own rid := rfl
  have hnot : happening.inference ∉ e.own rid := hof ▸ not_mem_own hi
  have htrace : (e.note happening).trace.filter (fun h => h.inference ∈ e.own rid) =
      e.trace.filter fun h => h.inference ∈ e.own rid := by
    simp [note, List.filter_append, hnot]
  unfold Engine.solo
  rw [hown, htrace]
  rfl

theorem unseen_setInference {inference : Inference} (hrequest : inference.request = (e.inferences i).request) :
    Unseen rid i e (e.setInference i inference) := by
  have hown : (e.setInference i inference).own rid = e.own rid := own_setInference hrequest rid
  have hinferences (m : Nat) : (e.own rid)[m]?.map (e.setInference i inference).inferences =
      (e.own rid)[m]?.map e.inferences := by
    cases hj : (e.own rid)[m]? with
    | none => rfl
    | some j =>
      have hne : j ≠ i := by
        rintro rfl
        exact hi (request_own hj)
      simp [setInference, hne]
  refine ⟨?_, by simp [setInference, hrequest]⟩
  unfold Engine.solo
  simp only [hown, hinferences]
  rfl

theorem unseen_setPhase (phase : Phase) : Unseen rid i e (e.setPhase i phase) := unseen_setInference hi rfl

theorem unseen_finish (phase : Phase) : Unseen rid i e (e.finish i phase) := by
  have hphase := unseen_setPhase hi phase
  have hfreed := hphase.trans (unseen_setRequest _ hi { e.requests (e.inferences i).request with inFlight := false })
  exact hfreed.trans (unseen_note (hfreed.other hi) rfl)

theorem unseen_logged (notice : Notice) (phase : Phase) :
    Unseen rid i e ((e.note (.logged i notice)).finish i phase) := by
  have hlogged : Unseen rid i e (e.note (.logged i notice)) := unseen_note hi rfl
  exact hlogged.trans (unseen_finish (hlogged.other hi) phase)

end

theorem unseen_answer {t : Task} (hi : (e.inferences t.inference).request ≠ rid) (reply : Reply) :
    Unseen rid t.inference e (e.answer t reply) := by
  rw [answer_eq]
  exact unseen_setPhase hi _

section

variable {t : Task} (ht : t.request ≠ rid) (hi : (e.inferences t.inference).request ≠ rid)
include ht hi

theorem unseen_runStages (order : List InferStage) :
    Unseen rid t.inference e (runStages (stages t.request) order e t).1 := by
  cases hpoisoned : (e.requests t.request).poisoned with
  | true =>
    rw [runStages_poisoned _ _ hpoisoned]
    exact unseen_answer hi _
  | false =>
    obtain ⟨hrequests, hbackends⟩ := Shared.runEach_frame t.request order e.state
    generalize hrun : (stages t.request).runEach order e.state = run at hrequests hbackends
    obtain ⟨outcome, state⟩ := run
    rw [runStages_eq _ _ hpoisoned hrun]
    let next : Engine Shared := ({ e with state } : Engine Shared).note (.ran t.request t.inference t.work.hop outcome)
    have hstate : Unseen rid t.inference e { e with state } := unseen_state e (hrequests rid ht.symm) hbackends
    have hnext : Unseen rid t.inference e next := hstate.trans (unseen_note (hstate.other hi) rfl)
    have hmarked : Unseen rid t.inference e (next.marked t.request outcome) := by
      cases outcome with
      | ok value => exact hnext
      | error failure => exact hnext
      | panic => exact hnext.trans (unseen_setRequest next ht _)
    exact hmarked.trans (unseen_answer (hmarked.other hi) _)

theorem unseen_runTask : Unseen rid t.inference e (e.runTask stages t).1 := by
  unfold runTask
  split
  · exact unseen_runStages ht hi _
  · exact unseen_runStages ht hi _
  · rename_i callback result _
    have hcalled : Unseen rid t.inference e (e.note (.called t.inference callback result)) := unseen_note hi rfl
    simp only
    split
    · exact hcalled.trans (unseen_answer (hcalled.other hi) _)
    · exact hcalled.trans (unseen_answer (hcalled.other hi) _)

theorem unseen_submit (x : ExecutorId) : Unseen rid t.inference e (e.submit stages x t).1 := by
  let noted := e.note (.submitted t.inference t.work.hop x)
  have hnoted : Unseen rid t.inference e noted := unseen_note hi rfl
  have hqueue : ({ e.executors x with queue := (e.executors x).queue ++ [t] } : Executor Task).solo (e.own rid) rid =
      (e.executors x).solo (e.own rid) rid := by
    simp [Executor.solo, List.filter_append, ht]
  have hkept : Unseen rid t.inference e
      (noted.setExecutor x { e.executors x with queue := (e.executors x).queue ++ [t] }) :=
    hnoted.trans (unseen_setExecutor noted hqueue)
  cases hkind : (e.executors x).kind with
  | inline =>
    rw [submit_inline hkind]
    exact hnoted.trans (unseen_runTask ht (hnoted.other hi))
  | counting =>
    have hcounted : Unseen rid t.inference e (noted.counted x) := hnoted.trans (unseen_setExecutor noted rfl)
    rw [submit_counting hkind]
    exact hcounted.trans (unseen_runTask ht (hcounted.other hi))
  | parked =>
    rw [submit_kept (.inl hkind)]
    exact hkept
  | pooled =>
    rw [submit_kept (.inr hkind)]
    exact hkept
  | dropping =>
    rw [submit_dropping hkind]
    exact hnoted.trans (unseen_answer (hnoted.other hi) _)

end

/-! ## Polls of others -/

section

variable (hi : (e.inferences i).request ≠ rid)
include hi

theorem unseen_handOver (work : Work) :
    match e.handOver stages i work with
    | .refused => True
    | .waiting e' => Unseen rid i e e'
    | .brokeOff e' => Unseen rid i e e' := by
  have hphase := unseen_setPhase hi (.awaiting work.hop .waiting)
  have hsubmit := hphase.trans (unseen_submit (t := e.task i work) hi (hphase.other hi) (e.home (e.task i work)))
  rw [handOver_eq]
  generalize (e.setPhase i (.awaiting work.hop .waiting)).submit stages (e.home (e.task i work))
    (e.task i work) = submitted at hsubmit
  obtain ⟨next, broke⟩ := submitted
  cases e.isTripped i with
  | true => trivial
  | false =>
    cases broke with
    | false => exact hsubmit
    | true => exact hsubmit.trans (unseen_finish (hsubmit.other hi) _)

variable (preferReply : Bool)

theorem unseen_afterNotify : Unseen rid i e (e.afterNotify preferReply i) := by
  unfold afterNotify
  split
  · exact Unseen.refl rid i e
  · exact unseen_finish hi _
  · split
    · exact unseen_logged hi _ _
    · exact unseen_finish hi _

theorem unseen_conclude (result : InferResult) : Unseen rid i e (e.conclude stages preferReply i result) := by
  by_cases hcancelled : result = .error .cancelled
  · subst hcancelled
    rw [conclude_cancelled]
    exact unseen_logged hi _ _
  · rw [conclude_of_ne hcancelled]
    cases (e.requests (e.inferences i).request).callback with
    | none => exact unseen_logged hi _ _
    | some callback =>
      have hhand := unseen_handOver hi (.notify callback result)
      simp only
      split
      · exact unseen_finish hi _
      · rename_i heq
        rwa [heq] at hhand
      · rename_i heq
        rw [heq] at hhand
        exact hhand.trans (unseen_afterNotify (hhand.other hi) preferReply)

theorem unseen_afterFinish : Unseen rid i e (e.afterFinish stages preferReply i) := by
  unfold afterFinish
  split
  · exact Unseen.refl rid i e
  · exact unseen_conclude hi preferReply _
  · exact unseen_conclude hi preferReply _

theorem unseen_afterStart : Unseen rid i e (e.afterStart stages preferReply i) := by
  unfold afterStart
  split
  · exact Unseen.refl rid i e
  · exact unseen_conclude hi preferReply _
  · exact unseen_conclude hi preferReply _
  · have hhand := unseen_handOver hi .finish
    split
    · exact unseen_conclude hi preferReply _
    · rename_i heq
      rwa [heq] at hhand
    · rename_i heq
      rw [heq] at hhand
      exact hhand.trans (unseen_afterFinish (hhand.other hi) preferReply)

theorem unseen_begin : Unseen rid i e (e.begin stages preferReply i) := by
  cases hflight : (e.requests (e.inferences i).request).inFlight with
  | true =>
    have hphase := unseen_setPhase hi (.settled (.error .busy))
    rw [begin_of_busy stages hflight]
    exact hphase.trans (unseen_note (hphase.other hi) rfl)
  | false =>
    have hheld := unseen_setRequest (i := i) e hi { e.requests (e.inferences i).request with inFlight := true }
    have htaken : Unseen rid i e (e.taken i) := hheld.trans (unseen_setInference (hheld.other hi) rfl)
    have hhand := unseen_handOver (htaken.other hi) .start
    rw [begin_of_free hflight]
    split
    · exact htaken.trans (unseen_conclude (htaken.other hi) preferReply _)
    · rename_i heq
      rw [heq] at hhand
      exact htaken.trans hhand
    · rename_i heq
      rw [heq] at hhand
      have hwaiting := htaken.trans hhand
      exact hwaiting.trans (unseen_afterStart (hwaiting.other hi) preferReply)

theorem unseen_poll : Unseen rid i e (e.poll stages preferReply i) := by
  unfold poll
  split
  · exact unseen_begin hi preferReply
  · exact unseen_afterStart hi preferReply
  · exact unseen_afterFinish hi preferReply
  · exact unseen_afterNotify hi preferReply
  · exact Unseen.refl rid i e

theorem unseen_abandon : Unseen rid i e (e.abandon i) := by
  unfold abandon
  split
  · have hphase := unseen_setPhase hi .abandoned
    exact hphase.trans (unseen_note (hphase.other hi) rfl)
  · exact unseen_finish hi _
  · exact Unseen.refl rid i e

end

end Engine

end DevicePlugin
