import DevicePlugin.Request.Async
import Mathlib.Logic.Relation

/-!
# Moves of an engine

Polling an inference and running a task fall into small moves. Between two moves
one task may be in hand: it has left its inference, or its queue, and has not been
run or queued yet. What every move keeps is kept by everything an engine does.
-/

namespace DevicePlugin

def Phase.answered (hop : Hop) (reply : Reply) : Phase → Phase
  | .awaiting waited .waiting =>
    if waited = hop then .awaiting waited reply else .awaiting waited .waiting
  | phase => phase

theorem Phase.answered_awaiting (hop : Hop) (reply : Reply) :
    (Phase.awaiting hop .waiting).answered hop reply = .awaiting hop reply := by
  rw [answered, if_pos rfl]

namespace Engine

variable {σ : Type}

theorem setPhase_self (e : Engine σ) (id : InferenceId) : e.setPhase id (e.inferences id).phase = e := by
  have h : (fun j => if j = id then e.inferences id else e.inferences j) = e.inferences := by
    funext j
    split
    · rename_i hj
      rw [hj]
    · rfl
  unfold setPhase setInference
  rw [h]

theorem answer_eq (e : Engine σ) (t : Task) (reply : Reply) :
    e.answer t reply =
      e.setPhase t.inference ((e.inferences t.inference).phase.answered t.work.hop reply) := by
  unfold answer
  split
  · rename_i hop hphase
    rw [hphase, Phase.answered]
    split
    · rfl
    · rw [← hphase, setPhase_self]
  · rename_i hphase
    rw [Phase.answered]
    · exact (setPhase_self e t.inference).symm
    · exact hphase

@[simp] theorem setPhase_inferences (e : Engine σ) (id i : InferenceId) (phase : Phase) :
    (e.setPhase id phase).inferences i = if i = id then { e.inferences id with phase } else e.inferences i :=
  rfl

theorem setPhase_request (e : Engine σ) (id : InferenceId) (phase : Phase) (i : InferenceId) :
    ((e.setPhase id phase).inferences i).request = (e.inferences i).request := by
  rw [setPhase_inferences]
  split
  · rename_i hi
    rw [hi]
  · rfl

theorem answer_request (e : Engine σ) (t : Task) (reply : Reply) (i : InferenceId) :
    ((e.answer t reply).inferences i).request = (e.inferences i).request := by
  rw [answer_eq]
  exact setPhase_request e _ _ _

/-! ## Engines that differ in their states -/

/-- The engines agree on everything but the state, what happened, callbacks, counts and broken states. -/
structure Alike (e e' : Engine σ) : Prop where
  started : e'.started = e.started
  inferences : e'.inferences = e.inferences
  queue : ∀ x, (e'.executors x).queue = (e.executors x).queue
  token : ∀ rid, (e'.requests rid).token = (e.requests rid).token
  tripped : ∀ rid, (e'.requests rid).tripped = (e.requests rid).tripped
  inFlight : ∀ rid, (e'.requests rid).inFlight = (e.requests rid).inFlight

theorem Alike.refl (e : Engine σ) : Alike e e := ⟨rfl, rfl, fun _ => rfl, fun _ => rfl, fun _ => rfl, fun _ => rfl⟩

theorem Alike.trans {e e' e'' : Engine σ} (h : Alike e e') (h' : Alike e' e'') : Alike e e'' where
  started := h'.started.trans h.started
  inferences := h'.inferences.trans h.inferences
  queue x := (h'.queue x).trans (h.queue x)
  token rid := (h'.token rid).trans (h.token rid)
  tripped rid := (h'.tripped rid).trans (h.tripped rid)
  inFlight rid := (h'.inFlight rid).trans (h.inFlight rid)

theorem alike_note (e : Engine σ) (h : Happening) : Alike e (e.note h) :=
  ⟨rfl, rfl, fun _ => rfl, fun _ => rfl, fun _ => rfl, fun _ => rfl⟩

theorem alike_poison (e : Engine σ) (rid : RequestId) :
    Alike e (e.setRequest rid { e.requests rid with poisoned := true }) := by
  refine ⟨rfl, rfl, fun _ => rfl, ?_, ?_, ?_⟩ <;>
  · intro i
    simp only [setRequest]
    split
    · rename_i hi
      rw [hi]
    · rfl

theorem alike_count (e : Engine σ) (x : ExecutorId) (runs : Nat) :
    Alike e (e.setExecutor x { e.executors x with runs }) := by
  refine ⟨rfl, rfl, ?_, fun _ => rfl, fun _ => rfl, fun _ => rfl⟩
  intro y
  simp only [setExecutor]
  split
  · rename_i hy
    rw [hy]
  · rfl

/-! ## Running a task -/

def replyOf : Outcome Failure Unit → Reply
  | .ok () => .delivered (.ok ())
  | .error failure => .delivered (.error failure)
  | .panic => .dropped

theorem outcome_ofExcept_replyOf {outcome : Outcome Failure Unit} (h : outcome ≠ .panic) :
    ∃ result, replyOf outcome = .delivered result ∧ Outcome.ofExcept result = outcome := by
  cases outcome with
  | ok value => exact ⟨.ok (), rfl, rfl⟩
  | error failure => exact ⟨.error failure, rfl, rfl⟩
  | panic => exact absurd rfl h

def marked (e : Engine σ) (rid : RequestId) : Outcome Failure Unit → Engine σ
  | .panic => e.setRequest rid { e.requests rid with poisoned := true }
  | _ => e

theorem alike_marked (e : Engine σ) (rid : RequestId) (outcome : Outcome Failure Unit) :
    Alike e (e.marked rid outcome) := by
  cases outcome with
  | ok value => exact Alike.refl e
  | error failure => exact Alike.refl e
  | panic => exact alike_poison e rid

theorem marked_of_ne_panic (e : Engine σ) (rid : RequestId) {outcome : Outcome Failure Unit}
    (h : outcome ≠ .panic) : e.marked rid outcome = e := by
  cases outcome with
  | ok value => rfl
  | error failure => rfl
  | panic => exact absurd rfl h

theorem runStages_poisoned (stages : Stages σ) (order : List InferStage) {e : Engine σ} {t : Task}
    (h : (e.requests t.request).poisoned = true) :
    runStages stages order e t = (e.answer t (.delivered (.error (.infer .poisoned))), false) := by
  unfold runStages
  simp only [h, if_true]

theorem runStages_eq (stages : Stages σ) (order : List InferStage) {e : Engine σ} {t : Task}
    (h : (e.requests t.request).poisoned = false) {outcome : Outcome Failure Unit} {state : σ}
    (hrun : stages.runEach order e.state = (outcome, state)) :
    runStages stages order e t =
      (((({ e with state } : Engine σ).note (.ran t.request t.inference t.work.hop outcome)).marked
        t.request outcome).answer t (replyOf outcome), outcome matches .panic) := by
  unfold runStages
  simp only [h, hrun]
  cases outcome <;> rfl

/-- Stages that are run answer their inference. Beside that they touch neither inferences nor queues. -/
theorem runStages_answers (stages : Stages σ) (order : List InferStage) (e : Engine σ) (t : Task) :
    ∃ (e' : Engine σ) (reply : Reply), Alike e e' ∧ reply ≠ .waiting ∧
      (runStages stages order e t).1 = e'.answer t reply ∧
      ((runStages stages order e t).2 = true → reply = .dropped) := by
  cases hpoisoned : (e.requests t.request).poisoned with
  | true =>
    rw [runStages_poisoned stages order hpoisoned]
    exact ⟨e, _, Alike.refl e, by simp, rfl, by simp⟩
  | false =>
    generalize hrun : stages.runEach order e.state = run
    obtain ⟨outcome, state⟩ := run
    rw [runStages_eq stages order hpoisoned hrun]
    let next : Engine σ := ({ e with state } : Engine σ).note (.ran t.request t.inference t.work.hop outcome)
    have hnext : Alike e next := ⟨rfl, rfl, fun _ => rfl, fun _ => rfl, fun _ => rfl, fun _ => rfl⟩
    refine ⟨_, _, hnext.trans (alike_marked next t.request outcome), ?_, rfl, ?_⟩
    · cases outcome <;> simp [replyOf]
    · cases outcome <;> simp [replyOf]

theorem runTask_answers (stages : RequestId → Stages σ) (e : Engine σ) (t : Task) :
    ∃ (e' : Engine σ) (reply : Reply), Alike e e' ∧ reply ≠ .waiting ∧
      (e.runTask stages t).1 = e'.answer t reply ∧ ((e.runTask stages t).2 = true → reply = .dropped) := by
  unfold runTask
  split
  · exact runStages_answers _ _ e t
  · exact runStages_answers _ _ e t
  · simp only
    split
    · exact ⟨_, _, alike_note e _, by simp, rfl, fun _ => rfl⟩
    · exact ⟨_, _, alike_note e _, by simp, rfl, by simp⟩

/-! ## Moves -/

def home (e : Engine σ) (t : Task) : ExecutorId := (e.requests t.request).executor t.work.hop

def task (e : Engine σ) (id : InferenceId) (work : Work) : Task := ⟨(e.inferences id).request, id, work⟩

def handed (e : Engine σ) (id : InferenceId) (work : Work) : Engine σ :=
  (e.setPhase id (.awaiting work.hop .waiting)).note (.submitted id work.hop (e.home (e.task id work)))

def taken (e : Engine σ) (id : InferenceId) : Engine σ :=
  let i := e.inferences id
  let r := e.requests i.request
  (e.setRequest i.request { r with inFlight := true }).setInference id { i with token := r.token }

def queued (e : Engine σ) (t : Task) : Engine σ :=
  let x := e.executors (e.home t)
  e.setExecutor (e.home t) { x with queue := x.queue ++ [t] }

def counted (e : Engine σ) (x : ExecutorId) : Engine σ :=
  e.setExecutor x { e.executors x with runs := (e.executors x).runs + 1 }

theorem taken_request (e : Engine σ) (id i : InferenceId) :
    ((e.taken id).inferences i).request = (e.inferences i).request := by
  simp only [taken, setRequest, setInference]
  split
  · rename_i hi
    rw [hi]
  · rfl

section

variable {stages : RequestId → Stages σ} {e : Engine σ} {x : ExecutorId} {t : Task}

theorem submit_inline (h : (e.executors x).kind = .inline) :
    e.submit stages x t = (e.note (.submitted t.inference t.work.hop x)).runTask stages t := by
  simp only [submit, h]

theorem submit_counting (h : (e.executors x).kind = .counting) :
    e.submit stages x t = ((e.note (.submitted t.inference t.work.hop x)).counted x).runTask stages t := by
  have hsame : (e.note (.submitted t.inference t.work.hop x)).executors = e.executors := rfl
  simp only [submit, counted, hsame, h]

theorem submit_kept (h : (e.executors x).kind = .parked ∨ (e.executors x).kind = .pooled) :
    e.submit stages x t =
      ((e.note (.submitted t.inference t.work.hop x)).setExecutor x
        { e.executors x with queue := (e.executors x).queue ++ [t] }, false) := by
  rcases h with h | h <;> simp only [submit, h]

theorem submit_dropping (h : (e.executors x).kind = .dropping) :
    e.submit stages x t = ((e.note (.submitted t.inference t.work.hop x)).answer t .dropped, false) := by
  simp only [submit, h, dropTask]

end

inductive Concludes (e : Engine σ) (id : InferenceId) : InferResult → Prop
  | start (failure : Failure) (h : (e.inferences id).phase = .awaiting .start (.delivered (.error failure))) :
      Concludes e id (.error failure)
  | finish (result : InferResult) (h : (e.inferences id).phase = .awaiting .finish (.delivered result)) :
      Concludes e id result
  | dropped (hop : Hop) (hhop : hop ≠ .notify) (h : (e.inferences id).phase = .awaiting hop .dropped)
      (executor : String) : Concludes e id (.error (.infer (.droppedTask executor)))

inductive Due (e : Engine σ) (id : InferenceId) : Work → Prop
  | finish (h : (e.inferences id).phase = .awaiting .start (.delivered (.ok ()))) : Due e id .finish
  | notify (callback : Callback) (result : InferResult) (h : e.Concludes id result)
      (hresult : result ≠ .error .cancelled)
      (hcallback : (e.requests (e.inferences id).request).callback = some callback) :
      Due e id (.notify callback result)

inductive Settles (e : Engine σ) (id : InferenceId) : InferResult → Option Notice → Prop
  | cancelled (hop : Hop) (reply : Reply) (hhop : hop ≠ .notify)
      (h : (e.inferences id).phase = .awaiting hop reply) (htripped : e.isTripped id = true)
      (executor : String) : Settles e id (.error .cancelled) (some (.inferenceCancelled executor))
  | gaveUp (h : e.Concludes id (.error .cancelled)) (executor : String) :
      Settles e id (.error .cancelled) (some (.inferenceCancelled executor))
  | unheard (result : InferResult) (h : e.Concludes id result) (hresult : result ≠ .error .cancelled)
      (hcallback : (e.requests (e.inferences id).request).callback = none) :
      Settles e id result (some (.inferenceCompleted result.isOk))
  | uncalled (result : InferResult) (callback : Callback) (h : e.Concludes id result)
      (hresult : result ≠ .error .cancelled)
      (hcallback : (e.requests (e.inferences id).request).callback = some callback)
      (htripped : e.isTripped id = true) : Settles e id (.error .cancelled) none
  | told (result : InferResult)
      (h : (e.inferences id).phase = .awaiting .notify (.delivered result)) :
      Settles e id result (some (.inferenceCompleted result.isOk))
  | untold (h : (e.inferences id).phase = .awaiting .notify .dropped) (executor : String) :
      Settles e id (.error (.infer (.droppedTask executor))) none
  | unawaited (reply : Reply) (h : (e.inferences id).phase = .awaiting .notify reply)
      (htripped : e.isTripped id = true) : Settles e id (.error .cancelled) none

def logged (e : Engine σ) (id : InferenceId) : Option Notice → Engine σ
  | none => e
  | some notice => e.note (.logged id notice)

inductive Move (stages : RequestId → Stages σ) : Engine σ × Option Task → Engine σ × Option Task → Prop
  | take {e e' : Engine σ} {x : ExecutorId} {position : Nat} {t : Task}
      (h : e.takeTask x position = some (t, e')) : Move stages (e, none) (e', some t)
  | queue {e : Engine σ} {t : Task}
      (h : (e.executors (e.home t)).kind = .parked ∨ (e.executors (e.home t)).kind = .pooled) :
      Move stages (e, some t) (e.queued t, none)
  | count {e : Engine σ} {t : Task} : Move stages (e, some t) (e.counted (e.home t), some t)
  | lose {e : Engine σ} {t : Task} (h : (e.executors (e.home t)).kind = .dropping) :
      Move stages (e, some t) (e.dropTask t, none)
  | run {e : Engine σ} {t : Task} : Move stages (e, some t) ((e.runTask stages t).1, none)
  | busy {e : Engine σ} {id : InferenceId} (hid : id < e.started)
      (hphase : (e.inferences id).phase = .created)
      (hflight : (e.requests (e.inferences id).request).inFlight = true) :
      Move stages (e, none) ((e.setPhase id (.settled (.error .busy))).note (.ended id), none)
  | begin {e : Engine σ} {id : InferenceId} (hid : id < e.started)
      (hphase : (e.inferences id).phase = .created)
      (hflight : (e.requests (e.inferences id).request).inFlight = false) :
      Move stages (e, none) ((e.taken id).handed id .start, some (e.task id .start))
  | hand {e : Engine σ} {id : InferenceId} {work : Work} (hid : id < e.started) (hdue : e.Due id work)
      (htripped : e.isTripped id = false) :
      Move stages (e, none) (e.handed id work, some (e.task id work))
  | settle {e : Engine σ} {id : InferenceId} {result : InferResult} {notice : Option Notice}
      (hid : id < e.started) (h : e.Settles id result notice) :
      Move stages (e, none) ((e.logged id notice).settle id result, none)
  | breakOff {e : Engine σ} {id : InferenceId} {hop : Hop} (hid : id < e.started)
      (hphase : (e.inferences id).phase = .awaiting hop .dropped) :
      Move stages (e, none) (e.finish id .panicked, none)

variable {stages : RequestId → Stages σ} {c c' : Engine σ × Option Task}

/-- Moves make no inferences, and give none to another request. -/
theorem Move.inferences (hm : Move stages c c') :
    c'.1.started = c.1.started ∧ ∀ i, (c'.1.inferences i).request = (c.1.inferences i).request := by
  cases hm with
  | take h =>
    unfold takeTask at h
    obtain ⟨_, -, heq⟩ := Option.map_eq_some_iff.mp h
    cases heq
    exact ⟨rfl, fun _ => rfl⟩
  | queue _ => exact ⟨rfl, fun _ => rfl⟩
  | count => exact ⟨rfl, fun _ => rfl⟩
  | @lose e t _ =>
    refine ⟨?_, answer_request e t .dropped⟩
    rw [dropTask, answer_eq]
    rfl
  | @run e t =>
    obtain ⟨e', reply, halike, -, heq, -⟩ := runTask_answers stages e t
    rw [heq]
    refine ⟨?_, fun i => ?_⟩
    · rw [answer_eq]
      exact halike.started
    · rw [answer_request, halike.inferences]
  | busy _ _ _ => exact ⟨rfl, setPhase_request _ _ _⟩
  | @begin e id _ _ _ => exact ⟨rfl, fun i => (setPhase_request _ _ _ i).trans (taken_request e id i)⟩
  | hand _ _ _ => exact ⟨rfl, setPhase_request _ _ _⟩
  | @settle e id result notice _ _ => cases notice <;> exact ⟨rfl, setPhase_request _ _ _⟩
  | breakOff _ _ => exact ⟨rfl, setPhase_request _ _ _⟩

abbrev Moves (stages : RequestId → Stages σ) : Engine σ × Option Task → Engine σ × Option Task → Prop :=
  Relation.ReflTransGen (Move stages)

variable (stages)

theorem runQueued_moves (e : Engine σ) (x : ExecutorId) (position : Nat) :
    Moves stages (e, none) ((e.runQueued stages x position).1, none) := by
  unfold runQueued
  split
  · exact .refl
  · rename_i t e' htake
    exact .tail (.single (.take htake)) .run

/-- What an inference is told at the end of handing over: it still waits for the task, or has the
answer already. -/
theorem submit_moves {e : Engine σ} {t : Task}
    (hphase : (e.inferences t.inference).phase = .awaiting t.work.hop .waiting) :
    Moves stages (e.note (.submitted t.inference t.work.hop (e.home t)), some t)
        ((e.submit stages (e.home t) t).1, none) ∧
      (e.submit stages (e.home t) t).1.started = e.started ∧
      ∃ reply, ((e.submit stages (e.home t) t).1.inferences t.inference).phase = .awaiting t.work.hop reply ∧
        ((e.submit stages (e.home t) t).2 = true → reply = .dropped) := by
  let noted := e.note (.submitted t.inference t.work.hop (e.home t))
  -- Executors that run a task at once answer it before the hand-over is done.
  have hrun (e' : Engine σ) (halike : Alike e e') :
      (e'.runTask stages t).1.started = e.started ∧
        ∃ reply, ((e'.runTask stages t).1.inferences t.inference).phase = .awaiting t.work.hop reply ∧
          ((e'.runTask stages t).2 = true → reply = .dropped) := by
    obtain ⟨ran, reply, hran, -, heq, hbroke⟩ := e'.runTask_answers stages t
    have hphase' : (ran.inferences t.inference).phase = .awaiting t.work.hop .waiting := by
      rw [hran.inferences, halike.inferences, hphase]
    rw [heq, answer_eq, hphase', Phase.answered_awaiting]
    refine ⟨(halike.trans hran).started, reply, ?_, hbroke⟩
    simp
  unfold submit
  simp only
  split
  · exact ⟨.single .run, hrun noted (alike_note e _)⟩
  · refine ⟨.tail (.single .count) .run, hrun _ ((alike_note e _).trans (alike_count noted _ _))⟩
  · rename_i hkind
    exact ⟨.single (.queue (.inl hkind)), rfl, .waiting, hphase, by simp⟩
  · rename_i hkind
    exact ⟨.single (.queue (.inr hkind)), rfl, .waiting, hphase, by simp⟩
  · rename_i hkind
    refine ⟨.single (.lose hkind), ?_⟩
    rw [dropTask, answer_eq]
    refine ⟨rfl, .dropped, ?_, by simp⟩
    have hnoted : (noted.inferences t.inference).phase = .awaiting t.work.hop .waiting := hphase
    rw [hnoted, Phase.answered_awaiting]
    simp

def handedOver (id : InferenceId) : Engine σ × Bool → HandedOver σ
  | (e, false) => .waiting e
  | (e, true) => .brokeOff (e.finish id .panicked)

theorem handOver_eq (e : Engine σ) (id : InferenceId) (work : Work) :
    e.handOver stages id work =
      if e.isTripped id then .refused
      else handedOver id ((e.setPhase id (.awaiting work.hop .waiting)).submit stages
        (e.home (e.task id work)) (e.task id work)) := rfl

theorem handOver_moves (e : Engine σ) (id : InferenceId) (work : Work) :
    match e.handOver stages id work with
    | .refused => e.isTripped id = true
    | .waiting e' => e.isTripped id = false ∧
        Moves stages (e.handed id work, some (e.task id work)) (e', none) ∧ e'.started = e.started ∧
        ∃ reply, (e'.inferences id).phase = .awaiting work.hop reply
    | .brokeOff e' => e.isTripped id = false ∧
        ∃ e'', Moves stages (e.handed id work, some (e.task id work)) (e'', none) ∧
          e''.started = e.started ∧ (e''.inferences id).phase = .awaiting work.hop .dropped ∧
          e' = e''.finish id .panicked := by
  have hphase : ((e.setPhase id (.awaiting work.hop .waiting)).inferences id).phase =
      .awaiting work.hop .waiting := by simp
  have hsubmit := @submit_moves _ stages (e.setPhase id (.awaiting work.hop .waiting)) (e.task id work) hphase
  have hhome : (e.setPhase id (.awaiting work.hop .waiting)).home (e.task id work) =
      e.home (e.task id work) := rfl
  rw [hhome] at hsubmit
  rw [handOver_eq]
  generalize (e.setPhase id (.awaiting work.hop .waiting)).submit stages (e.home (e.task id work))
    (e.task id work) = submitted at hsubmit
  obtain ⟨e', broke⟩ := submitted
  obtain ⟨hmoves, hstarted, reply, hreply, hbroke⟩ := hsubmit
  cases htripped : e.isTripped id with
  | true => rfl
  | false =>
    -- Only an executor that runs the task at once lets a break-off through.
    cases broke with
    | false => exact ⟨rfl, hmoves, hstarted, reply, hreply⟩
    | true =>
      rw [hbroke rfl] at hreply
      exact ⟨rfl, e', hmoves, hstarted, hreply, rfl⟩

theorem look_spec {e : Engine σ} {id : InferenceId} {hop : Hop} {reply : Reply}
    (hphase : (e.inferences id).phase = .awaiting hop reply) (preferReply : Bool) :
    match e.look preferReply id with
    | .nothing => reply = .waiting
    | .cancelled => e.isTripped id = true
    | .result result => reply = .delivered result ∨
        reply = .dropped ∧ ∃ executor, result = .error (.infer (.droppedTask executor)) := by
  unfold look
  simp only [hphase]
  cases htripped : e.isTripped id <;> cases reply <;> cases preferReply <;> simp

theorem afterNotify_moves {e : Engine σ} {id : InferenceId} (hid : id < e.started) {reply : Reply}
    (hphase : (e.inferences id).phase = .awaiting .notify reply) (preferReply : Bool) :
    Moves stages (e, none) (e.afterNotify preferReply id, none) := by
  have hlook := look_spec hphase preferReply
  unfold afterNotify
  split
  · exact .refl
  · rename_i heq
    rw [heq] at hlook
    exact .single (.settle hid (.unawaited reply hphase hlook))
  · rename_i result heq
    rw [heq] at hlook
    rcases hlook with rfl | ⟨rfl, executor, rfl⟩
    · simp only [hphase]
      exact .single (.settle hid (.told result hphase))
    · simp only [hphase]
      exact .single (.settle hid (.untold hphase executor))

def Concluded (e : Engine σ) (id : InferenceId) (result : InferResult) : Prop :=
  e.Concludes id result ∨ result = .error .cancelled ∧ e.isTripped id = true ∧
    ∃ hop reply, hop ≠ .notify ∧ (e.inferences id).phase = .awaiting hop reply

theorem conclude_moves {e : Engine σ} {id : InferenceId} (hid : id < e.started) {result : InferResult}
    (h : e.Concluded id result) (preferReply : Bool) :
    Moves stages (e, none) (e.conclude stages preferReply id result, none) := by
  unfold conclude
  by_cases hcancelled : result = .error .cancelled
  · subst hcancelled
    rcases h with h | ⟨-, htripped, hop, reply, hhop, hphase⟩
    · exact .single (.settle hid (.gaveUp h _))
    · exact .single (.settle hid (.cancelled hop reply hhop hphase htripped _))
  · have hconcludes : e.Concludes id result := h.resolve_right fun h' => hcancelled h'.1
    simp only
    split
    · rename_i h'
      cases h'
    · split
      · rename_i hcallback
        exact .single (.settle hid (.unheard result hconcludes hcancelled hcallback))
      · rename_i callback hcallback
        have hhand := handOver_moves stages e id (.notify callback result)
        split
        · rename_i heq
          rw [heq] at hhand
          exact .single (.settle hid (.uncalled result callback hconcludes hcancelled hcallback hhand))
        · rename_i e' heq
          rw [heq] at hhand
          obtain ⟨htripped, e'', hmoves, hstarted, hphase, rfl⟩ := hhand
          exact .head (.hand hid (.notify callback result hconcludes hcancelled hcallback) htripped)
            (hmoves.tail (.breakOff (hstarted ▸ hid) hphase))
        · rename_i e' heq
          rw [heq] at hhand
          obtain ⟨htripped, hmoves, hstarted, reply, hphase⟩ := hhand
          exact .head (.hand hid (.notify callback result hconcludes hcancelled hcallback) htripped)
            (hmoves.trans (afterNotify_moves stages (hstarted ▸ hid) hphase preferReply))

theorem afterFinish_moves {e : Engine σ} {id : InferenceId} (hid : id < e.started) {reply : Reply}
    (hphase : (e.inferences id).phase = .awaiting .finish reply) (preferReply : Bool) :
    Moves stages (e, none) (e.afterFinish stages preferReply id, none) := by
  have hlook := look_spec hphase preferReply
  unfold afterFinish
  split
  · exact .refl
  · rename_i heq
    rw [heq] at hlook
    exact conclude_moves stages hid (.inr ⟨rfl, hlook, .finish, reply, by simp, hphase⟩) preferReply
  · rename_i result heq
    rw [heq] at hlook
    rcases hlook with rfl | ⟨rfl, executor, rfl⟩
    · exact conclude_moves stages hid (.inl (.finish result hphase)) preferReply
    · exact conclude_moves stages hid (.inl (.dropped .finish (by simp) hphase executor)) preferReply

theorem afterStart_moves {e : Engine σ} {id : InferenceId} (hid : id < e.started) {reply : Reply}
    (hphase : (e.inferences id).phase = .awaiting .start reply) (preferReply : Bool) :
    Moves stages (e, none) (e.afterStart stages preferReply id, none) := by
  have hlook := look_spec hphase preferReply
  unfold afterStart
  split
  · exact .refl
  · rename_i heq
    rw [heq] at hlook
    exact conclude_moves stages hid (.inr ⟨rfl, hlook, .start, reply, by simp, hphase⟩) preferReply
  · rename_i failure heq
    rw [heq] at hlook
    rcases hlook with rfl | ⟨rfl, executor, hexecutor⟩
    · exact conclude_moves stages hid (.inl (.start failure hphase)) preferReply
    · cases hexecutor
      exact conclude_moves stages hid (.inl (.dropped .start (by simp) hphase executor)) preferReply
  · rename_i heq
    rw [heq] at hlook
    rcases hlook with rfl | ⟨-, executor, hexecutor⟩
    · have hhand := handOver_moves stages e id .finish
      split
      · rename_i heq
        rw [heq] at hhand
        exact conclude_moves stages hid (.inr ⟨rfl, hhand, .start, _, by simp, hphase⟩) preferReply
      · rename_i e' heq
        rw [heq] at hhand
        obtain ⟨htripped, e'', hmoves, hstarted, hphase', rfl⟩ := hhand
        exact .head (.hand hid (.finish hphase) htripped)
          (hmoves.tail (.breakOff (hstarted ▸ hid) hphase'))
      · rename_i e' heq
        rw [heq] at hhand
        obtain ⟨htripped, hmoves, hstarted, reply, hphase'⟩ := hhand
        exact .head (.hand hid (.finish hphase) htripped)
          (hmoves.trans (afterFinish_moves stages (hstarted ▸ hid) hphase' preferReply))
    · cases hexecutor

theorem isTripped_taken {e : Engine σ} {id : InferenceId}
    (hfresh : (e.requests (e.inferences id).request).token ∉ (e.requests (e.inferences id).request).tripped) :
    (e.taken id).isTripped id = false := by
  simpa [isTripped, taken, setRequest, setInference] using hfresh

/-- An inference that finds its request free takes it, hands over its first task and goes on from there. -/
theorem begin_moves_of_free {e : Engine σ} {id : InferenceId} (hid : id < e.started)
    (hfree : (e.requests (e.inferences id).request).inFlight = false)
    (hfresh : (e.requests (e.inferences id).request).token ∉ (e.requests (e.inferences id).request).tripped)
    (preferReply : Bool) :
    Moves stages ((e.taken id).handed id .start, some (e.task id .start))
      (e.begin stages preferReply id, none) := by
  have htask : (e.taken id).task id .start = e.task id .start := by
    simp [task, taken, setRequest, setInference]
  have hhand := handOver_moves stages (e.taken id) id .start
  rw [htask] at hhand
  unfold begin
  simp only [hfree]
  unfold taken at hhand
  split
  · rename_i hflight
    cases hflight
  · split
    · rename_i heq
      rw [heq] at hhand
      -- Nobody can have tripped a token that was taken just now.
      have huntripped := isTripped_taken hfresh
      unfold taken at huntripped
      rw [huntripped] at hhand
      cases hhand
    · rename_i e' heq
      rw [heq] at hhand
      obtain ⟨-, e'', hmoves, hstarted, hphase', rfl⟩ := hhand
      exact hmoves.tail (.breakOff (hstarted ▸ hid) hphase')
    · rename_i e' heq
      rw [heq] at hhand
      obtain ⟨-, hmoves, hstarted, reply, hphase'⟩ := hhand
      exact hmoves.trans (afterStart_moves stages (hstarted ▸ hid) hphase' preferReply)

theorem begin_of_busy {e : Engine σ} {id : InferenceId}
    (hflight : (e.requests (e.inferences id).request).inFlight = true) (preferReply : Bool) :
    e.begin stages preferReply id = (e.setPhase id (.settled (.error .busy))).note (.ended id) := by
  unfold begin
  simp only [hflight, if_true]

theorem begin_moves {e : Engine σ} {id : InferenceId} (hid : id < e.started)
    (hphase : (e.inferences id).phase = .created)
    (hfresh : (e.requests (e.inferences id).request).token ∉ (e.requests (e.inferences id).request).tripped)
    (preferReply : Bool) : Moves stages (e, none) (e.begin stages preferReply id, none) := by
  cases hflight : (e.requests (e.inferences id).request).inFlight with
  | true =>
    rw [begin_of_busy stages hflight]
    exact .single (.busy hid hphase hflight)
  | false =>
    exact .head (.begin hid hphase hflight) (begin_moves_of_free stages hid hflight hfresh preferReply)

theorem poll_moves {e : Engine σ} {id : InferenceId} (hid : id < e.started)
    (hfresh : (e.requests (e.inferences id).request).token ∉ (e.requests (e.inferences id).request).tripped)
    (preferReply : Bool) : Moves stages (e, none) (e.poll stages preferReply id, none) := by
  unfold poll
  split
  · rename_i hphase
    exact begin_moves stages hid hphase hfresh preferReply
  · rename_i hphase
    exact afterStart_moves stages hid hphase preferReply
  · rename_i hphase
    exact afterFinish_moves stages hid hphase preferReply
  · rename_i hphase
    exact afterNotify_moves stages hid hphase preferReply
  · exact .refl

end Engine

end DevicePlugin
