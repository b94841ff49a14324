import DevicePlugin.Proofs.Request.Solo
import DevicePlugin.Proofs.Request.Twins

/-!
# Changes beside an inference

What an engine does for one inference reads nothing of another, but for the request
that they may share. So it is the same when the other one is taken out of sight.
-/

namespace DevicePlugin

namespace Engine

variable {σ : Type}

def aside (e : Engine σ) (j : InferenceId) : Engine σ :=
  { e.setPhase j .abandoned with trace := e.trace.filter fun h => h.inference ≠ j }

/-- What a change does beside an inference does not depend on it, and it is left alone. -/
structure Blind (j : InferenceId) (f : Engine σ → Engine σ) : Prop where
  aside : ∀ e, (f e).aside j = f (e.aside j)
  same : ∀ e, (f e).inferences j = e.inferences j

variable {j : InferenceId}

theorem aside_inferences_of_ne (e : Engine σ) {i : InferenceId} (hi : i ≠ j) :
    (e.aside j).inferences i = e.inferences i :=
  setPhase_inferences_of_ne e (Ne.symm hi) _

/-! ## Changes that leave an inference alone -/

theorem blind_id : Blind j fun e : Engine σ => e := ⟨fun _ => rfl, fun _ => rfl⟩

theorem Blind.comp {f g : Engine σ → Engine σ} (hg : Blind j g) (hf : Blind j f) : Blind j fun e => g (f e) where
  aside e := by rw [hg.aside, hf.aside]
  same e := by rw [hg.same, hf.same]

/-- A change may be another one for every value of what it reads, if it is read beside the inference. -/
theorem Blind.of_reads {α : Type} {r : Engine σ → α} {f : Engine σ → Engine σ} (hr : ∀ e, r (e.aside j) = r e)
    (hf : ∀ a, ∃ g, Blind j g ∧ ∀ e, r e = a → f e = g e) : Blind j f where
  aside e := by
    obtain ⟨g, hg, hsame⟩ := hf (r e)
    rw [hsame e rfl, hsame _ (hr e), hg.aside]
  same e := by
    obtain ⟨g, hg, hsame⟩ := hf (r e)
    rw [hsame e rfl, hg.same]

theorem Blind.reads {α : Type} {r : Engine σ → α} {f : α → Engine σ → Engine σ} (hf : ∀ a, Blind j (f a))
    (hr : ∀ e, r (e.aside j) = r e) : Blind j fun e => f (r e) e :=
  .of_reads hr fun a => ⟨f a, hf a, fun e h => by rw [h]⟩

theorem blind_note (h : Happening) (hh : h.inference ≠ j) : Blind j fun e : Engine σ => e.note h where
  aside e := by simp [aside, note, setPhase, setInference, hh]
  same _ := rfl

theorem blind_setRequest (id : RequestId) (r : AsyncRequest) : Blind j fun e : Engine σ => e.setRequest id r :=
  ⟨fun _ => rfl, fun _ => rfl⟩

theorem blind_setExecutor (x : ExecutorId) (executor : Executor Task) :
    Blind j fun e : Engine σ => e.setExecutor x executor :=
  ⟨fun _ => rfl, fun _ => rfl⟩

theorem blind_state (change : σ → σ) : Blind j fun e : Engine σ => { e with state := change e.state } :=
  ⟨fun _ => rfl, fun _ => rfl⟩

theorem blind_setInference {id : InferenceId} (hid : id ≠ j) (i : Inference) :
    Blind j fun e : Engine σ => e.setInference id i where
  aside e := by
    have h : (((e.setInference id i).aside j).inferences) = ((e.aside j).setInference id i).inferences := by
      funext k
      by_cases hk : k = j
      · subst hk
        simp [aside, setPhase, setInference, Ne.symm hid]
      · simp [aside, setPhase, setInference, hk]
    show { e.aside j with inferences := ((e.setInference id i).aside j).inferences } = _
    rw [h]
    rfl
  same e := by simp [setInference, Ne.symm hid]

theorem blind_setPhase {id : InferenceId} (hid : id ≠ j) (phase : Phase) :
    Blind j fun e : Engine σ => e.setPhase id phase :=
  .reads (r := fun e => { e.inferences id with phase }) (f := fun i e => e.setInference id i)
    (blind_setInference hid) fun e => by rw [aside_inferences_of_ne e hid]

theorem blind_answer {t : Task} (ht : t.inference ≠ j) (reply : Reply) :
    Blind j fun e : Engine σ => e.answer t reply := by
  simp only [answer_eq]
  exact .reads (r := fun e => (e.inferences t.inference).phase.answered t.work.hop reply)
    (blind_setPhase ht) fun e => by rw [aside_inferences_of_ne e ht]

theorem blind_finish {id : InferenceId} (hid : id ≠ j) (phase : Phase) :
    Blind j fun e : Engine σ => e.finish id phase := by
  have hfree (rid : RequestId) : Blind j fun e : Engine σ =>
      e.setRequest rid { e.requests rid with inFlight := false } :=
    .reads (r := fun e => { e.requests rid with inFlight := false }) (f := fun r e => e.setRequest rid r)
      (blind_setRequest rid) fun _ => rfl
  have hended (rid : RequestId) : Blind j fun e : Engine σ =>
      ((e.setPhase id phase).setRequest rid { e.requests rid with inFlight := false }).note (.ended id) :=
    (blind_note (.ended id) hid).comp ((hfree rid).comp (blind_setPhase hid phase))
  exact .reads (r := fun e => (e.inferences id).request) hended fun e => by rw [aside_inferences_of_ne e hid]

theorem blind_logged {id : InferenceId} (hid : id ≠ j) (notice : Option Notice) :
    Blind j fun e : Engine σ => e.logged id notice := by
  cases notice with
  | none => exact blind_id
  | some notice => exact blind_note (.logged id notice) hid

structure BlindRun (j : InferenceId) (g : Engine σ → Engine σ × Bool) : Prop where
  fst : Blind j fun e => (g e).1
  snd : ∀ e, (g (e.aside j)).2 = (g e).2

theorem BlindRun.comp {g : Engine σ → Engine σ × Bool} {f : Engine σ → Engine σ} (hg : BlindRun j g)
    (hf : Blind j f) : BlindRun j fun e => g (f e) where
  fst := hg.fst.comp hf
  snd e := by rw [← hf.aside, hg.snd]

theorem BlindRun.of_reads {α : Type} {r : Engine σ → α} {f : Engine σ → Engine σ × Bool}
    (hr : ∀ e, r (e.aside j) = r e) (hf : ∀ a, ∃ g, BlindRun j g ∧ ∀ e, r e = a → f e = g e) : BlindRun j f where
  fst := .of_reads hr fun a =>
    have ⟨g, hg, hsame⟩ := hf a
    ⟨_, hg.fst, fun e h => by rw [hsame e h]⟩
  snd e := by
    obtain ⟨g, hg, hsame⟩ := hf (r e)
    rw [hsame e rfl, hsame _ (hr e), hg.snd]

theorem Blind.run {f : Engine σ → Engine σ} (hf : Blind j f) (brokeOff : Bool) :
    BlindRun j fun e => (f e, brokeOff) :=
  ⟨hf, fun _ => rfl⟩

theorem blind_marked (rid : RequestId) (outcome : Outcome Failure Unit) :
    Blind j fun e : Engine σ => e.marked rid outcome := by
  cases outcome with
  | panic =>
    exact .reads (r := fun e => { e.requests rid with poisoned := true }) (f := fun r e => e.setRequest rid r)
      (blind_setRequest rid) fun _ => rfl
  | _ => exact blind_id

theorem blindRun_runStages (stages : Stages σ) (order : List InferStage) {t : Task} (ht : t.inference ≠ j) :
    BlindRun j fun e => runStages stages order e t := by
  refine .of_reads (r := fun e => ((e.requests t.request).poisoned, stages.runEach order e.state)) (fun _ => rfl) ?_
  rintro ⟨poisoned, outcome, state⟩
  cases poisoned with
  | true =>
    refine ⟨_, (blind_answer ht (.delivered (.error (.infer .poisoned)))).run false, fun e hread => ?_⟩
    exact runStages_poisoned stages order (Prod.mk.inj hread).1
  | false =>
    have hran : Blind j fun e : Engine σ =>
        ({ e with state } : Engine σ).note (.ran t.request t.inference t.work.hop outcome) :=
      (blind_note (.ran t.request t.inference t.work.hop outcome) ht).comp (blind_state fun _ => state)
    have hanswered : Blind j fun e : Engine σ =>
        ((({ e with state } : Engine σ).note (.ran t.request t.inference t.work.hop outcome)).marked
          t.request outcome).answer t (replyOf outcome) :=
      (blind_answer ht (replyOf outcome)).comp ((blind_marked t.request outcome).comp hran)
    cases outcome with
    | panic =>
      refine ⟨_, hanswered.run true, fun e hread => ?_⟩
      exact runStages_eq stages order (Prod.mk.inj hread).1 (Prod.mk.inj hread).2
    | _ =>
      refine ⟨_, hanswered.run false, fun e hread => ?_⟩
      exact runStages_eq stages order (Prod.mk.inj hread).1 (Prod.mk.inj hread).2

theorem blindRun_runTask (stages : RequestId → Stages σ) {t : Task} (ht : t.inference ≠ j) :
    BlindRun j fun e => e.runTask stages t := by
  unfold runTask
  split
  · exact blindRun_runStages _ _ ht
  · exact blindRun_runStages _ _ ht
  · rename_i callback result _
    have hnoted : Blind j fun e : Engine σ => e.note (.called t.inference callback result) :=
      blind_note (.called t.inference callback result) ht
    simp only
    split
    · exact ((blind_answer ht .dropped).comp hnoted).run true
    · exact ((blind_answer ht (.delivered result)).comp hnoted).run false

theorem home_aside (e : Engine σ) (t : Task) : (e.aside j).home t = e.home t := rfl

theorem blind_queued (t : Task) : Blind j fun e : Engine σ => e.queued t :=
  ⟨fun _ => rfl, fun _ => rfl⟩

theorem blind_counted (x : ExecutorId) : Blind j fun e : Engine σ => e.counted x :=
  ⟨fun _ => rfl, fun _ => rfl⟩

theorem task_aside (e : Engine σ) {id : InferenceId} (hid : id ≠ j) (work : Work) :
    (e.aside j).task id work = e.task id work := by
  rw [task, task, aside_inferences_of_ne e hid]

theorem blind_handed {id : InferenceId} (hid : id ≠ j) (work : Work) :
    Blind j fun e : Engine σ => e.handed id work := by
  have hnoted (x : ExecutorId) : Blind j fun e : Engine σ =>
      (e.setPhase id (.awaiting work.hop .waiting)).note (.submitted id work.hop x) :=
    (blind_note (.submitted id work.hop x) hid).comp (blind_setPhase hid _)
  exact .reads (r := fun e => e.home (e.task id work)) hnoted fun e => by rw [task_aside e hid, home_aside]

theorem blind_taken {id : InferenceId} (hid : id ≠ j) : Blind j fun e : Engine σ => e.taken id := by
  have htaken (i : Inference) (r : AsyncRequest) : Blind j fun e : Engine σ =>
      (e.setRequest i.request { r with inFlight := true }).setInference id { i with token := r.token } :=
    (blind_setInference hid _).comp (blind_setRequest _ _)
  exact .reads (r := fun e => (e.inferences id, e.requests (e.inferences id).request)) (fun a => htaken a.1 a.2)
    fun e => by rw [aside_inferences_of_ne e hid]; rfl

theorem blind_cancel (rid : RequestId) : Blind j fun e : Engine σ => e.cancel rid := ⟨fun _ => rfl, fun _ => rfl⟩

theorem blind_setCallback (rid : RequestId) (callback : Callback) :
    Blind j fun e : Engine σ => e.setCallback rid callback :=
  ⟨fun _ => rfl, fun _ => rfl⟩

theorem blind_access (rid : RequestId) (change : σ → σ) :
    Blind j fun e => (e.access rid fun s => (.ok (), change s)).2 := by
  unfold access
  constructor
  · intro e
    have hpoisoned : ((e.aside j).requests rid).poisoned = (e.requests rid).poisoned := rfl
    simp only [hpoisoned]
    split <;> rfl
  · intro e
    split <;> rfl

theorem blind_abandon {id : InferenceId} (hid : id ≠ j) : Blind j fun e : Engine σ => e.abandon id := by
  refine .of_reads (r := fun e => (e.inferences id).phase) (fun e => by rw [aside_inferences_of_ne e hid]) ?_
  rintro (_ | _ | _ | _ | _)
  case created =>
    exact ⟨_, (blind_note (.ended id) hid).comp (blind_setPhase hid .abandoned),
      fun e h => by simp only [abandon, h]⟩
  case awaiting => exact ⟨_, blind_finish hid .abandoned, fun e h => by simp only [abandon, h]⟩
  all_goals exact ⟨_, blind_id, fun e h => by simp only [abandon, h]⟩

/-! ## Polling another inference -/

theorem blindRun_submit (stages : RequestId → Stages σ) {t : Task} (ht : t.inference ≠ j) (x : ExecutorId) :
    BlindRun j fun e => e.submit stages x t := by
  have hnoted : Blind j fun e : Engine σ => e.note (.submitted t.inference t.work.hop x) :=
    blind_note (.submitted t.inference t.work.hop x) ht
  refine .of_reads (r := fun e => e.executors x) (fun _ => rfl) fun executor => ?_
  cases hkind : executor.kind with
  | inline =>
    exact ⟨_, (blindRun_runTask stages ht).comp hnoted, fun e h => by simp only [submit, h, hkind]⟩
  | counting =>
    exact ⟨_, (blindRun_runTask stages ht).comp ((blind_setExecutor x _).comp hnoted),
      fun e h => by simp only [submit, h, hkind]; rfl⟩
  | parked =>
    exact ⟨_, ((blind_setExecutor x _).comp hnoted).run false, fun e h => by simp only [submit, h, hkind]; rfl⟩
  | pooled =>
    exact ⟨_, ((blind_setExecutor x _).comp hnoted).run false, fun e h => by simp only [submit, h, hkind]; rfl⟩
  | dropping =>
    exact ⟨_, ((blind_answer ht .dropped).comp hnoted).run false, fun e h => by simp only [submit, h, hkind]; rfl⟩

section

variable {i : InferenceId} (hi : i ≠ j)
include hi

theorem isTripped_aside (e : Engine σ) : (e.aside j).isTripped i = e.isTripped i := by
  unfold isTripped
  rw [aside_inferences_of_ne e hi]
  rfl

theorem look_aside (e : Engine σ) (preferReply : Bool) : (e.aside j).look preferReply i = e.look preferReply i := by
  unfold look
  rw [isTripped_aside hi, aside_inferences_of_ne e hi]
  rfl

/-- Whatever becomes of a hand-over, whoever goes on from there goes on beside the inference. -/
theorem blind_handOver (stages : RequestId → Stages σ) (work : Work) {f g : Engine σ → Engine σ} (hf : Blind j f)
    (hg : Blind j g) :
    Blind j fun e : Engine σ =>
      match e.handOver stages i work with
      | .refused => f e
      | .brokeOff e => e
      | .waiting e => g e := by
  -- Whether the work broke off is read from the run itself, and decides who goes on.
  have hcome {run : Engine σ → Engine σ × Bool} (hrun : BlindRun j run) : Blind j fun e : Engine σ =>
      match handedOver i (run e) with
      | .refused => f e
      | .brokeOff e => e
      | .waiting e => g e := by
    have hbroke (brokeOff : Bool) : Blind j fun e : Engine σ =>
        match handedOver i ((run e).1, brokeOff) with
        | .refused => f e
        | .brokeOff e => e
        | .waiting e => g e := by
      cases brokeOff with
      | false => exact hg.comp hrun.fst
      | true => exact (blind_finish hi .panicked).comp hrun.fst
    exact .reads (r := fun e => (run e).2) hbroke hrun.snd
  have hhanded (a : Bool × RequestId × ExecutorId) : Blind j fun e : Engine σ =>
      match (if a.1 then .refused
        else handedOver i ((e.setPhase i (.awaiting work.hop .waiting)).submit stages a.2.2 ⟨a.2.1, i, work⟩) :
          HandedOver σ) with
      | .refused => f e
      | .brokeOff e => e
      | .waiting e => g e := by
    obtain ⟨tripped, rid, x⟩ := a
    cases tripped with
    | true => exact hf
    | false => exact hcome ((blindRun_submit stages hi x).comp (blind_setPhase hi _))
  refine .reads (r := fun e => (e.isTripped i, (e.inferences i).request, e.home (e.task i work))) hhanded fun e => ?_
  rw [isTripped_aside hi, aside_inferences_of_ne e hi, task_aside e hi, home_aside]

theorem blind_settle (result : InferResult) : Blind j fun e : Engine σ => e.settle i result := blind_finish hi _

theorem blind_afterNotify (preferReply : Bool) : Blind j fun e : Engine σ => e.afterNotify preferReply i := by
  refine .of_reads (r := fun e => (e.look preferReply i, (e.inferences i).phase)) (fun e => ?_) ?_
  · rw [look_aside hi, aside_inferences_of_ne e hi]
  · rintro ⟨found, phase⟩
    cases found with
    | nothing => exact ⟨_, blind_id, fun e h => by simp only [afterNotify, (Prod.mk.inj h).1]⟩
    | cancelled =>
      exact ⟨_, blind_settle hi (.error .cancelled), fun e h => by simp only [afterNotify, (Prod.mk.inj h).1]⟩
    | result r =>
      by_cases hdelivered : ∃ hop result, phase = .awaiting hop (.delivered result)
      · obtain ⟨hop, result, rfl⟩ := hdelivered
        exact ⟨_, (blind_settle hi r).comp (blind_note (.logged i (.inferenceCompleted r.isOk)) hi),
          fun e h => by simp only [afterNotify, (Prod.mk.inj h).1, (Prod.mk.inj h).2]⟩
      · refine ⟨_, blind_settle hi r, fun e h => ?_⟩
        simp only [afterNotify, (Prod.mk.inj h).1, (Prod.mk.inj h).2]
        split
        · exact absurd ⟨_, _, rfl⟩ hdelivered
        · rfl

theorem blind_conclude (stages : RequestId → Stages σ) (preferReply : Bool) (result : InferResult) :
    Blind j fun e => e.conclude stages preferReply i result := by
  by_cases hcancelled : result = .error .cancelled
  · subst hcancelled
    simp only [conclude_cancelled]
    refine .reads (r := fun e => (e.executors (e.requests (e.inferences i).request).taskExecutor).name)
      (fun name => (blind_settle hi _).comp (blind_note (.logged i (.inferenceCancelled name)) hi)) fun e => ?_
    rw [aside_inferences_of_ne e hi]
    rfl
  · refine .of_reads (r := fun e => (e.requests (e.inferences i).request).callback) (fun e => ?_) fun callback => ?_
    · rw [aside_inferences_of_ne e hi]
      rfl
    · cases callback with
      | none =>
        exact ⟨_, (blind_settle hi result).comp (blind_note (.logged i (.inferenceCompleted result.isOk)) hi),
          fun e h => by simp only [conclude_of_ne hcancelled, h]⟩
      | some callback =>
        refine ⟨_, blind_handOver hi stages (.notify callback result) (blind_settle hi (.error .cancelled))
          (blind_afterNotify hi preferReply), fun e h => ?_⟩
        rw [conclude_of_ne hcancelled]
        exact h ▸ rfl

theorem blind_afterFinish (stages : RequestId → Stages σ) (preferReply : Bool) :
    Blind j fun e => e.afterFinish stages preferReply i := by
  refine .of_reads (r := fun e => e.look preferReply i) (fun e => look_aside hi e preferReply) fun found => ?_
  cases found with
  | nothing => exact ⟨_, blind_id, fun e h => by simp only [afterFinish, h]⟩
  | cancelled =>
    exact ⟨_, blind_conclude hi stages preferReply (.error .cancelled), fun e h => by simp only [afterFinish, h]⟩
  | result r => exact ⟨_, blind_conclude hi stages preferReply r, fun e h => by simp only [afterFinish, h]⟩

theorem blind_afterStart (stages : RequestId → Stages σ) (preferReply : Bool) :
    Blind j fun e => e.afterStart stages preferReply i := by
  refine .of_reads (r := fun e => e.look preferReply i) (fun e => look_aside hi e preferReply) ?_
  rintro (_ | _ | failure | ⟨⟨⟩⟩)
  case nothing => exact ⟨_, blind_id, fun e h => by simp only [afterStart, h]⟩
  case result.ok =>
    refine ⟨_, blind_handOver hi stages .finish (blind_conclude hi stages preferReply (.error .cancelled))
      (blind_afterFinish hi stages preferReply), fun e h => ?_⟩
    unfold afterStart
    exact h ▸ rfl
  case cancelled =>
    exact ⟨_, blind_conclude hi stages preferReply (.error .cancelled), fun e h => by simp only [afterStart, h]⟩
  case result.error =>
    exact ⟨_, blind_conclude hi stages preferReply (.error failure), fun e h => by simp only [afterStart, h]⟩

theorem blind_begin (stages : RequestId → Stages σ) (preferReply : Bool) :
    Blind j fun e => e.begin stages preferReply i := by
  refine .of_reads (r := fun e => (e.requests (e.inferences i).request).inFlight) (fun e => ?_) fun inFlight => ?_
  · rw [aside_inferences_of_ne e hi]
    rfl
  · cases inFlight with
    | false =>
      exact ⟨_, (blind_handOver hi stages .start (blind_conclude hi stages preferReply _)
        (blind_afterStart hi stages preferReply)).comp (blind_taken hi), fun e h => begin_of_free h preferReply⟩
    | true =>
      exact ⟨_, (blind_note (.ended i) hi).comp (blind_setPhase hi (.settled (.error .busy))),
        fun e h => by simp only [begin, h, if_true]⟩

theorem blind_poll (stages : RequestId → Stages σ) (preferReply : Bool) :
    Blind j fun e => e.poll stages preferReply i := by
  refine .of_reads (r := fun e => (e.inferences i).phase) (fun e => by rw [aside_inferences_of_ne e hi]) ?_
  rintro (_ | ⟨_ | _ | _, _⟩ | _ | _ | _)
  case created => exact ⟨_, blind_begin hi stages preferReply, fun e h => by simp only [poll, h]⟩
  case awaiting.start => exact ⟨_, blind_afterStart hi stages preferReply, fun e h => by simp only [poll, h]⟩
  case awaiting.finish => exact ⟨_, blind_afterFinish hi stages preferReply, fun e h => by simp only [poll, h]⟩
  case awaiting.notify => exact ⟨_, blind_afterNotify hi preferReply, fun e h => by simp only [poll, h]⟩
  all_goals exact ⟨_, blind_id, fun e h => by simp only [poll, h]⟩

end

end Engine

end DevicePlugin
