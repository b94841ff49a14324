import DevicePlugin.Proofs.Request.Solo
import DevicePlugin.Proofs.Request.Twins

/-!
# Nothing but its own

A request can do without the others what it does to an engine: a task of it that runs,
and an inference of it that is polled, come to the same when every other request is
taken away before.
-/

namespace DevicePlugin

namespace Engine

def soloStages : RequestId → Stages Solo := fun _ => Solo.stages

open Shared (stages)

variable {e e' : Engine Shared} {rid : RequestId} {n : Nat} {i : InferenceId}

/-! ## Its own tasks -/

section

variable (h : (e.own rid)[n]? = some i) (work : Work)
include h

theorem solo_answer (reply : Reply) :
    (e.answer ⟨rid, i, work⟩ reply).solo rid = (e.solo rid).answer ⟨rid, n, work⟩ reply := by
  rw [answer_eq, answer_eq, solo_setPhase h, solo_inferences h]

theorem solo_runStages (hpure : e.state.Pure) (order : List InferStage) :
    runStages Solo.stages order (e.solo rid) ⟨rid, n, work⟩ =
      ((runStages (stages rid) order e ⟨rid, i, work⟩).1.solo rid,
        (runStages (stages rid) order e ⟨rid, i, work⟩).2) := by
  have hrequests := solo_requests e rid
  cases hpoisoned : (e.requests rid).poisoned with
  | true =>
    have hpoisoned' : ((e.solo rid).requests rid).poisoned = true := by rw [hrequests, hpoisoned]
    rw [runStages_poisoned _ _ hpoisoned', runStages_poisoned _ _ hpoisoned, solo_answer h]
  | false =>
    have hsolo := Shared.runEach_solo hpure rid order
    generalize hrun : (stages rid).runEach order e.state = run at hsolo
    obtain ⟨outcome, state⟩ := run
    let next : Engine Shared := ({ e with state } : Engine Shared).note (.ran rid i work.hop outcome)
    have hnext : next.solo rid =
        ({ e.solo rid with state := state.solo rid } : Engine Solo).note (.ran rid n work.hop outcome) := by
      have hstate : (({ e with state } : Engine Shared).own rid)[n]? = some i := h
      exact solo_note hstate rfl
    have hmarked : (next.marked rid outcome).solo rid = (next.solo rid).marked rid outcome := by
      cases outcome with
      | ok value => rfl
      | error failure => rfl
      | panic => exact (solo_setRequest next _).trans (by rw [marked, solo_requests])
    have hown : ((next.marked rid outcome).own rid)[n]? = some i := by
      cases outcome <;> exact h
    have hpoisoned' : ((e.solo rid).requests rid).poisoned = false := by rw [hrequests, hpoisoned]
    rw [runStages_eq _ _ hpoisoned' hsolo, runStages_eq _ _ hpoisoned hrun, solo_answer hown, hmarked, hnext]
    cases outcome <;> rfl

theorem solo_runTask (hpure : e.state.Pure) :
    (e.solo rid).runTask soloStages ⟨rid, n, work⟩ =
      ((e.runTask stages ⟨rid, i, work⟩).1.solo rid, (e.runTask stages ⟨rid, i, work⟩).2) := by
  unfold runTask
  cases work with
  | start => exact solo_runStages h _ hpure _
  | finish => exact solo_runStages h _ hpure _
  | notify callback result =>
    have hnote : (e.note (.called i callback result)).solo rid = (e.solo rid).note (.called n callback result) :=
      solo_note h rfl
    have hown : ((e.note (.called i callback result)).own rid)[n]? = some i := h
    simp only
    rw [← hnote]
    split
    · rw [solo_answer hown]
    · rw [solo_answer hown]

theorem solo_queued (x : ExecutorId) :
    (e.setExecutor x { e.executors x with queue := (e.executors x).queue ++ [⟨rid, i, work⟩] }).solo rid =
      (e.solo rid).setExecutor x
        { (e.solo rid).executors x with queue := ((e.solo rid).executors x).queue ++ [⟨rid, n, work⟩] } := by
  rw [solo_setExecutor]
  congr 1
  simp [Executor.solo, solo, Task.numbered, List.filter_append, idxOf_own h]

theorem solo_submit (hpure : e.state.Pure) (x : ExecutorId) :
    (e.solo rid).submit soloStages x ⟨rid, n, work⟩ =
      ((e.submit stages x ⟨rid, i, work⟩).1.solo rid, (e.submit stages x ⟨rid, i, work⟩).2) := by
  let noted := e.note (.submitted i work.hop x)
  have hnote : noted.solo rid = (e.solo rid).note (.submitted n work.hop x) := solo_note h rfl
  have hown : (noted.own rid)[n]? = some i := h
  have hkind' : ((e.solo rid).executors x).kind =
      if (e.executors x).kind = .counting then .inline else (e.executors x).kind := rfl
  cases hkind : (e.executors x).kind with
  | inline =>
    rw [hkind, if_neg (by decide)] at hkind'
    rw [submit_inline hkind', submit_inline hkind, ← hnote]
    exact solo_runTask hown work hpure
  | counting =>
    have hcounted : (noted.counted x).solo rid = noted.solo rid := solo_setExecutor_same rfl
    rw [hkind, if_pos rfl] at hkind'
    rw [submit_inline hkind', submit_counting hkind, ← hnote, ← hcounted]
    exact solo_runTask (e := noted.counted x) h work hpure
  | parked =>
    rw [hkind, if_neg (by decide)] at hkind'
    rw [submit_kept (.inl hkind'), submit_kept (.inl hkind), ← hnote]
    exact congrArg (·, false) (solo_queued hown work x).symm
  | pooled =>
    rw [hkind, if_neg (by decide)] at hkind'
    rw [submit_kept (.inr hkind'), submit_kept (.inr hkind), ← hnote]
    exact congrArg (·, false) (solo_queued hown work x).symm
  | dropping =>
    rw [hkind, if_neg (by decide)] at hkind'
    rw [submit_dropping hkind', submit_dropping hkind, ← hnote]
    exact congrArg (·, false) (solo_answer hown work .dropped).symm

end

/-! ## Its own polls -/

section

variable (h : (e.own rid)[n]? = some i)
include h

theorem solo_finish (phase : Phase) : (e.finish i phase).solo rid = (e.solo rid).finish n phase := by
  have hrid := request_own h
  let freed := (e.setPhase i phase).setRequest rid { e.requests rid with inFlight := false }
  have hown : (freed.own rid)[n]? = some i := (own_setPhase e i phase rid).symm ▸ h
  have hnote : (freed.note (.ended i)).solo rid = (freed.solo rid).note (.ended n) := solo_note hown rfl
  rw [solo_setRequest, solo_setPhase h] at hnote
  unfold finish
  simp only [hrid, solo_request h, solo_requests]
  exact hnote

theorem solo_logged (notice : Notice) (phase : Phase) :
    ((e.note (.logged i notice)).finish i phase).solo rid = ((e.solo rid).note (.logged n notice)).finish n phase := by
  have hlogged : (e.note (.logged i notice)).solo rid = (e.solo rid).note (.logged n notice) := solo_note h rfl
  have hown : ((e.note (.logged i notice)).own rid)[n]? = some i := h
  rw [solo_finish hown, hlogged]

theorem solo_ended (phase : Phase) :
    ((e.setPhase i phase).note (.ended i)).solo rid = ((e.solo rid).setPhase n phase).note (.ended n) := by
  have hended : ((e.setPhase i phase).own rid)[n]? = some i := (own_setPhase e i phase rid).symm ▸ h
  have hnote : ((e.setPhase i phase).note (.ended i)).solo rid = ((e.setPhase i phase).solo rid).note (.ended n) :=
    solo_note hended rfl
  rw [hnote, solo_setPhase h]

theorem solo_isTripped : (e.solo rid).isTripped n = e.isTripped i := by
  simp only [isTripped, solo_inferences h, request_own h, solo_requests]

theorem solo_look (preferReply : Bool) : (e.solo rid).look preferReply n = e.look preferReply i := by
  have hname (x : ExecutorId) : ((e.solo rid).executors x).name = (e.executors x).name := rfl
  simp only [look, solo_isTripped h, solo_inferences h, request_own h, solo_requests, hname]

theorem solo_afterNotify (preferReply : Bool) :
    (e.afterNotify preferReply i).solo rid = (e.solo rid).afterNotify preferReply n := by
  unfold afterNotify
  rw [solo_look h, solo_inferences h]
  split
  · rfl
  · exact solo_finish h _
  · split
    · exact solo_logged h _ _
    · exact solo_finish h _

end

theorem pure_moves {c c' : Engine Shared × Option Task} (h : Moves stages c c') (hpure : c.1.state.Pure) :
    c'.1.state.Pure := by
  induction h with
  | refl => exact hpure
  | tail _ hmove ih =>
    have hturn : Turn stages (fun _ => False) _ _ := .move hmove
    rcases hturn.state with hsame | ⟨t, -, hran⟩ | ⟨-, -, hnever, -⟩
    · rwa [hsame]
    · rw [hran]
      exact ih.congr (Shared.runEach_frame t.request _ _).2
    · exact hnever.elim

/-- The inference is the one of that number among those of its request, and backends do not count. -/
structure Owns (rid : RequestId) (n : Nat) (i : InferenceId) (e : Engine Shared) : Prop where
  own : (e.own rid)[n]? = some i
  pure : e.state.Pure

theorem Owns.moves {c c' : Engine Shared × Option Task} (h : Owns rid n i c.1) (hm : Moves stages c c') :
    Owns rid n i c'.1 :=
  ⟨(own_moves hm rid).symm ▸ h.own, pure_moves hm h.pure⟩

def HandedOver.map {σ τ : Type} (f : Engine σ → Engine τ) : HandedOver σ → HandedOver τ
  | .refused => .refused
  | .waiting e => .waiting (f e)
  | .brokeOff e => .brokeOff (f e)

namespace Owns

variable (h : Owns rid n i e) (preferReply : Bool)
include h

theorem note (happening : Happening) : Owns rid n i (e.note happening) := ⟨h.own, h.pure⟩

theorem setPhase (phase : Phase) : Owns rid n i (e.setPhase i phase) :=
  ⟨(own_setPhase e i phase rid).symm ▸ h.own, h.pure⟩

theorem taken : Owns rid n i (e.taken i) := ⟨(own_taken e i rid).symm ▸ h.own, h.pure⟩

theorem waiting {work : Work} (heq : e.handOver stages i work = .waiting e') : Owns rid n i e' := by
  have hhand := handOver_moves stages e i work
  rw [heq] at hhand
  obtain ⟨-, hmoves, -, -⟩ := hhand
  have hhanded : Owns rid n i (e.handed i work) := (h.setPhase _).note _
  exact hhanded.moves (c := (e.handed i work, some (e.task i work))) hmoves

theorem solo_handOver (work : Work) :
    (e.solo rid).handOver soloStages n work = (e.handOver stages i work).map (·.solo rid) := by
  have hrid := request_own h.own
  have htask : (e.solo rid).task n work = ⟨rid, n, work⟩ := by rw [task, solo_request h.own]
  have htask' : e.task i work = ⟨rid, i, work⟩ := by rw [task, hrid]
  have hhome : (e.solo rid).home ⟨rid, n, work⟩ = e.home ⟨rid, i, work⟩ := by simp only [home, solo_requests]
  let t : Task := ⟨rid, i, work⟩
  let waits := e.setPhase i (.awaiting work.hop .waiting)
  have hwaits : Owns rid n i waits := h.setPhase _
  rw [handOver_eq, handOver_eq, solo_isTripped h.own, htask, htask', hhome, ← solo_setPhase h.own,
    solo_submit hwaits.own work hwaits.pure]
  have hphase : (waits.inferences i).phase = .awaiting work.hop .waiting := by simp [waits]
  have hmoves := (submit_moves stages (t := t) hphase).1
  have hsubmitted : Owns rid n i (waits.submit stages (waits.home t) t).1 :=
    (hwaits.note _).moves (c := (waits.note _, some t)) hmoves
  split
  · rfl
  · show handedOver n ((waits.submit stages (waits.home t) t).1.solo rid, (waits.submit stages (waits.home t) t).2) =
      (handedOver i (waits.submit stages (waits.home t) t)).map (·.solo rid)
    generalize waits.submit stages (waits.home t) t = submitted at hsubmitted
    obtain ⟨next, broke⟩ := submitted
    cases broke with
    | false => rfl
    | true => exact congrArg HandedOver.brokeOff (solo_finish hsubmitted.own _).symm

theorem solo_conclude (result : InferResult) :
    (e.conclude stages preferReply i result).solo rid =
      (e.solo rid).conclude soloStages preferReply n result := by
  by_cases hcancelled : result = .error .cancelled
  · subst hcancelled
    have hname (x : ExecutorId) : ((e.solo rid).executors x).name = (e.executors x).name := rfl
    rw [conclude_cancelled, conclude_cancelled, request_own h.own, solo_request h.own, solo_requests, hname]
    exact solo_logged h.own _ _
  · rw [conclude_of_ne hcancelled, conclude_of_ne hcancelled, request_own h.own, solo_request h.own, solo_requests]
    cases (e.requests rid).callback with
    | none => exact solo_logged h.own _ _
    | some callback =>
      simp only [h.solo_handOver]
      cases heq : e.handOver stages i (.notify callback result) with
      | refused => exact solo_finish h.own _
      | waiting e' => exact solo_afterNotify (h.waiting heq).own preferReply
      | brokeOff e' => rfl

theorem solo_afterFinish :
    (e.afterFinish stages preferReply i).solo rid = (e.solo rid).afterFinish soloStages preferReply n := by
  unfold afterFinish
  rw [solo_look h.own]
  split
  · rfl
  · exact h.solo_conclude preferReply _
  · exact h.solo_conclude preferReply _

theorem solo_afterStart :
    (e.afterStart stages preferReply i).solo rid = (e.solo rid).afterStart soloStages preferReply n := by
  unfold afterStart
  rw [solo_look h.own]
  split
  · rfl
  · exact h.solo_conclude preferReply _
  · exact h.solo_conclude preferReply _
  · rw [h.solo_handOver]
    cases heq : e.handOver stages i .finish with
    | refused => exact h.solo_conclude preferReply _
    | waiting e' => exact (h.waiting heq).solo_afterFinish preferReply
    | brokeOff e' => rfl

theorem solo_taken : (e.taken i).solo rid = (e.solo rid).taken n := by
  have hrid := request_own h.own
  let held := e.setRequest rid { e.requests rid with inFlight := true }
  have hown : (held.own rid)[n]? = some i := h.own
  unfold Engine.taken
  simp only [solo_inferences h.own, hrid, solo_requests]
  rw [solo_setInference hown rfl, solo_setRequest]

theorem solo_begin : (e.begin stages preferReply i).solo rid = (e.solo rid).begin soloStages preferReply n := by
  have hrid := request_own h.own
  cases hflight : (e.requests (e.inferences i).request).inFlight with
  | true =>
    have hflight' : ((e.solo rid).requests ((e.solo rid).inferences n).request).inFlight = true := by
      rw [solo_request h.own, solo_requests, ← hrid, hflight]
    rw [begin_of_busy stages hflight, begin_of_busy soloStages hflight', solo_ended h.own]
  | false =>
    have hflight' : ((e.solo rid).requests ((e.solo rid).inferences n).request).inFlight = false := by
      rw [solo_request h.own, solo_requests, ← hrid, hflight]
    rw [begin_of_free hflight, begin_of_free hflight', ← h.solo_taken, h.taken.solo_handOver]
    cases heq : (e.taken i).handOver stages i .start with
    | refused => exact h.taken.solo_conclude preferReply _
    | waiting e' => exact (h.taken.waiting heq).solo_afterStart preferReply
    | brokeOff e' => rfl

theorem solo_poll : (e.poll stages preferReply i).solo rid = (e.solo rid).poll soloStages preferReply n := by
  unfold poll
  rw [solo_inferences h.own]
  split
  · exact h.solo_begin preferReply
  · exact h.solo_afterStart preferReply
  · exact h.solo_afterFinish preferReply
  · exact solo_afterNotify h.own preferReply
  · rfl

end Owns

end Engine

end DevicePlugin
