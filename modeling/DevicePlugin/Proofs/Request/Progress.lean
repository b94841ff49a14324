import DevicePlugin.Proofs.Request.Sound

/-!
# Inferences come to their end

An inference that waits for a task has that task on its way, so it is never stuck.
Running the task answers it, and an inference that was answered goes on when it is
polled. It cannot go on for ever, since no hop comes twice.
-/

namespace DevicePlugin

/-- At most so many tasks and answers are still to come. -/
def Phase.rank : Phase → Nat
  | .created => 7
  | .awaiting .start .waiting => 6
  | .awaiting .start _ => 5
  | .awaiting .finish .waiting => 4
  | .awaiting .finish _ => 3
  | .awaiting .notify .waiting => 2
  | .awaiting .notify _ => 1
  | _ => 0

theorem Phase.isOpen_of_rank_eq_zero {phase : Phase} (h : phase.rank = 0) : phase.isOpen = false := by
  cases phase with
  | created => cases h
  | awaiting hop reply => cases hop <;> cases reply <;> cases h
  | settled result => rfl
  | panicked => rfl
  | abandoned => rfl

theorem Phase.rank_awaiting_lt (hop : Hop) {reply : Reply} (h : reply ≠ .waiting) :
    (Phase.awaiting hop reply).rank < (Phase.awaiting hop .waiting).rank := by
  cases reply with
  | waiting => exact absurd rfl h
  | delivered result => cases hop <;> simp [rank]
  | dropped => cases hop <;> simp [rank]

theorem Phase.awaiting_of_answered {hop hop' : Hop} {reply : Reply} {phase : Phase} (hreply : reply ≠ .waiting)
    (h : phase.answered hop reply = .awaiting hop' .waiting) : phase = .awaiting hop' .waiting ∧ hop' ≠ hop := by
  unfold answered at h
  split at h
  · split at h
    · cases h
      exact absurd rfl hreply
    · rename_i hne
      cases h
      exact ⟨rfl, hne⟩
  · rename_i hphase
    exact absurd h (hphase hop')

namespace Engine

variable {σ : Type}

/-! ## Tasks that are waited for -/

def Awaited (e : Engine σ) (hand : Option Task) : Prop :=
  ∀ id < e.started, ∀ hop, (e.inferences id).phase = .awaiting hop .waiting →
    ∃ t, e.Holds hand t ∧ t.inference = id ∧ t.work.hop = hop

namespace Awaited

variable {e e' : Engine σ} {hand : Option Task}

theorem congr (h : Awaited e hand) (hstarted : e'.started = e.started)
    (hphase : ∀ i, (e'.inferences i).phase = (e.inferences i).phase)
    (hqueue : ∀ x, (e'.executors x).queue = (e.executors x).queue) : Awaited e' hand := by
  intro id hid hop hwaiting
  rw [hstarted] at hid
  rw [hphase] at hwaiting
  obtain ⟨t, ht, hinference, hhop⟩ := h id hid hop hwaiting
  refine ⟨t, ?_, hinference, hhop⟩
  simp only [Holds, hqueue]
  exact ht

theorem alike (h : Awaited e hand) (halike : Alike e e') : Awaited e' hand :=
  h.congr halike.started (fun i => by rw [halike.inferences]) halike.queue

theorem setPhase (h : Awaited e hand) {id : InferenceId} {phase : Phase}
    (hphase : ∀ hop, phase ≠ .awaiting hop .waiting) : Awaited (e.setPhase id phase) hand := by
  intro i hi hop hwaiting
  rw [setPhase_inferences] at hwaiting
  split at hwaiting
  · exact absurd hwaiting (hphase hop)
  · exact h i hi hop hwaiting

theorem answer {t : Task} (h : Awaited e (some t)) {reply : Reply} (hreply : reply ≠ .waiting) :
    Awaited (e.answer t reply) none := by
  rw [answer_eq]
  intro id hid hop hwaiting
  -- The inference that waits is another one, or waits for another hop.
  have hother : (e.inferences id).phase = .awaiting hop .waiting ∧ (t.inference = id → hop ≠ t.work.hop) := by
    rw [setPhase_inferences] at hwaiting
    split at hwaiting
    · rename_i heq
      rw [heq]
      obtain ⟨hphase, hne⟩ := Phase.awaiting_of_answered hreply hwaiting
      exact ⟨hphase, fun _ => hne⟩
    · rename_i hne
      exact ⟨hwaiting, fun heq => absurd heq.symm hne⟩
  obtain ⟨hphase, hne⟩ := hother
  obtain ⟨t', ht' | ht', hinference, hhop⟩ := h id hid hop hphase
  · cases ht'
    exact absurd hhop.symm (hne hinference)
  · exact ⟨t', .inr ht', hinference, hhop⟩

theorem take {x : ExecutorId} {position : Nat} {t : Task} (h : Awaited e none)
    (htake : e.takeTask x position = some (t, e')) : Awaited e' (some t) := by
  unfold takeTask at htake
  obtain ⟨_, hget, heq⟩ := Option.map_eq_some_iff.mp htake
  cases heq
  intro id hid hop hwaiting
  obtain ⟨t', ht', hinference, hhop⟩ := h id hid hop hwaiting
  obtain ⟨y, hy⟩ := holds_none.mp ht'
  refine ⟨t', ?_, hinference, hhop⟩
  by_cases hyx : y = x
  · subst hyx
    obtain ⟨i, hi⟩ := List.mem_iff_getElem?.mp hy
    by_cases hposition : i = position
    · rw [hposition, hget] at hi
      exact .inl hi
    · refine .inr ⟨y, mem_queue_setExecutor.mpr (.inl ⟨rfl, ?_⟩)⟩
      exact List.mem_eraseIdx_iff_getElem?.mpr ⟨i, hposition, hi⟩
  · exact .inr ⟨y, mem_queue_setExecutor.mpr (.inr ⟨hyx, hy⟩)⟩

theorem queued {t : Task} (h : Awaited e (some t)) : Awaited (e.queued t) none := by
  intro id hid hop hwaiting
  obtain ⟨t', ht', hinference, hhop⟩ := h id hid hop hwaiting
  refine ⟨t', .inr ?_, hinference, hhop⟩
  simp only [Engine.queued, mem_queue_setExecutor, List.mem_append, List.mem_singleton]
  rcases ht' with ht' | ⟨x, ht'⟩
  · cases ht'
    exact ⟨e.home t, .inl ⟨rfl, .inr rfl⟩⟩
  · by_cases hx : x = e.home t
    · subst hx
      exact ⟨_, .inl ⟨rfl, .inl ht'⟩⟩
    · exact ⟨x, .inr ⟨hx, ht'⟩⟩

theorem handed (h : Awaited e none) (id : InferenceId) (work : Work) :
    Awaited (e.handed id work) (some (e.task id work)) := by
  intro i hi hop hwaiting
  by_cases hid : i = id
  · subst hid
    have hphase : ((e.handed i work).inferences i).phase = .awaiting work.hop .waiting := by
      simp [Engine.handed, note]
    rw [hphase] at hwaiting
    cases hwaiting
    exact ⟨e.task i work, .inl rfl, rfl, rfl⟩
  · have hphase : ((e.handed id work).inferences i).phase = (e.inferences i).phase := by
      simp [Engine.handed, note, hid]
    rw [hphase] at hwaiting
    obtain ⟨t, ht, hinference, hhop⟩ := h i hi hop hwaiting
    exact ⟨t, .inr (holds_none.mp ht), hinference, hhop⟩

theorem finish (h : Awaited e hand) {id : InferenceId} {phase : Phase}
    (hphase : ∀ hop, phase ≠ .awaiting hop .waiting) : Awaited (e.finish id phase) hand := by
  have hended : Awaited (e.setPhase id phase) hand := h.setPhase hphase
  exact hended.congr rfl (fun _ => rfl) (fun _ => rfl)

theorem move {stages : RequestId → Stages σ} {c c' : Engine σ × Option Task} (hm : Move stages c c')
    (h : Awaited c.1 c.2) : Awaited c'.1 c'.2 := by
  cases hm with
  | take htake => exact h.take htake
  | queue _ => exact h.queued
  | count => exact h.alike (alike_count _ _ _)
  | lose _ => exact h.answer (by simp)
  | @run e t =>
    obtain ⟨e', reply, halike, hreply, heq, -⟩ := runTask_answers stages e t
    simp only [heq]
    exact (h.alike halike).answer hreply
  | @busy e id _ _ _ =>
    have hended : Awaited (e.setPhase id (.settled (.error .busy))) none := h.setPhase (by simp)
    exact hended.alike (alike_note _ _)
  | @begin e id _ _ _ =>
    have htaken : Awaited (e.taken id) none := by
      refine h.congr rfl ?_ fun _ => rfl
      intro i
      simp only [taken, setRequest, setInference]
      split
      · rename_i hi
        rw [hi]
      · rfl
    have htask : (e.taken id).task id .start = e.task id .start := by
      simp [task, taken, setRequest, setInference]
    have hawaited := htaken.handed id .start
    rwa [htask] at hawaited
  | hand _ _ _ => exact h.handed _ _
  | @settle e id result notice _ _ =>
    have hlogged : Awaited (e.logged id notice) none := by
      cases notice with
      | none => exact h
      | some notice => exact h.alike (alike_note _ _)
    exact hlogged.finish (by simp)
  | breakOff _ _ => exact h.finish (by simp)

theorem moves {stages : RequestId → Stages σ} {c c' : Engine σ × Option Task} (hm : Moves stages c c')
    (h : Awaited c.1 c.2) : Awaited c'.1 c'.2 := by
  induction hm with
  | refl => exact h
  | tail _ hmove ih => exact ih.move hmove

theorem step (h : Awaited e none) (hs : Sound e none) (stages : RequestId → Stages σ) (s : Step σ) :
    Awaited (e.step stages s) none := by
  cases s with
  | infer rid =>
    intro id hid hop hwaiting
    simp only [Engine.step, infer, setInference] at hid hwaiting
    split at hwaiting
    · cases hwaiting
    · rename_i hne
      exact h id (Nat.lt_of_le_of_ne (Nat.le_of_lt_succ hid) hne) hop hwaiting
  | poll id preferReply =>
    simp only [Engine.step]
    split
    · rename_i hid
      exact moves (poll_moves stages hid (hs.token_fresh _) preferReply) h
    · exact h
  | abandon id =>
    simp only [Engine.step]
    split
    · unfold abandon
      split
      · have hended : Awaited (e.setPhase id .abandoned) none := h.setPhase (by simp)
        exact hended.alike (alike_note _ _)
      · exact h.finish (by simp)
      · exact h
    · exact h
  | cancel rid => exact h.congr rfl (fun _ => rfl) fun _ => rfl
  | setCallback rid callback => exact h.congr rfl (fun _ => rfl) fun _ => rfl
  | runQueued x position => exact moves (runQueued_moves stages e x position) h
  | dropQueued x position =>
    simp only [Engine.step, dropQueued]
    split
    · exact h
    · rename_i t e' htake
      exact (h.take htake).answer (by simp)
  | access rid change =>
    simp only [Engine.step, access]
    split
    · exact h
    · exact h.congr rfl (fun _ => rfl) fun _ => rfl

theorem steps (h : Awaited e none) (hs : Sound e none) (stages : RequestId → Stages σ)
    (history : List (Step σ)) : Awaited (e.steps stages history) none := by
  induction history generalizing e with
  | nil => exact h
  | cons s history ih => exact ih (h.step hs stages s) (hs.step stages s)

end Awaited

theorem Reachable.awaited {stages : RequestId → Stages σ} {e : Engine σ} (h : Reachable stages e) :
    Awaited e none := by
  obtain ⟨start, history, hnew, rfl⟩ := h
  have hstart : Awaited start none := by
    intro id hid
    rw [hnew.started] at hid
    cases hid
  exact hstart.steps hnew.sound stages history

/-! ## Going on -/

theorem Moves.started {stages : RequestId → Stages σ} {c c' : Engine σ × Option Task} (hm : Moves stages c c') :
    c'.1.started = c.1.started := by
  induction hm with
  | refl => rfl
  | tail _ hmove ih => exact hmove.inferences.1.trans ih

variable (stages : RequestId → Stages σ)

theorem finish_phase (e : Engine σ) (id : InferenceId) (phase : Phase) :
    ((e.finish id phase).inferences id).phase = phase := by
  simp [finish, note, setRequest]

theorem handOver_phase (e : Engine σ) (id : InferenceId) (work : Work) :
    match e.handOver stages id work with
    | .refused => True
    | .waiting e' => ∃ reply, (e'.inferences id).phase = .awaiting work.hop reply
    | .brokeOff e' => (e'.inferences id).phase = .panicked := by
  have hhand := handOver_moves stages e id work
  cases heq : e.handOver stages id work with
  | refused => trivial
  | waiting e' =>
    rw [heq] at hhand
    exact hhand.2.2.2
  | brokeOff e' =>
    rw [heq] at hhand
    obtain ⟨-, e'', -, -, -, rfl⟩ := hhand
    exact finish_phase e'' id .panicked

theorem afterNotify_rank {e : Engine σ} {id : InferenceId} {reply : Reply}
    (hphase : (e.inferences id).phase = .awaiting .notify reply) (preferReply : Bool) :
    reply = .waiting ∧ e.afterNotify preferReply id = e ∨
      ((e.afterNotify preferReply id).inferences id).phase.rank = 0 := by
  have hlook := look_spec hphase preferReply
  have hsettled (e : Engine σ) (result : InferResult) : ((e.settle id result).inferences id).phase.rank = 0 := by
    rw [settle, finish_phase]
    rfl
  unfold afterNotify
  split
  · rename_i heq
    rw [heq] at hlook
    exact .inl ⟨hlook, rfl⟩
  · exact .inr (hsettled _ _)
  · split <;> exact .inr (hsettled _ _)

theorem conclude_rank (e : Engine σ) (id : InferenceId) (result : InferResult) (preferReply : Bool) :
    ((e.conclude stages preferReply id result).inferences id).phase.rank ≤ 2 := by
  have hsettled (e : Engine σ) (result : InferResult) : ((e.settle id result).inferences id).phase.rank ≤ 2 := by
    rw [settle, finish_phase]
    exact Nat.zero_le 2
  unfold conclude
  by_cases hcancelled : result = .error .cancelled
  · subst hcancelled
    exact hsettled _ _
  · simp only
    split
    · exact hsettled _ _
    · split
      · exact hsettled _ _
      · rename_i callback hcallback
        have hhand := handOver_phase stages e id (.notify callback result)
        split
        · exact hsettled _ _
        · rename_i e' heq
          rw [heq] at hhand
          rw [hhand]
          exact Nat.zero_le 2
        · rename_i e' heq
          rw [heq] at hhand
          obtain ⟨reply, hphase⟩ := hhand
          rcases afterNotify_rank hphase preferReply with ⟨rfl, hsame⟩ | hrank
          · rw [hsame, hphase]
            exact Nat.le_refl 2
          · rw [hrank]
            exact Nat.zero_le 2

theorem afterFinish_rank {e : Engine σ} {id : InferenceId} {reply : Reply}
    (hphase : (e.inferences id).phase = .awaiting .finish reply) (preferReply : Bool) :
    reply = .waiting ∧ e.afterFinish stages preferReply id = e ∨
      ((e.afterFinish stages preferReply id).inferences id).phase.rank ≤ 2 := by
  have hlook := look_spec hphase preferReply
  unfold afterFinish
  split
  · rename_i heq
    rw [heq] at hlook
    exact .inl ⟨hlook, rfl⟩
  · exact .inr (conclude_rank stages _ _ _ _)
  · exact .inr (conclude_rank stages _ _ _ _)

theorem afterStart_rank {e : Engine σ} {id : InferenceId} {reply : Reply}
    (hphase : (e.inferences id).phase = .awaiting .start reply) (preferReply : Bool) :
    reply = .waiting ∧ e.afterStart stages preferReply id = e ∨
      ((e.afterStart stages preferReply id).inferences id).phase.rank ≤ 4 := by
  have hlook := look_spec hphase preferReply
  have hconclude (result : InferResult) :
      ((e.conclude stages preferReply id result).inferences id).phase.rank ≤ 4 :=
    Nat.le_trans (conclude_rank stages e id result preferReply) (by decide)
  unfold afterStart
  split
  · rename_i heq
    rw [heq] at hlook
    exact .inl ⟨hlook, rfl⟩
  · exact .inr (hconclude _)
  · exact .inr (hconclude _)
  · right
    have hhand := handOver_phase stages e id .finish
    split
    · exact hconclude _
    · rename_i e' heq
      rw [heq] at hhand
      rw [hhand]
      exact Nat.zero_le 4
    · rename_i e' heq
      rw [heq] at hhand
      obtain ⟨reply, hphase'⟩ := hhand
      rcases afterFinish_rank stages hphase' preferReply with ⟨rfl, hsame⟩ | hrank
      · rw [hsame, hphase']
        exact Nat.le_refl 4
      · exact Nat.le_trans hrank (by decide)

theorem begin_rank (e : Engine σ) (id : InferenceId) (preferReply : Bool) :
    ((e.begin stages preferReply id).inferences id).phase.rank ≤ 6 := by
  unfold begin
  simp only
  split
  · simp [note, Phase.rank]
  · have hhand := handOver_phase stages (e.taken id) id .start
    unfold taken at hhand
    split
    · exact Nat.le_trans (conclude_rank stages _ _ _ _) (by decide)
    · rename_i e' heq
      rw [heq] at hhand
      rw [hhand]
      exact Nat.zero_le 6
    · rename_i e' heq
      rw [heq] at hhand
      obtain ⟨reply, hphase⟩ := hhand
      rcases afterStart_rank stages hphase preferReply with ⟨rfl, hsame⟩ | hrank
      · rw [hsame, hphase]
        exact Nat.le_refl 6
      · exact Nat.le_trans hrank (by decide)

/-- Unless it waits for a task, an inference that has not ended goes on when it is polled. -/
theorem poll_rank_lt {e : Engine σ} {id : InferenceId} (hrank : 0 < (e.inferences id).phase.rank)
    (hanswered : ∀ hop, (e.inferences id).phase ≠ .awaiting hop .waiting) (preferReply : Bool) :
    ((e.poll stages preferReply id).inferences id).phase.rank < (e.inferences id).phase.rank := by
  unfold poll
  split
  · rename_i hphase
    rw [hphase]
    exact Nat.lt_succ_of_le (begin_rank stages e id preferReply)
  · rename_i reply hphase
    rcases afterStart_rank stages hphase preferReply with ⟨rfl, -⟩ | hle
    · exact absurd hphase (hanswered .start)
    · rw [hphase]
      cases reply with
      | waiting => exact absurd hphase (hanswered .start)
      | delivered result => exact Nat.lt_succ_of_le hle
      | dropped => exact Nat.lt_succ_of_le hle
  · rename_i reply hphase
    rcases afterFinish_rank stages hphase preferReply with ⟨rfl, -⟩ | hle
    · exact absurd hphase (hanswered .finish)
    · rw [hphase]
      cases reply with
      | waiting => exact absurd hphase (hanswered .finish)
      | delivered result => exact Nat.lt_succ_of_le hle
      | dropped => exact Nat.lt_succ_of_le hle
  · rename_i reply hphase
    rcases afterNotify_rank hphase preferReply with ⟨rfl, -⟩ | hzero
    · exact absurd hphase (hanswered .notify)
    · rw [hzero]
      exact hrank
  · rename_i hcreated hstart hfinish hnotify
    cases hphase : (e.inferences id).phase with
    | created => exact absurd hphase hcreated
    | awaiting hop reply =>
      cases hop with
      | start => exact absurd hphase (hstart reply)
      | finish => exact absurd hphase (hfinish reply)
      | notify => exact absurd hphase (hnotify reply)
    | settled result => rw [hphase] at hrank; cases hrank
    | panicked => rw [hphase] at hrank; cases hrank
    | abandoned => rw [hphase] at hrank; cases hrank

/-- An inference hears of the task it waits for when that runs. -/
theorem runQueued_rank_lt {e : Engine σ} {x : ExecutorId} {position : Nat} {t : Task}
    (hget : (e.executors x).queue[position]? = some t)
    (hwaiting : (e.inferences t.inference).phase = .awaiting t.work.hop .waiting) :
    (((e.runQueued stages x position).1.inferences t.inference).phase).rank <
      (e.inferences t.inference).phase.rank := by
  have htake : e.takeTask x position =
      some (t, e.setExecutor x { e.executors x with queue := (e.executors x).queue.eraseIdx position }) := by
    simp only [takeTask, hget, Option.map_some]
  unfold runQueued
  rw [htake]
  simp only
  obtain ⟨e', reply, halike, hreply, heq, -⟩ := runTask_answers stages
    (e.setExecutor x { e.executors x with queue := (e.executors x).queue.eraseIdx position }) t
  have hphase : (e'.inferences t.inference).phase = .awaiting t.work.hop .waiting := by
    rw [halike.inferences]
    exact hwaiting
  rw [heq, answer_eq, hphase, Phase.answered_awaiting, setPhase_inferences, if_pos rfl, hwaiting]
  exact Phase.rank_awaiting_lt t.work.hop hreply

def Step.Drives (id : InferenceId) : Step σ → Prop
  | .poll i _ => i = id
  | .runQueued _ _ => True
  | _ => False

theorem exists_step_rank_lt {e : Engine σ} (hs : Sound e none) (ha : Awaited e none) {id : InferenceId}
    (hid : id < e.started) (hrank : 0 < (e.inferences id).phase.rank) :
    ∃ s : Step σ, s.Drives id ∧ (e.step stages s).started = e.started ∧
      ((e.step stages s).inferences id).phase.rank < (e.inferences id).phase.rank := by
  by_cases hwaiting : ∃ hop, (e.inferences id).phase = .awaiting hop .waiting
  · obtain ⟨hop, hwaiting⟩ := hwaiting
    obtain ⟨t, ht, rfl, rfl⟩ := ha id hid hop hwaiting
    obtain ⟨x, hx⟩ := holds_none.mp ht
    obtain ⟨position, hget⟩ := List.mem_iff_getElem?.mp hx
    refine ⟨.runQueued x position, trivial, ?_, runQueued_rank_lt stages hget hwaiting⟩
    exact Moves.started (runQueued_moves stages e x position)
  · refine ⟨.poll id true, rfl, ?_⟩
    simp only [step, if_pos hid]
    refine ⟨Moves.started (poll_moves stages hid (hs.token_fresh _) true), ?_⟩
    exact poll_rank_lt stages hrank (fun hop hphase => hwaiting ⟨hop, hphase⟩) true

/-- Whatever happened before, an inference can be brought to its end by polling it and running tasks. -/
theorem exists_steps_ended {e : Engine σ} (hs : Sound e none) (ha : Awaited e none) {id : InferenceId}
    (hid : id < e.started) :
    ∃ history : List (Step σ), (∀ s ∈ history, s.Drives id) ∧
      ((e.steps stages history).inferences id).phase.isOpen = false := by
  generalize hn : (e.inferences id).phase.rank = n
  induction n using Nat.strongRecOn generalizing e with
  | ind n ih =>
    by_cases hrank : 0 < (e.inferences id).phase.rank
    · obtain ⟨s, hdrives, hstarted, hlt⟩ := exists_step_rank_lt stages hs ha hid hrank
      rw [← hstarted] at hid
      obtain ⟨history, hhistory, hended⟩ := ih _ (hn ▸ hlt) (hs.step stages s) (ha.step hs stages s) hid rfl
      refine ⟨s :: history, ?_, hended⟩
      intro s' hs'
      rcases List.mem_cons.mp hs' with rfl | hs'
      · exact hdrives
      · exact hhistory s' hs'
    · exact ⟨[], nofun, Phase.isOpen_of_rank_eq_zero (Nat.eq_zero_of_not_pos hrank)⟩

end Engine

end DevicePlugin
