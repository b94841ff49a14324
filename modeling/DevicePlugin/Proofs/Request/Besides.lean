import DevicePlugin.Proofs.Request.Blind

/-!
# Engines that differ in one inference

An inference whose callback has been called has nothing left to do but to end.
What everybody else does depends neither on what it was told nor on what is
observed of it. So engines that differ in nothing else go on alike.
-/

namespace DevicePlugin

/-- Both have had an answer from their callbacks, or both are over. -/
inductive Phase.Level : Phase → Phase → Prop
  | answered {reply reply' : Reply} (h : reply ≠ .waiting) (h' : reply' ≠ .waiting) :
      Level (.awaiting .notify reply) (.awaiting .notify reply')
  | ended {phase phase' : Phase} (h : phase.isOpen = false) (h' : phase'.isOpen = false) : Level phase phase'

theorem Phase.Level.symm {phase phase' : Phase} (h : phase.Level phase') : phase'.Level phase := by
  cases h with
  | answered h h' => exact .answered h' h
  | ended h h' => exact .ended h' h

theorem Phase.Level.right {phase phase' : Phase} (h : phase.Level phase') : phase'.Level phase' := by
  cases h with
  | answered h h' => exact .answered h' h'
  | ended h h' => exact .ended h' h'

theorem Phase.Level.ne_created {phase phase' : Phase} (h : phase.Level phase') : phase ≠ .created := by
  rintro rfl
  cases h with
  | ended h h' => cases h

/-- An inference that has nothing left to do hands nothing over. -/
theorem Phase.Level.awaiting {phase phase' : Phase} (h : phase.Level phase') {hop : Hop} {reply : Reply}
    (hphase : phase = .awaiting hop reply) :
    hop = .notify ∧ reply ≠ .waiting ∧ ∃ reply', reply' ≠ .waiting ∧ phase' = .awaiting .notify reply' := by
  subst hphase
  cases h with
  | answered h h' => exact ⟨rfl, h, _, h', rfl⟩
  | ended h h' => cases h

namespace Engine

variable {σ : Type} {j : InferenceId}

/-! ## Engines that differ in one inference -/

/-- The engines differ in one inference only, which has nothing left to do but to end. -/
structure Besides (j : InferenceId) (e d : Engine σ) : Prop where
  same : d.aside j = e.aside j
  level : (e.inferences j).phase.Level (d.inferences j).phase

structure Past (j : InferenceId) (c : Engine σ × Option Task) : Prop where
  known : j < c.1.started
  tasks : ∀ t, c.1.Holds c.2 t → t.inference ≠ j
  phase : (c.1.inferences j).phase.Level (c.1.inferences j).phase

namespace Besides

section

variable {e d : Engine σ} (h : Besides j e d)
include h

theorem symm : Besides j d e := ⟨h.same.symm, h.level.symm⟩

theorem map {f : Engine σ → Engine σ} (hf : Blind j f) : Besides j (f e) (f d) where
  same := by rw [hf.aside, hf.aside, h.same]
  level := by
    rw [hf.same, hf.same]
    exact h.level

theorem started : d.started = e.started := by
  show (d.aside j).started = (e.aside j).started
  rw [h.same]

theorem executors : d.executors = e.executors := by
  show (d.aside j).executors = (e.aside j).executors
  rw [h.same]

theorem requests : d.requests = e.requests := by
  show (d.aside j).requests = (e.aside j).requests
  rw [h.same]

theorem inferences {i : InferenceId} (hi : i ≠ j) : d.inferences i = e.inferences i := by
  rw [← aside_inferences_of_ne d hi, h.same, aside_inferences_of_ne e hi]

theorem request : (d.inferences j).request = (e.inferences j).request := by
  rw [← setPhase_request d j .abandoned j, ← setPhase_request e j .abandoned j]
  show ((d.aside j).inferences j).request = ((e.aside j).inferences j).request
  rw [h.same]

theorem home (t : Task) : d.home t = e.home t := by rw [Engine.home, Engine.home, h.requests]

theorem task {i : InferenceId} (hi : i ≠ j) (work : Work) : d.task i work = e.task i work := by
  rw [Engine.task, Engine.task, h.inferences hi]

theorem isTripped {i : InferenceId} (hi : i ≠ j) : d.isTripped i = e.isTripped i := by
  rw [← isTripped_aside hi d, h.same, isTripped_aside hi e]

theorem registered {i : InferenceId} (hi : i ≠ j) :
    (d.requests (d.inferences i).request).callback = (e.requests (e.inferences i).request).callback := by
  rw [h.inferences hi, h.requests]

theorem takeTask {x : ExecutorId} {position : Nat} {t : Task} {rest : Engine σ}
    (htake : e.takeTask x position = some (t, rest)) :
    ∃ rest', d.takeTask x position = some (t, rest') ∧ Besides j rest rest' := by
  unfold Engine.takeTask at htake ⊢
  obtain ⟨t', ht, heq⟩ := Option.map_eq_some_iff.mp htake
  cases heq
  rw [h.executors]
  exact ⟨_, Option.map_eq_some_iff.mpr ⟨t, ht, rfl⟩, h.map (blind_setExecutor x _)⟩

end

end Besides

/-- However the inference ends, everybody else sees its request free. -/
theorem aside_ended (e : Engine σ) (j : InferenceId) (notice : Option Notice) (phase : Phase) :
    ((e.logged j notice).finish j phase).aside j =
      (e.aside j).setRequest (e.inferences j).request
        { e.requests (e.inferences j).request with inFlight := false } := by
  have hinferences : (((e.logged j notice).finish j phase).aside j).inferences = (e.aside j).inferences := by
    rw [aside, aside]
    funext k
    by_cases hk : k = j
    · subst hk
      cases notice <;> simp [finish, logged, note, setRequest, setPhase, setInference]
    · cases notice <;> simp [finish, logged, note, setRequest, setPhase, setInference, hk]
  have htrace : (((e.logged j notice).finish j phase).aside j).trace = (e.aside j).trace := by
    cases notice <;> simp [aside, finish, logged, note, Happening.inference, setRequest, setPhase, setInference]
  -- All other fields are the same by definition.
  have hrest : ((e.logged j notice).finish j phase).aside j =
      { (e.aside j).setRequest (e.inferences j).request
          { e.requests (e.inferences j).request with inFlight := false } with
        inferences := (((e.logged j notice).finish j phase).aside j).inferences
        trace := (((e.logged j notice).finish j phase).aside j).trace } := by
    cases notice <;> rfl
  rw [hrest, hinferences, htrace]
  rfl

theorem Besides.ended {e d : Engine σ} (h : Besides j e d) (notice notice' : Option Notice) {phase phase' : Phase}
    (hphase : phase.isOpen = false) (hphase' : phase'.isOpen = false) :
    Besides j ((e.logged j notice).finish j phase) ((d.logged j notice').finish j phase') where
  same := by rw [aside_ended, aside_ended, h.same, h.requests, h.request]
  level := by
    rw [logged_finish_inferences, logged_finish_inferences, setPhase_inferences_self, setPhase_inferences_self]
    exact .ended hphase hphase'

/-! ## Turns beside the inference -/

theorem not_due_of_level {e : Engine σ} {phase : Phase} (h : (e.inferences j).phase.Level phase) (work : Work) :
    ¬ e.Due j work := by
  intro hdue
  cases hdue with
  | finish hphase => cases (h.awaiting hphase).1
  | notify callback result hc hresult hcallback =>
    cases hc with
    | start failure hphase => cases (h.awaiting hphase).1
    | finish _ hphase => cases (h.awaiting hphase).1
    | dropped hop hhop hphase executor => exact hhop (h.awaiting hphase).1

/-- Whatever its callback has come to, the inference can end with it. -/
theorem settles_of_answered {e : Engine σ} {reply : Reply} (hphase : (e.inferences j).phase = .awaiting .notify reply)
    (hreply : reply ≠ .waiting) : ∃ result notice, e.Settles j result notice := by
  cases reply with
  | waiting => exact absurd rfl hreply
  | delivered result => exact ⟨result, _, .told result hphase⟩
  | dropped => exact ⟨_, _, .untold hphase ""⟩

variable {stages : RequestId → Stages σ} {allowed : Step σ → Prop} {c c' : Engine σ × Option Task}

theorem Past.turn (h : Past j c) (ht : Turn stages allowed c c') : Past j c' where
  known := Nat.lt_of_lt_of_le h.known ht.started_le
  tasks t hheld hj := by
    rcases ht.holds_due hheld with hold | ⟨-, hcreated⟩ | hdue
    · exact h.tasks t hold hj
    · exact h.phase.ne_created (hj ▸ hcreated)
    · exact not_due_of_level h.phase t.work (hj ▸ hdue)
  phase := by
    obtain ⟨more, -, hpart⟩ := ht.part j
    cases hpart with
    | aside hsame hquiet hknown =>
      rw [hsame]
      exact h.phase
    | made hnew hstarted hphase => exact absurd h.known (hnew ▸ Nat.lt_irrefl _)
    | busy hj hphase hnext hflight => exact absurd hphase h.phase.ne_created
    | begin hj hphase hnext hhand => exact absurd hphase h.phase.ne_created
    | hand hj hdue htripped hnext hhand => exact absurd hdue (not_due_of_level h.phase _)
    | ran hhand hj hends hnext => exact absurd hj (h.tasks _ (.inl hhand))
    | lost hheld hj hlost hnext => exact absurd hj (h.tasks _ hheld)
    | settle hj hsettles hnext =>
      rw [hnext]
      exact .ended rfl rfl
    | breakOff hj hphase hnext =>
      rw [hnext]
      exact .ended rfl rfl
    | abandon hj hopen hnext hallowed =>
      rw [hnext]
      exact .ended rfl rfl

theorem past_turns (h : Past j c) (ht : Turns stages allowed c c') : Past j c' := by
  induction ht with
  | refl => exact h
  | tail _ hturn ih => exact ih.turn hturn

theorem Besides.move {d : Engine σ} (h : Besides j c.1 d) (hpast : Past j c) (hm : Move stages c c') :
    ∃ d', Move stages (d, c.2) (d', c'.2) ∧ Besides j c'.1 d' := by
  -- Where the inference itself ends, the other engine lets it end as well.
  have hends {e : Engine σ} {hop : Hop} {reply : Reply} (h : Besides j e d) (hj : j < e.started)
      (hphase : (e.inferences j).phase = .awaiting hop reply) (notice : Option Notice) {phase : Phase}
      (hover : phase.isOpen = false) :
      ∃ d', Move stages (d, none) (d', none) ∧ Besides j ((e.logged j notice).finish j phase) d' := by
    obtain ⟨-, -, reply', hreply', hphase'⟩ := h.level.awaiting hphase
    obtain ⟨result, notice', hsettles⟩ := settles_of_answered hphase' hreply'
    exact ⟨_, .settle (h.started ▸ hj) hsettles, h.ended notice notice' hover rfl⟩
  cases hm with
  | take htake =>
    obtain ⟨rest, htake', hrest⟩ := h.takeTask htake
    exact ⟨rest, .take htake', hrest⟩
  | @queue e t hkind =>
    refine ⟨d.queued t, .queue ?_, h.map (blind_queued t)⟩
    rw [h.home, h.executors]
    exact hkind
  | @count e t =>
    refine ⟨d.counted (d.home t), .count, ?_⟩
    rw [h.home]
    exact h.map (blind_counted _)
  | @lose e t hkind =>
    refine ⟨d.dropTask t, .lose ?_, h.map (blind_answer (hpast.tasks t (.inl rfl)) .dropped)⟩
    rw [h.home, h.executors]
    exact hkind
  | @run e t => exact ⟨_, .run, h.map (blindRun_runTask stages (hpast.tasks t (.inl rfl))).fst⟩
  | @busy e id hid hphase hflight =>
    have hne : id ≠ j := by
      rintro rfl
      exact h.level.ne_created hphase
    refine ⟨_, .busy (h.started ▸ hid) ((h.inferences hne).symm ▸ hphase) ?_,
      h.map ((blind_note (.ended id) hne).comp (blind_setPhase hne _))⟩
    rw [h.inferences hne, h.requests]
    exact hflight
  | @begin e id hid hphase hflight =>
    have hne : id ≠ j := by
      rintro rfl
      exact h.level.ne_created hphase
    refine ⟨(d.taken id).handed id .start, ?_, h.map ((blind_handed hne .start).comp (blind_taken hne))⟩
    rw [← h.task hne]
    refine .begin (h.started ▸ hid) ((h.inferences hne).symm ▸ hphase) ?_
    rw [h.inferences hne, h.requests]
    exact hflight
  | @hand e id work hid hdue htripped =>
    have hne : id ≠ j := by
      rintro rfl
      exact not_due_of_level h.level work hdue
    refine ⟨d.handed id work, ?_, h.map (blind_handed hne work)⟩
    rw [← h.task hne]
    exact .hand (h.started ▸ hid) (hdue.congr (by rw [h.inferences hne]) (h.registered hne))
      ((h.isTripped hne).trans htripped)
  | @settle e id result notice hid hsettles =>
    by_cases hne : id = j
    · subst hne
      obtain ⟨hop, reply, hphase⟩ : ∃ hop reply, (e.inferences id).phase = .awaiting hop reply := by
        have hactive := hsettles.isActive
        generalize (e.inferences id).phase = phase at hactive
        cases phase with
        | awaiting hop reply => exact ⟨hop, reply, rfl⟩
        | _ => cases hactive
      exact hends h hid hphase notice rfl
    · refine ⟨(d.logged id notice).settle id result, .settle (h.started ▸ hid) ?_,
        h.map ((blind_settle hne result).comp (blind_logged hne notice))⟩
      exact hsettles.congr (by rw [h.inferences hne]) (h.registered hne) (h.isTripped hne)
  | @breakOff e id hop hid hphase =>
    by_cases hne : id = j
    · subst hne
      exact hends h hid hphase none rfl
    · exact ⟨d.finish id .panicked, .breakOff (h.started ▸ hid) ((h.inferences hne).symm ▸ hphase),
        h.map (blind_finish hne _)⟩

/-! ## Steps beside the inference -/

theorem afterNotify_of_answered {e : Engine σ} {reply : Reply}
    (hphase : (e.inferences j).phase = .awaiting .notify reply) (hreply : reply ≠ .waiting) (preferReply : Bool) :
    ∃ notice result, e.afterNotify preferReply j = (e.logged j notice).settle j result := by
  have hlook := look_spec hphase preferReply
  unfold afterNotify
  split
  · rename_i heq
    rw [heq] at hlook
    exact absurd hlook hreply
  · exact ⟨none, .error .cancelled, rfl⟩
  · rename_i result heq
    split
    · exact ⟨some (.inferenceCompleted result.isOk), result, rfl⟩
    · exact ⟨none, result, rfl⟩

theorem poll_of_ended {e : Engine σ} {id : InferenceId} (h : (e.inferences id).phase.isOpen = false)
    (stages : RequestId → Stages σ) (preferReply : Bool) : e.poll stages preferReply id = e := by
  unfold poll
  generalize (e.inferences id).phase = phase at h ⊢
  cases phase <;> cases h <;> rfl

theorem abandon_of_ended {e : Engine σ} {id : InferenceId} (h : (e.inferences id).phase.isOpen = false) :
    e.abandon id = e := by
  unfold abandon
  generalize (e.inferences id).phase = phase at h ⊢
  cases phase <;> cases h <;> rfl

theorem Besides.poll {e d : Engine σ} (h : Besides j e d) (stages : RequestId → Stages σ) (preferReply : Bool)
    (id : InferenceId) : Besides j (e.poll stages preferReply id) (d.poll stages preferReply id) := by
  by_cases hne : id = j
  · subst hne
    have hlevel := h.level
    generalize hphase : (e.inferences id).phase = phase at hlevel
    generalize hphase' : (d.inferences id).phase = phase' at hlevel
    cases hlevel with
    | answered hreply hreply' =>
      obtain ⟨notice, result, hsettled⟩ := afterNotify_of_answered hphase hreply preferReply
      obtain ⟨notice', result', hsettled'⟩ := afterNotify_of_answered hphase' hreply' preferReply
      simp only [Engine.poll, hphase, hphase', hsettled, hsettled']
      exact h.ended notice notice' rfl rfl
    | ended hended hended' =>
      rw [poll_of_ended (hphase ▸ hended), poll_of_ended (hphase' ▸ hended')]
      exact h
  · exact h.map (blind_poll hne stages preferReply)

theorem Besides.abandon {e d : Engine σ} (h : Besides j e d) (id : InferenceId) :
    Besides j (e.abandon id) (d.abandon id) := by
  by_cases hne : id = j
  · subst hne
    have hlevel := h.level
    generalize hphase : (e.inferences id).phase = phase at hlevel
    generalize hphase' : (d.inferences id).phase = phase' at hlevel
    cases hlevel with
    | answered hreply hreply' =>
      simp only [Engine.abandon, hphase, hphase']
      exact h.ended none none rfl rfl
    | ended hended hended' =>
      rw [abandon_of_ended (hphase ▸ hended), abandon_of_ended (hphase' ▸ hended')]
      exact h
  · exact h.map (blind_abandon hne)

theorem Besides.infer {e d : Engine σ} (h : Besides j e d) (hj : j < e.started) (rid : RequestId) :
    Besides j (e.infer rid) (d.infer rid) := by
  have hmade : Blind j fun e' : Engine σ =>
      { e'.setInference e.started { request := rid } with started := e.started + 1 } :=
    Blind.comp (g := fun e' => { e' with started := e.started + 1 }) ⟨fun _ => rfl, fun _ => rfl⟩
      (blind_setInference (Ne.symm (Nat.ne_of_lt hj)) _)
  have hnext := h.map hmade
  unfold Engine.infer
  rw [h.started]
  exact hnext

theorem Besides.step {e d : Engine σ} (h : Besides j e d) (hpast : Past j (e, none)) (s : Step σ) :
    Besides j (e.step stages s) (d.step stages s) := by
  have htask {x : ExecutorId} {position : Nat} {t : Task} {rest : Engine σ}
      (htake : e.takeTask x position = some (t, rest)) : t.inference ≠ j :=
    hpast.tasks t (.inr ⟨x, (takeTask_eq htake).1⟩)
  have hnone {x : ExecutorId} {position : Nat} (htake : e.takeTask x position = none) :
      d.takeTask x position = none := by
    unfold Engine.takeTask at htake ⊢
    rw [h.executors]
    simpa using htake
  cases s with
  | infer rid => exact h.infer hpast.known rid
  | cancel rid => exact h.map (blind_cancel rid)
  | setCallback rid callback => exact h.map (blind_setCallback rid callback)
  | access rid change => exact h.map (blind_access rid change)
  | poll id preferReply =>
    simp only [Engine.step, h.started]
    split
    · exact h.poll stages preferReply id
    · exact h
  | abandon id =>
    simp only [Engine.step, h.started]
    split
    · exact h.abandon id
    · exact h
  | runQueued x position =>
    simp only [Engine.step, runQueued]
    cases htake : e.takeTask x position with
    | none =>
      rw [hnone htake]
      exact h
    | some taken =>
      obtain ⟨t, rest⟩ := taken
      obtain ⟨rest', htake', hrest⟩ := h.takeTask htake
      rw [htake']
      exact hrest.map (blindRun_runTask stages (htask htake)).fst
  | dropQueued x position =>
    simp only [Engine.step, dropQueued]
    cases htake : e.takeTask x position with
    | none =>
      rw [hnone htake]
      exact h
    | some taken =>
      obtain ⟨t, rest⟩ := taken
      obtain ⟨rest', htake', hrest⟩ := h.takeTask htake
      rw [htake']
      exact hrest.map (blind_answer (htask htake) .dropped)

theorem Besides.steps {e d : Engine σ} (h : Besides j e d) (hpast : Past j (e, none)) (hs : Sound e none)
    (history : List (Step σ)) : Besides j (e.steps stages history) (d.steps stages history) := by
  induction history generalizing e d with
  | nil => exact h
  | cons s history ih =>
    have hway : Turns stages (fun _ => True) (e, none) (e.step stages s, none) := step_turns hs trivial
    exact ih (h.step hpast s) (past_turns hpast hway) (hs.step stages s)

theorem Besides.turn {x : Engine σ × Option Task} (h : Besides j c.1 x.1) (hhand : x.2 = c.2) (hpast : Past j c)
    (ht : Turn stages allowed c c') : ∃ x', Turn stages allowed x x' ∧ Besides j c'.1 x'.1 ∧ x'.2 = c'.2 := by
  obtain ⟨d, hand⟩ := x
  cases hhand
  cases ht with
  | move hmove =>
    obtain ⟨d', hmove', hbeside⟩ := h.move hpast hmove
    exact ⟨_, .move hmove', hbeside, rfl⟩
  | @defer e t => exact ⟨_, .defer, h.map (blind_queued t), rfl⟩
  | call hcall hallowed => exact ⟨_, .call hcall hallowed, h.step hpast _, rfl⟩

/-- Nothing else of an inference is on its way once its task has run. -/
theorem Sound.ran_alone {e : Engine σ} {t : Task} (hs : Sound e (some t)) {t' : Task}
    (hheld : ((e.runTask stages t).1).Holds none t') : t'.inference ≠ t.inference := by
  obtain ⟨e', reply, halike, -, heq, -⟩ := runTask_answers stages e t
  rw [heq] at hheld
  obtain ⟨x, hmem⟩ := holds_none.mp (holds_of_alike halike (holds_of_answer hheld))
  exact hs.single t rfl x t' hmem

end Engine

end DevicePlugin
