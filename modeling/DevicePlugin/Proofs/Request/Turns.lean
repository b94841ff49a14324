import DevicePlugin.Proofs.Request.Sound

/-!
# Turns of an engine

Calls come at any moment between two moves of an engine: inferences are made and
given up, requests are cancelled, callbacks are set. They come from outside, and
also from a stage or a callback that is under way. A task that is under way stays
with its executor, whichever kind that is, until it is done; what it calls comes
before its end. So every order of calls and moves is a sequence of turns.
-/

namespace DevicePlugin

namespace Engine

variable {σ : Type}

/-- Polling an inference and running a queued task fall into moves. Every other step is one call. -/
def Step.IsCall : Step σ → Prop
  | .poll _ _ => False
  | .runQueued _ _ => False
  | _ => True

/-- Only calls that are allowed are made. -/
inductive Turn (stages : RequestId → Stages σ) (allowed : Step σ → Prop) :
    Engine σ × Option Task → Engine σ × Option Task → Prop
  | move {c c' : Engine σ × Option Task} (h : Move stages c c') : Turn stages allowed c c'
  /-- Other turns come before the task is done. -/
  | defer {e : Engine σ} {t : Task} : Turn stages allowed (e, some t) (e.queued t, none)
  | call {e : Engine σ} {s : Step σ} (hcall : s.IsCall) (hallowed : allowed s) :
      Turn stages allowed (e, none) (e.step stages s, none)

inductive Does (e : Engine σ) : Step σ → Engine σ → Prop
  | infer (rid : RequestId) : Does e (.infer rid) (e.infer rid)
  | cancel (rid : RequestId) : Does e (.cancel rid) (e.cancel rid)
  | setCallback (rid : RequestId) (callback : Callback) :
      Does e (.setCallback rid callback) (e.setCallback rid callback)
  | access (rid : RequestId) (change : σ → σ) (hpoisoned : (e.requests rid).poisoned = false) :
      Does e (.access rid change) { e with state := change e.state }
  | lose {x : ExecutorId} {position : Nat} {t : Task} {rest : Engine σ}
      (htake : e.takeTask x position = some (t, rest)) : Does e (.dropQueued x position) (rest.answer t .dropped)
  | giveUp {id : InferenceId} (hid : id < e.started) (hphase : (e.inferences id).phase = .created) :
      Does e (.abandon id) ((e.setPhase id .abandoned).note (.ended id))
  | leave {id : InferenceId} {hop : Hop} {reply : Reply} (hid : id < e.started)
      (hphase : (e.inferences id).phase = .awaiting hop reply) : Does e (.abandon id) (e.finish id .abandoned)
  | nothing {s : Step σ} : Does e s e

abbrev Turns (stages : RequestId → Stages σ) (allowed : Step σ → Prop) :
    Engine σ × Option Task → Engine σ × Option Task → Prop :=
  Relation.ReflTransGen (Turn stages allowed)

def Visited (stages : RequestId → Stages σ) (c : Engine σ × Option Task) : Prop :=
  ∃ start, IsNew start ∧ Turns stages (fun _ => True) (start, none) c

variable {stages : RequestId → Stages σ} {allowed : Step σ → Prop} {c c' : Engine σ × Option Task}

theorem step_does (stages : RequestId → Stages σ) (e : Engine σ) {s : Step σ} (hcall : s.IsCall) :
    Does e s (e.step stages s) := by
  cases s with
  | poll id preferReply => exact hcall.elim
  | runQueued x position => exact hcall.elim
  | infer rid => exact .infer rid
  | cancel rid => exact .cancel rid
  | setCallback rid callback => exact .setCallback rid callback
  | access rid change =>
    simp only [step, access]
    split
    · exact .nothing
    · rename_i hpoisoned
      exact .access rid change (by simpa using hpoisoned)
  | dropQueued x position =>
    simp only [step, dropQueued]
    split
    · exact .nothing
    · rename_i t rest htake
      exact .lose htake
  | abandon id =>
    simp only [step, abandon]
    split
    · rename_i hid
      split
      · rename_i hphase
        exact .giveUp hid hphase
      · rename_i hphase
        exact .leave hid hphase
      · exact .nothing
    · exact .nothing

theorem Moves.turns (h : Moves stages c c') : Turns stages allowed c c' := by
  induction h with
  | refl => exact .refl
  | tail _ hmove ih => exact ih.tail (.move hmove)

theorem Turn.mono {allowed' : Step σ → Prop} (h : Turn stages allowed c c') (hall : ∀ s, allowed s → allowed' s) :
    Turn stages allowed' c c' := by
  cases h with
  | move h => exact .move h
  | defer => exact .defer
  | call hcall hallowed => exact .call hcall (hall _ hallowed)

theorem Turns.mono {allowed' : Step σ → Prop} (h : Turns stages allowed c c')
    (hall : ∀ s, allowed s → allowed' s) : Turns stages allowed' c c' := by
  induction h with
  | refl => exact .refl
  | tail _ hturn ih => exact ih.tail (hturn.mono hall)

theorem Visited.turns (h : Visited stages c) (ht : Turns stages allowed c c') : Visited stages c' := by
  obtain ⟨start, hnew, hstart⟩ := h
  exact ⟨start, hnew, hstart.trans (Turns.mono ht fun _ _ => trivial)⟩

/-- What holds of new engines and is kept by every turn holds wherever an engine comes to. -/
theorem Visited.invariant {p : Engine σ × Option Task → Prop} (h : Visited stages c)
    (hnew : ∀ start, IsNew start → p (start, none))
    (hturn : ∀ c c', Visited stages c → p c → Turn stages (fun _ => True) c c' → p c') : p c := by
  obtain ⟨start, hstart, hturns⟩ := h
  induction hturns with
  | refl => exact hnew start hstart
  | tail hbefore hlast ih => exact hturn _ _ ⟨start, hstart, hbefore⟩ ih hlast

/-! ## Tasks on their way -/

theorem Sound.turn (h : Sound c.1 c.2) (ht : Turn stages allowed c c') : Sound c'.1 c'.2 := by
  cases ht with
  | move hmove => exact h.move hmove
  | defer => exact h.queued
  | call hcall hallowed => exact h.step stages _

theorem Sound.turns (h : Sound c.1 c.2) (ht : Turns stages allowed c c') : Sound c'.1 c'.2 := by
  induction ht with
  | refl => exact h
  | tail _ hturn ih => exact ih.turn hturn

theorem Visited.sound (h : Visited stages c) : Sound c.1 c.2 := by
  refine h.invariant (p := fun c => Sound c.1 c.2) (fun start hnew => ?_) fun c c' _ hsound ht => ?_
  · exact hnew.sound
  · exact hsound.turn ht

/-- Whatever an engine does in a step, it does in turns. -/
theorem step_turns {e : Engine σ} (h : Sound e none) {s : Step σ} (hs : allowed s) :
    Turns stages allowed (e, none) (e.step stages s, none) := by
  cases s with
  | poll id preferReply =>
    simp only [step]
    split
    · rename_i hid
      exact Moves.turns (poll_moves stages hid (h.token_fresh _) preferReply)
    · exact .refl
  | runQueued x position => exact Moves.turns (runQueued_moves stages e x position)
  | infer rid => exact .single (.call trivial hs)
  | abandon id => exact .single (.call trivial hs)
  | cancel rid => exact .single (.call trivial hs)
  | setCallback rid callback => exact .single (.call trivial hs)
  | dropQueued x position => exact .single (.call trivial hs)
  | access rid change => exact .single (.call trivial hs)

theorem steps_turns {e : Engine σ} (h : Sound e none) {history : List (Step σ)}
    (hhistory : ∀ s ∈ history, allowed s) : Turns stages allowed (e, none) (e.steps stages history, none) := by
  induction history generalizing e with
  | nil => exact .refl
  | cons s history ih =>
    have hfirst : Turns stages allowed (e, none) (e.step stages s, none) :=
      step_turns h (hhistory s List.mem_cons_self)
    exact hfirst.trans (ih (h.step stages s) fun s' hs' => hhistory s' (List.mem_cons_of_mem _ hs'))

theorem Reachable.visited {e : Engine σ} (h : Reachable stages e) : Visited stages (e, none) := by
  obtain ⟨start, history, hnew, rfl⟩ := h
  exact ⟨start, hnew, steps_turns hnew.sound fun _ _ => trivial⟩

/-! ## Running a task -/

def stagesOf : Work → List InferStage
  | .start => [.preprocess, .start]
  | .finish => [.wait, .postprocess]
  | .notify _ _ => []

inductive Ends (stages : Stages σ) (e : Engine σ) (t : Task) : Reply → List Happening → σ → Prop
  | poisoned (hwork : t.work = .start ∨ t.work = .finish) (h : (e.requests t.request).poisoned = true) :
      Ends stages e t (.delivered (.error (.infer .poisoned))) [] e.state
  | stages (hwork : t.work = .start ∨ t.work = .finish) (h : (e.requests t.request).poisoned = false)
      {outcome : Outcome Failure Unit} {state : σ}
      (hrun : stages.runEach (stagesOf t.work) e.state = (outcome, state)) :
      Ends stages e t (replyOf outcome) [.ran t.request t.inference t.work.hop outcome] state
  | called {callback : Callback} {result : InferResult} (hwork : t.work = .notify callback result)
      (hpanics : callback.panics = false) :
      Ends stages e t (.delivered result) [.called t.inference callback result] e.state
  | broke {callback : Callback} {result : InferResult} (hwork : t.work = .notify callback result)
      (hpanics : callback.panics = true) :
      Ends stages e t .dropped [.called t.inference callback result] e.state

structure Wired (e e' : Engine σ) : Prop where
  executor : ∀ rid hop, (e'.requests rid).executor hop = (e.requests rid).executor hop
  callback : ∀ rid, (e'.requests rid).callback = (e.requests rid).callback
  kind : ∀ x, (e'.executors x).kind = (e.executors x).kind

theorem Wired.refl (e : Engine σ) : Wired e e := ⟨fun _ _ => rfl, fun _ => rfl, fun _ => rfl⟩

theorem Wired.trans {e e' e'' : Engine σ} (h : Wired e e') (h' : Wired e' e'') : Wired e e'' where
  executor rid hop := (h'.executor rid hop).trans (h.executor rid hop)
  callback rid := (h'.callback rid).trans (h.callback rid)
  kind x := (h'.kind x).trans (h.kind x)

theorem wired_setRequest (e : Engine σ) (id : RequestId) {r : AsyncRequest}
    (hexecutor : ∀ hop, r.executor hop = (e.requests id).executor hop)
    (hcallback : r.callback = (e.requests id).callback) : Wired e (e.setRequest id r) := by
  refine ⟨?_, ?_, fun _ => rfl⟩
  · intro rid hop
    by_cases hrid : rid = id
    · subst hrid
      simp [setRequest, hexecutor]
    · simp [setRequest, hrid]
  · intro rid
    by_cases hrid : rid = id
    · subst hrid
      simp [setRequest, hcallback]
    · simp [setRequest, hrid]

theorem wired_setExecutor (e : Engine σ) (x : ExecutorId) {executor : Executor Task}
    (hkind : executor.kind = (e.executors x).kind) : Wired e (e.setExecutor x executor) := by
  refine ⟨fun _ _ => rfl, fun _ => rfl, ?_⟩
  intro y
  by_cases hy : y = x
  · subst hy
    simp [setExecutor, hkind]
  · simp [setExecutor, hy]

theorem wired_note (e : Engine σ) (h : Happening) : Wired e (e.note h) :=
  ⟨fun _ _ => rfl, fun _ => rfl, fun _ => rfl⟩

theorem wired_setInference (e : Engine σ) (id : InferenceId) (i : Inference) : Wired e (e.setInference id i) :=
  ⟨fun _ _ => rfl, fun _ => rfl, fun _ => rfl⟩

theorem wired_finish (e : Engine σ) (id : InferenceId) (phase : Phase) : Wired e (e.finish id phase) := by
  have hphase : Wired e (e.setPhase id phase) := wired_setInference e id _
  refine (hphase.trans (wired_setRequest _ _ ?_ ?_)).trans (wired_note _ _)
  · intro hop
    cases hop <;> rfl
  · rfl

theorem wired_answer (e : Engine σ) (t : Task) (reply : Reply) : Wired e (e.answer t reply) := by
  rw [answer_eq]
  exact wired_setInference e _ _

structure Runs (stages : Stages σ) (e : Engine σ) (t : Task) (reply : Reply) (more : List Happening)
    (e' : Engine σ) : Prop where
  ends : Ends stages e t reply more e'.state
  alike : Alike e e'
  wired : Wired e e'
  trace : e'.trace = e.trace ++ more
  /-- Only stages that break off leave a request poisoned. -/
  poisoned : ∀ rid, (e'.requests rid).poisoned = true →
    (e.requests rid).poisoned = true ∨ rid = t.request ∧ reply = .dropped

theorem runStages_runs (stages : Stages σ) {e : Engine σ} {t : Task}
    (hwork : t.work = .start ∨ t.work = .finish) :
    ∃ reply more e', Runs stages e t reply more e' ∧
      (runStages stages (stagesOf t.work) e t).1 = e'.answer t reply := by
  cases hpoisoned : (e.requests t.request).poisoned with
  | true =>
    rw [runStages_poisoned stages _ hpoisoned]
    refine ⟨_, [], e, ⟨.poisoned hwork hpoisoned, Alike.refl e, Wired.refl e, ?_, fun _ => .inl⟩, rfl⟩
    rw [List.append_nil]
  | false =>
    generalize hrun : stages.runEach (stagesOf t.work) e.state = run
    obtain ⟨outcome, state⟩ := run
    rw [runStages_eq stages _ hpoisoned hrun]
    let next : Engine σ := ({ e with state } : Engine σ).note (.ran t.request t.inference t.work.hop outcome)
    have hnext : Alike e next := ⟨rfl, rfl, fun _ => rfl, fun _ => rfl, fun _ => rfl, fun _ => rfl⟩
    have hmarked : (next.marked t.request outcome).state = state ∧
        (next.marked t.request outcome).trace = e.trace ++ [.ran t.request t.inference t.work.hop outcome] ∧
        Wired next (next.marked t.request outcome) ∧
        ∀ rid, ((next.marked t.request outcome).requests rid).poisoned = true →
          (e.requests rid).poisoned = true ∨ rid = t.request ∧ replyOf outcome = .dropped := by
      cases outcome with
      | ok value => exact ⟨rfl, rfl, Wired.refl next, fun _ => .inl⟩
      | error failure => exact ⟨rfl, rfl, Wired.refl next, fun _ => .inl⟩
      | panic =>
        refine ⟨rfl, rfl, wired_setRequest next _ (fun hop => by cases hop <;> rfl) rfl, fun rid hbroke => ?_⟩
        by_cases hrid : rid = t.request
        · exact .inr ⟨hrid, rfl⟩
        · have hold : (next.requests rid).poisoned = true := by simpa [marked, setRequest, hrid] using hbroke
          exact .inl hold
    obtain ⟨hstate, htrace, hwired, hbroke⟩ := hmarked
    have halike : Alike e (next.marked t.request outcome) := hnext.trans (alike_marked next t.request outcome)
    refine ⟨_, _, next.marked t.request outcome, ⟨?_, halike, ?_, htrace, hbroke⟩, rfl⟩
    · rw [hstate]
      exact .stages hwork hpoisoned hrun
    · have hfirst : Wired e next := ⟨fun _ _ => rfl, fun _ => rfl, fun _ => rfl⟩
      exact hfirst.trans hwired

theorem runTask_runs (stages : RequestId → Stages σ) (e : Engine σ) (t : Task) :
    ∃ reply more e', Runs (stages t.request) e t reply more e' ∧ (e.runTask stages t).1 = e'.answer t reply := by
  cases hwork : t.work with
  | start =>
    have hrun := runStages_runs (stages t.request) (e := e) (t := t) (.inl hwork)
    rw [hwork] at hrun
    simp only [runTask, hwork]
    exact hrun
  | finish =>
    have hrun := runStages_runs (stages t.request) (e := e) (t := t) (.inr hwork)
    rw [hwork] at hrun
    simp only [runTask, hwork]
    exact hrun
  | notify callback result =>
    let next := e.note (.called t.inference callback result)
    have hwired : Wired e next := wired_note e _
    simp only [runTask, hwork]
    by_cases hpanics : callback.panics = true
    · rw [if_pos hpanics]
      exact ⟨_, _, next, ⟨.broke hwork hpanics, alike_note e _, hwired, rfl, fun _ => .inl⟩, rfl⟩
    · rw [if_neg hpanics]
      exact ⟨_, _, next, ⟨.called hwork (by simpa using hpanics), alike_note e _, hwired, rfl, fun _ => .inl⟩, rfl⟩

theorem wired_takeTask {e rest : Engine σ} {x : ExecutorId} {position : Nat} {t : Task}
    (h : e.takeTask x position = some (t, rest)) : Wired e rest := by
  unfold takeTask at h
  obtain ⟨t', -, heq⟩ := Option.map_eq_some_iff.mp h
  cases heq
  exact wired_setExecutor e x rfl

theorem Move.wired (h : Move stages c c') : Wired c.1 c'.1 := by
  cases h with
  | take htake => exact wired_takeTask htake
  | queue _ => exact wired_setExecutor _ _ rfl
  | count => exact wired_setExecutor _ _ rfl
  | lose _ => exact wired_answer _ _ _
  | @run e t =>
    obtain ⟨reply, more, e', hruns, heq⟩ := runTask_runs stages e t
    simp only [heq]
    exact hruns.wired.trans (wired_answer e' t reply)
  | @busy e id _ _ _ =>
    have hsettled : Wired e (e.setPhase id (.settled (.error .busy))) := wired_setInference e id _
    exact hsettled.trans (wired_note _ _)
  | @begin e id _ _ _ =>
    let r := e.requests (e.inferences id).request
    have htaken : Wired e (e.setRequest (e.inferences id).request { r with inFlight := true }) :=
      wired_setRequest e _ (fun hop => by cases hop <;> rfl) rfl
    exact htaken.trans ⟨fun _ _ => rfl, fun _ => rfl, fun _ => rfl⟩
  | @hand e id work _ _ _ =>
    have hwaits : Wired e (e.setPhase id (.awaiting work.hop .waiting)) := wired_setInference e id _
    exact hwaits.trans (wired_note _ _)
  | @settle e id result notice _ _ =>
    cases notice with
    | none => exact wired_finish e id _
    | some notice => exact (wired_note e _).trans (wired_finish _ id _)
  | breakOff _ _ => exact wired_finish _ _ _

/-- Only setting a callback changes what is wired. -/
theorem Turn.wired (h : Turn stages allowed c c') :
    Wired c.1 c'.1 ∨ ∃ rid callback, allowed (.setCallback rid callback) ∧ c'.1 = c.1.setCallback rid callback := by
  cases h with
  | move hmove => exact .inl hmove.wired
  | defer => exact .inl (wired_setExecutor _ _ rfl)
  | @call e s hcall hallowed =>
    have hdoes := step_does stages e hcall
    generalize e.step stages s = next at hdoes ⊢
    cases hdoes with
    | infer rid => exact .inl ⟨fun _ _ => rfl, fun _ => rfl, fun _ => rfl⟩
    | cancel rid => exact .inl (wired_setRequest e rid (fun hop => by cases hop <;> rfl) rfl)
    | setCallback rid callback => exact .inr ⟨rid, callback, hallowed, rfl⟩
    | access rid change _ => exact .inl ⟨fun _ _ => rfl, fun _ => rfl, fun _ => rfl⟩
    | lose htake => exact .inl ((wired_takeTask htake).trans (wired_answer _ _ .dropped))
    | giveUp _ _ => exact .inl ⟨fun _ _ => rfl, fun _ => rfl, fun _ => rfl⟩
    | leave _ _ => exact .inl (wired_finish e _ _)
    | nothing => exact .inl (Wired.refl e)

/-! ## The state that stages act on -/

theorem Ends.state {stages : Stages σ} {e : Engine σ} {t : Task} {reply : Reply} {more : List Happening} {state : σ}
    (h : Ends stages e t reply more state) :
    state = e.state ∨ state = (stages.runEach (stagesOf t.work) e.state).2 := by
  cases h with
  | poisoned hwork hpoisoned => exact .inl rfl
  | stages hwork hpoisoned hrun => exact .inr (by rw [hrun])
  | called hwork hpanics => exact .inl rfl
  | broke hwork hpanics => exact .inl rfl

/-- Only the stages of a task and changes from outside touch the state. -/
theorem Turn.state (h : Turn stages allowed c c') :
    c'.1.state = c.1.state ∨
      (∃ t, c.2 = some t ∧ c'.1.state = ((stages t.request).runEach (stagesOf t.work) c.1.state).2) ∨
      ∃ rid change, allowed (.access rid change) ∧ c'.1.state = change c.1.state := by
  cases h with
  | move hmove =>
    cases hmove with
    | take htake =>
      obtain ⟨t', -, heq⟩ := Option.map_eq_some_iff.mp htake
      cases heq
      exact .inl rfl
    | @lose e t _ => exact .inl (by rw [dropTask, answer_eq]; rfl)
    | @run e t =>
      obtain ⟨reply, more, e', hruns, heq⟩ := runTask_runs stages e t
      have hstate : (e.runTask stages t).1.state = e'.state := by
        rw [heq, answer_eq]
        rfl
      rcases hruns.ends.state with hsame | hran
      · exact .inl (hstate.trans hsame)
      · exact .inr (.inl ⟨t, rfl, hstate.trans hran⟩)
    | @settle e id result notice _ _ => cases notice <;> exact .inl rfl
    | _ => exact .inl rfl
  | defer => exact .inl rfl
  | @call e s hcall hallowed =>
    have hdoes := step_does stages e hcall
    generalize e.step stages s = next at hdoes ⊢
    cases hdoes with
    | access rid change _ => exact .inr (.inr ⟨rid, change, hallowed, rfl⟩)
    | lose htake =>
      obtain ⟨t', -, heq⟩ := Option.map_eq_some_iff.mp htake
      cases heq
      exact .inl (by rw [answer_eq]; rfl)
    | _ => exact .inl rfl

end Engine

end DevicePlugin
