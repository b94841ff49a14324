import DevicePlugin.Proofs.Request.Turns

/-!
# One inference in a turn

Most turns leave an inference aside. The others are its own: it is made, goes on
when it is polled, or is told what became of the task that it waits for. Each of
them adds to the trace what is observed of the inference, and nothing else does.
-/

namespace DevicePlugin

namespace Engine

variable {σ : Type}

def submissions (j : InferenceId) (trace : List Happening) : List (Hop × ExecutorId) :=
  trace.filterMap fun
    | .submitted i hop x => if i = j then some (hop, x) else none
    | _ => none

def calls (j : InferenceId) (trace : List Happening) : List (Callback × InferResult) :=
  trace.filterMap fun
    | .called i callback result => if i = j then some (callback, result) else none
    | _ => none

@[simp] theorem submissions_append (j : InferenceId) (trace more : List Happening) :
    submissions j (trace ++ more) = submissions j trace ++ submissions j more :=
  List.filterMap_append

@[simp] theorem calls_append (j : InferenceId) (trace more : List Happening) :
    calls j (trace ++ more) = calls j trace ++ calls j more :=
  List.filterMap_append

def Quiet (j : InferenceId) (more : List Happening) : Prop := submissions j more = [] ∧ calls j more = []

theorem quiet_nil (j : InferenceId) : Quiet j [] := ⟨rfl, rfl⟩

theorem Quiet.append {j : InferenceId} {trace more : List Happening} (h : Quiet j trace) (hmore : Quiet j more) :
    Quiet j (trace ++ more) := by
  constructor
  · rw [submissions_append, h.1, hmore.1, List.append_nil]
  · rw [calls_append, h.2, hmore.2, List.append_nil]

theorem quiet_ended (j id : InferenceId) (notice : Option Notice) :
    Quiet j ((notice.map (.logged id)).toList ++ [.ended id]) := by
  cases notice <;> exact ⟨rfl, rfl⟩

theorem quiet_submitted {j id : InferenceId} (hid : id ≠ j) (hop : Hop) (x : ExecutorId) :
    Quiet j [.submitted id hop x] := by
  refine ⟨?_, rfl⟩
  simp [submissions, hid]

section

variable {stages : Stages σ} {e : Engine σ} {t : Task} {reply : Reply} {more : List Happening} {state : σ}

theorem Ends.submissions_eq_nil (h : Ends stages e t reply more state) (j : InferenceId) : submissions j more = [] := by
  cases h <;> rfl

theorem Ends.quiet (h : Ends stages e t reply more state) {j : InferenceId}
    (hj : t.inference ≠ j ∨ t.work = .start ∨ t.work = .finish) : Quiet j more := by
  refine ⟨h.submissions_eq_nil j, ?_⟩
  cases h with
  | poisoned hwork hpoisoned => rfl
  | stages hwork hpoisoned hrun => rfl
  | called hwork hpanics =>
    rw [hwork] at hj
    simpa [calls] using hj
  | broke hwork hpanics =>
    rw [hwork] at hj
    simpa [calls] using hj

end

inductive Part (stages : RequestId → Stages σ) (allowed : Step σ → Prop) (j : InferenceId)
    (c c' : Engine σ × Option Task) : List Happening → Prop
  | aside {more : List Happening} (hsame : c'.1.inferences j = c.1.inferences j) (hquiet : Quiet j more)
      (hknown : j < c'.1.started → j < c.1.started) : Part stages allowed j c c' more
  | made (hj : j = c.1.started) (hstarted : c'.1.started = c.1.started + 1)
      (hphase : (c'.1.inferences j).phase = .created) : Part stages allowed j c c' []
  | busy (hj : j < c.1.started) (hphase : (c.1.inferences j).phase = .created)
      (hnext : c'.1.inferences j = { c.1.inferences j with phase := .settled (.error .busy) })
      (hflight : (c.1.requests (c.1.inferences j).request).inFlight = true) :
      Part stages allowed j c c' [.ended j]
  | begin (hj : j < c.1.started) (hphase : (c.1.inferences j).phase = .created)
      (hnext : c'.1.inferences j =
        { c.1.inferences j with
          token := (c.1.requests (c.1.inferences j).request).token
          phase := .awaiting .start .waiting })
      (hhand : c'.2 = some (c.1.task j .start)) :
      Part stages allowed j c c' [.submitted j .start (c.1.home (c.1.task j .start))]
  | hand {work : Work} (hj : j < c.1.started) (hdue : c.1.Due j work) (htripped : c.1.isTripped j = false)
      (hnext : c'.1.inferences j = { c.1.inferences j with phase := .awaiting work.hop .waiting })
      (hhand : c'.2 = some (c.1.task j work)) :
      Part stages allowed j c c' [.submitted j work.hop (c.1.home (c.1.task j work))]
  | ran {t : Task} {reply : Reply} {more : List Happening} (hhand : c.2 = some t) (hj : t.inference = j)
      (hends : Ends (stages t.request) c.1 t reply more c'.1.state)
      (hnext : c'.1.inferences j =
        { c.1.inferences j with phase := (c.1.inferences j).phase.answered t.work.hop reply }) :
      Part stages allowed j c c' more
  | lost {t : Task} (ht : c.1.Holds c.2 t) (hj : t.inference = j)
      (hlost : (c.1.executors (c.1.home t)).kind = .dropping ∨ ∃ x position, allowed (.dropQueued x position))
      (hnext : c'.1.inferences j =
        { c.1.inferences j with phase := (c.1.inferences j).phase.answered t.work.hop .dropped }) :
      Part stages allowed j c c' []
  | settle {result : InferResult} {notice : Option Notice} (hj : j < c.1.started) (hs : c.1.Settles j result notice)
      (hnext : c'.1.inferences j = { c.1.inferences j with phase := .settled result }) :
      Part stages allowed j c c' ((notice.map (.logged j)).toList ++ [.ended j])
  | breakOff {hop : Hop} (hj : j < c.1.started) (hphase : (c.1.inferences j).phase = .awaiting hop .dropped)
      (hnext : c'.1.inferences j = { c.1.inferences j with phase := .panicked }) :
      Part stages allowed j c c' [.ended j]
  | abandon (hj : j < c.1.started) (hopen : (c.1.inferences j).phase.isOpen = true)
      (hnext : c'.1.inferences j = { c.1.inferences j with phase := .abandoned })
      (hallowed : allowed (.abandon j)) : Part stages allowed j c c' [.ended j]

variable {stages : RequestId → Stages σ} {allowed : Step σ → Prop} {c c' : Engine σ × Option Task}

theorem setPhase_inferences_of_ne (e : Engine σ) {id j : InferenceId} (hj : id ≠ j) (phase : Phase) :
    (e.setPhase id phase).inferences j = e.inferences j := by
  rw [setPhase_inferences, if_neg (Ne.symm hj)]

theorem setPhase_inferences_self (e : Engine σ) (j : InferenceId) (phase : Phase) :
    (e.setPhase j phase).inferences j = { e.inferences j with phase } := by
  rw [setPhase_inferences, if_pos rfl]

theorem answer_inferences_of_ne (e : Engine σ) {t : Task} {j : InferenceId} (hj : t.inference ≠ j) (reply : Reply) :
    (e.answer t reply).inferences j = e.inferences j := by
  rw [answer_eq]
  exact setPhase_inferences_of_ne e hj _

theorem answer_inferences_self (e : Engine σ) (t : Task) (reply : Reply) :
    (e.answer t reply).inferences t.inference =
      { e.inferences t.inference with
        phase := (e.inferences t.inference).phase.answered t.work.hop reply } := by
  rw [answer_eq]
  exact setPhase_inferences_self e _ _

theorem answer_trace (e : Engine σ) (t : Task) (reply : Reply) : (e.answer t reply).trace = e.trace := by
  rw [answer_eq]
  rfl

theorem answer_started (e : Engine σ) (t : Task) (reply : Reply) : (e.answer t reply).started = e.started := by
  rw [answer_eq]
  rfl

theorem answer_state (e : Engine σ) (t : Task) (reply : Reply) : (e.answer t reply).state = e.state := by
  rw [answer_eq]
  rfl

theorem logged_finish_trace (e : Engine σ) (id : InferenceId) (notice : Option Notice) (phase : Phase) :
    ((e.logged id notice).finish id phase).trace = e.trace ++ ((notice.map (.logged id)).toList ++ [.ended id]) := by
  cases notice with
  | none => rfl
  | some notice => exact List.append_assoc _ _ _

theorem logged_finish_inferences (e : Engine σ) (id : InferenceId) (notice : Option Notice) (phase : Phase) :
    ((e.logged id notice).finish id phase).inferences = (e.setPhase id phase).inferences := by
  cases notice <;> rfl

theorem Move.part (h : Move stages c c') (j : InferenceId) :
    ∃ more, c'.1.trace = c.1.trace ++ more ∧ Part stages allowed j c c' more := by
  have hknown : j < c'.1.started → j < c.1.started := fun hj => h.inferences.1 ▸ hj
  cases h with
  | take htake =>
    obtain ⟨-, executor, rfl⟩ := takeTask_eq htake
    exact ⟨[], (List.append_nil _).symm, .aside rfl (quiet_nil j) hknown⟩
  | queue _ => exact ⟨[], (List.append_nil _).symm, .aside rfl (quiet_nil j) hknown⟩
  | count => exact ⟨[], (List.append_nil _).symm, .aside rfl (quiet_nil j) hknown⟩
  | @lose e t hkind =>
    refine ⟨[], by rw [List.append_nil, dropTask, answer_trace], ?_⟩
    by_cases hj : t.inference = j
    · subst hj
      exact .lost (.inl rfl) rfl (.inl hkind) (answer_inferences_self e t .dropped)
    · exact .aside (answer_inferences_of_ne e hj .dropped) (quiet_nil j) hknown
  | @run e t =>
    obtain ⟨reply, more, e', hruns, heq⟩ := runTask_runs stages e t
    have hstate : ((e.runTask stages t).1).state = e'.state := by rw [heq, answer_state]
    refine ⟨more, by rw [heq, answer_trace, hruns.trace], ?_⟩
    by_cases hj : t.inference = j
    · subst hj
      refine .ran rfl rfl (hstate ▸ hruns.ends) ?_
      simp only [heq]
      rw [answer_inferences_self, hruns.alike.inferences]
    · refine .aside ?_ (hruns.ends.quiet (.inl hj)) hknown
      simp only [heq]
      rw [answer_inferences_of_ne e' hj, hruns.alike.inferences]
  | @busy e id hid hphase hflight =>
    refine ⟨[.ended id], rfl, ?_⟩
    by_cases hj : id = j
    · subst hj
      exact .busy hid hphase (setPhase_inferences_self e id _) hflight
    · exact .aside (setPhase_inferences_of_ne e hj _) (quiet_ended j id none) hknown
  | @begin e id hid hphase hflight =>
    have htask : (e.taken id).home ((e.taken id).task id .start) = e.home (e.task id .start) := by
      simp [home, task, taken, setRequest, setInference, Work.hop, AsyncRequest.executor]
    refine ⟨[.submitted id .start (e.home (e.task id .start))], by rw [← htask]; rfl, ?_⟩
    by_cases hj : id = j
    · subst hj
      refine .begin hid hphase ?_ rfl
      simp [handed, note, taken, setRequest, setInference, Work.hop]
    · refine .aside ?_ (quiet_submitted hj _ _) hknown
      simp [handed, note, taken, setRequest, setInference, Ne.symm hj]
  | @hand e id work hid hdue htripped =>
    refine ⟨[.submitted id work.hop (e.home (e.task id work))], rfl, ?_⟩
    by_cases hj : id = j
    · subst hj
      exact .hand hid hdue htripped (setPhase_inferences_self e id _) rfl
    · exact .aside (setPhase_inferences_of_ne e hj _) (quiet_submitted hj _ _) hknown
  | @settle e id result notice hid hs =>
    refine ⟨_, logged_finish_trace e id notice _, ?_⟩
    have hinferences := logged_finish_inferences e id notice (.settled result)
    by_cases hj : id = j
    · subst hj
      exact .settle hid hs ((congrFun hinferences id).trans (setPhase_inferences_self e id _))
    · exact .aside ((congrFun hinferences j).trans (setPhase_inferences_of_ne e hj _)) (quiet_ended j id notice) hknown
  | @breakOff e id hop hid hphase =>
    refine ⟨[.ended id], rfl, ?_⟩
    by_cases hj : id = j
    · subst hj
      exact .breakOff hid hphase (setPhase_inferences_self e id _)
    · exact .aside (setPhase_inferences_of_ne e hj _) (quiet_ended j id none) hknown

theorem Turn.part (h : Turn stages allowed c c') (j : InferenceId) :
    ∃ more, c'.1.trace = c.1.trace ++ more ∧ Part stages allowed j c c' more := by
  cases h with
  | move hmove => exact hmove.part j
  | defer => exact ⟨[], (List.append_nil _).symm, .aside rfl (quiet_nil j) id⟩
  | @call e s hcall hallowed =>
    have hdoes := step_does stages e hcall
    generalize e.step stages s = next at hdoes ⊢
    cases hdoes with
    | infer rid =>
      refine ⟨[], (List.append_nil _).symm, ?_⟩
      by_cases hj : j = e.started
      · refine .made hj rfl ?_
        simp [infer, setInference, hj]
      · refine .aside ?_ (quiet_nil j) fun hlt => Nat.lt_of_le_of_ne (Nat.lt_succ_iff.mp hlt) hj
        simp [infer, setInference, hj]
    | lose htake =>
      rename_i x position t rest
      obtain ⟨ht, executor, rfl⟩ := takeTask_eq htake
      refine ⟨[], by rw [List.append_nil, answer_trace]; rfl, ?_⟩
      by_cases hj : t.inference = j
      · subst hj
        exact .lost (.inr ⟨x, ht⟩) rfl (.inr ⟨x, position, hallowed⟩) (answer_inferences_self _ t .dropped)
      · refine .aside (answer_inferences_of_ne _ hj .dropped) (quiet_nil j) fun hlt => ?_
        rwa [answer_started] at hlt
    | @giveUp id hid hphase =>
      refine ⟨[.ended id], rfl, ?_⟩
      by_cases hj : id = j
      · subst hj
        exact .abandon hid (by rw [hphase]; rfl) (setPhase_inferences_self e id _) hallowed
      · exact .aside (setPhase_inferences_of_ne e hj _) (quiet_ended j id none) fun hlt => hlt
    | @leave id hop reply hid hphase =>
      refine ⟨[.ended id], rfl, ?_⟩
      by_cases hj : id = j
      · subst hj
        exact .abandon hid (by rw [hphase]; rfl) (setPhase_inferences_self e id _) hallowed
      · exact .aside (setPhase_inferences_of_ne e hj _) (quiet_ended j id none) fun hlt => hlt
    | _ => exact ⟨[], (List.append_nil _).symm, .aside rfl (quiet_nil j) id⟩

theorem Turn.started_le (h : Turn stages allowed c c') : c.1.started ≤ c'.1.started := by
  cases h with
  | move hmove => exact Nat.le_of_eq hmove.inferences.1.symm
  | defer => exact Nat.le_refl _
  | @call e s hcall hallowed =>
    have hdoes := step_does stages e hcall
    generalize e.step stages s = next at hdoes ⊢
    cases hdoes with
    | infer rid => exact Nat.le_succ _
    | lose htake =>
      obtain ⟨-, executor, rfl⟩ := takeTask_eq htake
      rw [answer_started]
      exact Nat.le_refl _
    | _ => exact Nat.le_refl _

theorem Turn.request (h : Turn stages allowed c c') {j : InferenceId} (hj : j < c.1.started) :
    (c'.1.inferences j).request = (c.1.inferences j).request := by
  obtain ⟨more, -, hpart⟩ := h.part j
  cases hpart with
  | aside hsame hquiet hknown => rw [hsame]
  | made hnew hstarted hphase => exact absurd hj (hnew ▸ Nat.lt_irrefl _)
  | busy _ hphase hnext => rw [hnext]
  | begin _ hphase hnext hhand => rw [hnext]
  | hand _ hdue htripped hnext hhand => rw [hnext]
  | ran hhand htask hends hnext => rw [hnext]
  | lost hheld htask hlost hnext => rw [hnext]
  | settle _ hsettles hnext => rw [hnext]
  | breakOff _ hphase hnext => rw [hnext]
  | abandon _ hopen hnext => rw [hnext]

/-- Nothing is seen of an inference before it is made. -/
theorem Part.of_unmade {j : InferenceId} {more : List Happening} (h : Part stages allowed j c c' more)
    (hs : Sound c.1 c.2) (hj : ¬ j < c.1.started) :
    Quiet j more ∧ (j < c'.1.started → (c'.1.inferences j).phase = .created) := by
  cases h with
  | aside hsame hquiet hknown => exact ⟨hquiet, fun hlt => absurd (hknown hlt) hj⟩
  | made hnew hstarted hphase => exact ⟨quiet_nil j, fun _ => hphase⟩
  | busy hknown hphase hnext => exact absurd hknown hj
  | begin hknown hphase hnext hhand => exact absurd hknown hj
  | hand hknown hdue htripped hnext hhand => exact absurd hknown hj
  | ran hhand htask hends hnext => exact absurd (htask ▸ hs.known _ (.inl hhand)) hj
  | lost hheld htask hlost hnext => exact absurd (htask ▸ hs.known _ hheld) hj
  | settle hknown hsettles hnext => exact absurd hknown hj
  | breakOff hknown hphase hnext => exact absurd hknown hj
  | abandon hknown hopen hnext => exact absurd hknown hj

theorem submissions_eq_nil_iff {j : InferenceId} {more : List Happening} :
    submissions j more = [] ↔ ∀ hop x, .submitted j hop x ∉ more := by
  constructor
  · intro hnone hop x hmem
    have hsome : (hop, x) ∈ submissions j more := List.mem_filterMap.mpr ⟨_, hmem, if_pos rfl⟩
    rw [hnone] at hsome
    cases hsome
  · intro hnone
    refine List.filterMap_eq_nil_iff.mpr fun happening hmem => ?_
    cases happening with
    | submitted i hop x =>
      refine if_neg fun hi => ?_
      subst hi
      exact hnone hop x hmem
    | _ => rfl

/-- What an inference hands over is its first task, or one that is due. -/
theorem Part.handed {j : InferenceId} {more : List Happening} (h : Part stages allowed j c c' more) {hop : Hop}
    {x : ExecutorId} (hmem : .submitted j hop x ∈ more) :
    hop = .start ∧ (c.1.inferences j).phase = .created ∨
      ∃ work, hop = work.hop ∧ c.1.Due j work ∧ c.1.isTripped j = false ∧ c'.2 = some (c.1.task j work) := by
  cases h with
  | aside hsame hquiet hknown => exact absurd hmem (submissions_eq_nil_iff.mp hquiet.1 hop x)
  | made hnew hstarted hphase => cases hmem
  | busy _ hphase hnext => exact absurd hmem (submissions_eq_nil_iff.mp rfl hop x)
  | begin _ hphase hnext hhand =>
    cases List.mem_singleton.mp hmem
    exact .inl ⟨rfl, hphase⟩
  | hand _ hdue htripped hnext hhand =>
    cases List.mem_singleton.mp hmem
    exact .inr ⟨_, rfl, hdue, htripped, hhand⟩
  | ran hhand htask hends hnext => exact absurd hmem (submissions_eq_nil_iff.mp (hends.submissions_eq_nil j) hop x)
  | lost hheld htask hlost hnext => cases hmem
  | settle _ hsettles hnext => exact absurd hmem (submissions_eq_nil_iff.mp (quiet_ended j j _).1 hop x)
  | breakOff _ hphase hnext => exact absurd hmem (submissions_eq_nil_iff.mp rfl hop x)
  | abandon _ hopen hnext => exact absurd hmem (submissions_eq_nil_iff.mp rfl hop x)

/-- A task that is newly on its way was handed over in this turn. -/
theorem Turn.holds (h : Turn stages allowed c c') {t : Task} (ht : c'.1.Holds c'.2 t) :
    c.1.Holds c.2 t ∨
      c'.2 = some t ∧ ∃ x, c'.1.trace = c.1.trace ++ [.submitted t.inference t.work.hop x] := by
  cases h with
  | move hmove =>
    cases hmove with
    | take htake => exact .inl (holds_of_take htake ht)
    | queue _ => exact .inl (holds_of_queued ht)
    | @count e t' => exact .inl (holds_of_alike (alike_count e _ _) ht)
    | lose _ =>
      obtain ⟨x, hx⟩ := holds_none.mp (holds_of_answer ht)
      exact .inl (.inr ⟨x, hx⟩)
    | @run e t' =>
      obtain ⟨e', reply, halike, -, heq, -⟩ := runTask_answers stages e t'
      simp only [heq] at ht
      obtain ⟨x, hx⟩ := holds_none.mp (holds_of_alike halike (holds_of_answer ht))
      exact .inl (.inr ⟨x, hx⟩)
    | busy _ _ _ => exact .inl ht
    | begin _ _ _ =>
      rcases ht with ht | ht
      · cases ht
        exact .inr ⟨rfl, _, rfl⟩
      · exact .inl (.inr ht)
    | hand _ _ _ =>
      rcases ht with ht | ht
      · cases ht
        exact .inr ⟨rfl, _, rfl⟩
      · exact .inl (.inr ht)
    | @settle e id result notice _ _ => cases notice <;> exact .inl ht
    | breakOff _ _ => exact .inl ht
  | defer => exact .inl (holds_of_queued ht)
  | @call e s hcall hallowed =>
    have hdoes := step_does stages e hcall
    generalize e.step stages s = next at hdoes ht ⊢
    cases hdoes with
    | lose htake =>
      obtain ⟨y, hy⟩ := holds_none.mp (holds_of_answer ht)
      exact .inl (.inr ⟨y, mem_queue_take htake hy⟩)
    | _ => exact .inl ht

/-- It is the first task of its inference, or one that was due. -/
theorem Turn.holds_due (h : Turn stages allowed c c') {t : Task} (ht : c'.1.Holds c'.2 t) :
    c.1.Holds c.2 t ∨ t.work.hop = .start ∧ (c.1.inferences t.inference).phase = .created ∨
      c.1.Due t.inference t.work := by
  rcases h.holds ht with hold | ⟨hhand, x, hx⟩
  · exact .inl hold
  · obtain ⟨more, htrace, hpart⟩ := h.part t.inference
    rw [htrace] at hx
    have hmem : .submitted t.inference t.work.hop x ∈ more := by
      rw [List.append_cancel_left hx]
      exact List.mem_singleton_self _
    rcases hpart.handed hmem with hfirst | ⟨work, -, hdue, -, hnew⟩
    · exact .inr (.inl hfirst)
    · rw [hhand] at hnew
      have hsame : t.work = work := congrArg Task.work (Option.some.inj hnew)
      exact .inr (.inr (hsame ▸ hdue))

theorem Turns.trace (h : Turns stages allowed c c') : ∃ more, c'.1.trace = c.1.trace ++ more := by
  induction h with
  | refl => exact ⟨[], (List.append_nil _).symm⟩
  | tail _ hturn ih =>
    obtain ⟨before, hbefore⟩ := ih
    obtain ⟨more, hmore, -⟩ := hturn.part 0
    exact ⟨before ++ more, by rw [hmore, hbefore, List.append_assoc]⟩

end Engine

end DevicePlugin
