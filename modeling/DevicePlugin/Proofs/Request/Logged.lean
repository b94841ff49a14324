import DevicePlugin.Proofs.Request.Cancelled

/-!
# What is logged of an inference

An inference that settles logs how it has ended, once, and nothing before or after.
There are exceptions, though, on the way to its callback: an inference that is stopped
before it hands the callback over, or before it hears of its return, ends without a
word, and so does one whose callback is lost. Whoever is turned away logs nothing.
-/

namespace DevicePlugin

namespace Engine

variable {σ : Type}

def notices (j : InferenceId) (trace : List Happening) : List Notice :=
  trace.filterMap fun
    | .logged i notice => if i = j then some notice else none
    | _ => none

@[simp] theorem notices_append (j : InferenceId) (trace more : List Happening) :
    notices j (trace ++ more) = notices j trace ++ notices j more :=
  List.filterMap_append

theorem notices_ended (j : InferenceId) (notice : Option Notice) :
    notices j ((notice.map (.logged j)).toList ++ [.ended j]) = notice.toList := by
  cases notice <;> simp [notices]

theorem notices_ended_of_ne {j id : InferenceId} (hid : id ≠ j) (notice : Option Notice) :
    notices j ((notice.map (.logged id)).toList ++ [.ended id]) = [] := by
  cases notice <;> simp [notices, hid]

theorem notices_settle (e : Engine σ) (j : InferenceId) (notice : Option Notice) (result : InferResult) :
    notices j ((e.logged j notice).settle j result).trace = notices j e.trace ++ notice.toList := by
  rw [settle, logged_finish_trace, notices_append, notices_ended]

inductive Tells : InferResult → Notice → Prop
  | cancelled (executor : String) : Tells (.error .cancelled) (.inferenceCancelled executor)
  | completed {result : InferResult} (h : result ≠ .error .cancelled) :
      Tells result (.inferenceCompleted result.isOk)

def Heard (j : InferenceId) (trace : List Happening) (result : InferResult) : Prop :=
  ∃ notice, Tells result notice ∧ notices j trace = [notice]

def Notifies (j : InferenceId) (trace : List Happening) : Prop := ∃ x, (Hop.notify, x) ∈ submissions j trace

def Returned (j : InferenceId) (trace : List Happening) : Prop := ∃ call ∈ calls j trace, call.1.panics = false

def Unheard (j : InferenceId) (trace : List Happening) (result : InferResult) : Prop :=
  Notifies j trace ∧ (result = .error .cancelled ∨ ¬Returned j trace)

/-- The inference is stopped, and has a callback that it must not hand over any more. -/
structure Barred (j : InferenceId) (e : Engine σ) : Prop where
  tripped : e.isTripped j = true
  registered : (e.requests (e.inferences j).request).callback ≠ none

theorem Heard.ne_nil {j : InferenceId} {trace : List Happening} {result : InferResult} (h : Heard j trace result) :
    notices j trace ≠ [] := by
  obtain ⟨notice, -, hnotices⟩ := h
  rw [hnotices]
  exact List.cons_ne_nil _ _

theorem Notifies.ne_nil {j : InferenceId} {trace : List Happening} (h : Notifies j trace) :
    submissions j trace ≠ [] := by
  obtain ⟨x, hx⟩ := h
  exact List.ne_nil_of_mem hx

section

variable {stages : RequestId → Stages σ} {allowed : Step σ → Prop} {c c' : Engine σ × Option Task}

/-! ## One turn -/

theorem Ends.notices_eq_nil {stages : Stages σ} {e : Engine σ} {t : Task} {reply : Reply} {more : List Happening}
    {state : σ} (h : Ends stages e t reply more state) (j : InferenceId) : notices j more = [] := by
  cases h <;> rfl

/-- An inference logs only what belongs to its settling, in the move in which it settles. -/
theorem Move.logs (h : Move stages c c') (j : InferenceId) :
    notices j c'.1.trace = notices j c.1.trace ∨
      j < c.1.started ∧ ∃ result notice, c.1.Settles j result notice ∧
        (c'.1.inferences j).phase = .settled result := by
  cases h with
  | take htake =>
    obtain ⟨-, executor, rfl⟩ := takeTask_eq htake
    exact .inl rfl
  | queue _ => exact .inl rfl
  | count => exact .inl rfl
  | @lose e t _ =>
    left
    rw [dropTask, answer_trace]
  | @run e t =>
    left
    obtain ⟨reply, more, e', hruns, heq⟩ := runTask_runs stages e t
    rw [heq, answer_trace, hruns.trace, notices_append, hruns.ends.notices_eq_nil j, List.append_nil]
  | busy _ _ _ => exact .inl ((notices_append _ _ _).trans (List.append_nil _))
  | begin _ _ _ => exact .inl ((notices_append _ _ _).trans (List.append_nil _))
  | hand _ _ _ => exact .inl ((notices_append _ _ _).trans (List.append_nil _))
  | @settle e id result notice hid hs =>
    by_cases hj : id = j
    · subst hj
      refine .inr ⟨hid, result, notice, hs, ?_⟩
      rw [show ((e.logged id notice).settle id result).inferences id = _ from
        congrFun (logged_finish_inferences e id notice (.settled result)) id, setPhase_inferences_self]
    · left
      rw [show ((e.logged id notice).settle id result).trace = _ from logged_finish_trace e id notice _,
        notices_append, notices_ended_of_ne hj, List.append_nil]
  | breakOff _ _ => exact .inl ((notices_append _ _ _).trans (List.append_nil _))

theorem Turn.logs (h : Turn stages allowed c c') (j : InferenceId) :
    notices j c'.1.trace = notices j c.1.trace ∨
      j < c.1.started ∧ ∃ result notice, c.1.Settles j result notice ∧
        (c'.1.inferences j).phase = .settled result := by
  cases h with
  | move hmove => exact hmove.logs j
  | defer => exact .inl rfl
  | @call e s hcall hallowed =>
    left
    have hdoes := step_does stages e hcall
    generalize e.step stages s = next at hdoes ⊢
    cases hdoes with
    | lose htake =>
      obtain ⟨-, executor, rfl⟩ := takeTask_eq htake
      rw [answer_trace]
      rfl
    | giveUp hid hphase => exact (notices_append _ _ _).trans (List.append_nil _)
    | leave hid hphase => exact (notices_append _ _ _).trans (List.append_nil _)
    | _ => rfl

/-- Who does not settle now logs nothing now. -/
theorem Turn.notices_eq (h : Turn stages allowed c c') {j : InferenceId}
    (hkept : ∀ result, (c'.1.inferences j).phase = .settled result → (c.1.inferences j).phase = .settled result) :
    notices j c'.1.trace = notices j c.1.trace := by
  rcases h.logs j with hsame | ⟨-, result, notice, hs, hphase⟩
  · exact hsame
  · have hactive := hs.isActive
    rw [hkept result hphase] at hactive
    cases hactive

/-- Callbacks are replaced, but not taken away. -/
theorem Turn.registered (h : Turn stages allowed c c') {rid : RequestId}
    (hregistered : (c.1.requests rid).callback ≠ none) : (c'.1.requests rid).callback ≠ none := by
  rcases h.wired with hw | ⟨r, callback, -, hnext⟩
  · rw [hw.callback]
    exact hregistered
  · by_cases hr : rid = r
    · simp [hnext, setCallback, setRequest, hr]
    · simpa [hnext, setCallback, setRequest, hr] using hregistered

theorem Turn.barred (h : Turn stages allowed c c') {j : InferenceId} (hj : j < c.1.started)
    (htoken : (c'.1.inferences j).token = (c.1.inferences j).token) (hbarred : Barred j c.1) : Barred j c'.1 := by
  constructor
  · rw [isTripped_iff, htoken, h.request hj]
    exact h.mem_tripped (isTripped_iff.mp hbarred.tripped)
  · rw [h.request hj]
    exact h.registered hbarred.registered

end

/-! ## The books of one inference -/

def Replied (j : InferenceId) (trace : List Happening) : Reply → Prop
  | .waiting => ¬Returned j trace
  | .delivered result => result ≠ .error .cancelled ∧ Returned j trace
  | .dropped => ¬Returned j trace

inductive Closed (j : InferenceId) (e : Engine σ) (result : InferResult) : Prop
  | turnedAway (hresult : result = .error .busy) (hnone : submissions j e.trace = [])
      (hsilent : notices j e.trace = [])
  | heard (hbegun : submissions j e.trace ≠ []) (hheard : Heard j e.trace result)
      (hreturned : Notifies j e.trace → result ≠ .error .cancelled ∧ Returned j e.trace)
  | stopped (hbegun : submissions j e.trace ≠ []) (hsilent : notices j e.trace = [])
      (hresult : result = .error .cancelled) (hbarred : Barred j e)
  | unheard (hsilent : notices j e.trace = []) (hunheard : Unheard j e.trace result)

structure Staged (j : InferenceId) (e : Engine σ) : Prop where
  begun : submissions j e.trace ≠ []
  unhanded : ¬Notifies j e.trace
  uncalled : ¬Returned j e.trace
  silent : notices j e.trace = []

/-- What has been seen of an inference when it is in this phase. -/
def Booked (j : InferenceId) (e : Engine σ) : Phase → Prop
  | .created => submissions j e.trace = [] ∧ ¬Returned j e.trace ∧ notices j e.trace = []
  | .awaiting .start _ => Staged j e
  | .awaiting .finish _ => Staged j e
  | .awaiting .notify reply => Notifies j e.trace ∧ Replied j e.trace reply ∧ notices j e.trace = []
  | .settled result => Closed j e result
  | .panicked => notices j e.trace = []
  | .abandoned => notices j e.trace = []

section

variable {e e' : Engine σ} {j : InferenceId}

theorem Booked.silent {phase : Phase} (h : Booked j e phase) (hopen : ∀ result, phase ≠ .settled result) :
    notices j e.trace = [] := by
  match phase with
  | .created => exact h.2.2
  | .awaiting .start _ => exact Staged.silent h
  | .awaiting .finish _ => exact Staged.silent h
  | .awaiting .notify _ => exact h.2.2
  | .settled result => exact absurd rfl (hopen result)
  | .panicked => exact h
  | .abandoned => exact h

theorem booked_of_stages {hop : Hop} (hhop : hop ≠ .notify) (reply : Reply) :
    Booked j e (.awaiting hop reply) ↔ Staged j e := by
  cases hop with
  | start => exact Iff.rfl
  | finish => exact Iff.rfl
  | notify => exact absurd rfl hhop

theorem Closed.of_unbegun {result : InferResult} (h : Closed j e result) (hnone : submissions j e.trace = []) :
    result = .error .busy ∧ notices j e.trace = [] := by
  cases h with
  | turnedAway hresult _ hsilent => exact ⟨hresult, hsilent⟩
  | heard hbegun _ _ => exact absurd hnone hbegun
  | stopped hbegun _ _ _ => exact absurd hnone hbegun
  | unheard _ hunheard => exact absurd hnone hunheard.1.ne_nil

theorem Closed.heard_or_silent {result : InferResult} (h : Closed j e result) :
    Heard j e.trace result ∨ notices j e.trace = [] := by
  cases h with
  | turnedAway _ _ hsilent => exact .inr hsilent
  | heard _ hheard _ => exact .inl hheard
  | stopped _ hsilent _ _ => exact .inr hsilent
  | unheard hsilent _ => exact .inr hsilent

theorem Closed.silent_of_unheard {result : InferResult} (h : Closed j e result)
    (hunheard : Unheard j e.trace result) : notices j e.trace = [] := by
  cases h with
  | turnedAway _ _ hsilent => exact hsilent
  | heard _ hheard hreturned =>
    obtain ⟨hresult, hback⟩ := hreturned hunheard.1
    rcases hunheard.2 with hcancelled | hnever
    · exact absurd hcancelled hresult
    · exact absurd hback hnever
  | stopped _ hsilent _ _ => exact hsilent
  | unheard hsilent _ => exact hsilent

/-- Calls that come later are those of an inference that was cancelled. -/
theorem Closed.kept {result : InferResult} (h : Closed j e result)
    (hsubmissions : submissions j e'.trace = submissions j e.trace) (hnotices : notices j e'.trace = notices j e.trace)
    (hbarred : Barred j e → Barred j e')
    (hcalls : Returned j e.trace → Returned j e'.trace)
    (hnew : result = .error .cancelled ∨ (Returned j e'.trace → Returned j e.trace)) : Closed j e' result := by
  have hnotifies : Notifies j e'.trace ↔ Notifies j e.trace := by rw [Notifies, Notifies, hsubmissions]
  cases h with
  | turnedAway hresult hnone hsilent =>
    exact .turnedAway hresult (hsubmissions.trans hnone) (hnotices.trans hsilent)
  | heard hbegun hheard hreturned =>
    refine .heard (hsubmissions ▸ hbegun) ?_ fun hhanded => ?_
    · rwa [Heard, hnotices]
    · obtain ⟨hresult, hback⟩ := hreturned (hnotifies.mp hhanded)
      exact ⟨hresult, hcalls hback⟩
  | stopped hbegun hsilent hresult hstopped =>
    exact .stopped (hsubmissions ▸ hbegun) (hnotices.trans hsilent) hresult (hbarred hstopped)
  | unheard hsilent hunheard =>
    refine .unheard (hnotices.trans hsilent) ⟨hnotifies.mpr hunheard.1, ?_⟩
    rcases hnew with hresult | hnew
    · exact .inl hresult
    · exact hunheard.2.imp_right fun hnever hback => hnever (hnew hback)

structure SameBooks (j : InferenceId) (e e' : Engine σ) : Prop where
  submissions : submissions j e'.trace = submissions j e.trace
  calls : calls j e'.trace = calls j e.trace
  notices : notices j e'.trace = notices j e.trace
  barred : Barred j e → Barred j e'

theorem Booked.kept {phase : Phase} (h : Booked j e phase) (hsame : SameBooks j e e') : Booked j e' phase := by
  obtain ⟨hsubmissions, hcalls, hnotices, hbarred⟩ := hsame
  have hreturned : Returned j e'.trace ↔ Returned j e.trace := by rw [Returned, Returned, hcalls]
  have hnotifies : Notifies j e'.trace ↔ Notifies j e.trace := by rw [Notifies, Notifies, hsubmissions]
  have hstaged (hstages : Staged j e) : Staged j e' :=
    ⟨hsubmissions ▸ hstages.begun, mt hnotifies.mp hstages.unhanded, mt hreturned.mp hstages.uncalled,
      hnotices.trans hstages.silent⟩
  match phase with
  | .created => exact ⟨hsubmissions.trans h.1, mt hreturned.mp h.2.1, hnotices.trans h.2.2⟩
  | .awaiting .start _ => exact hstaged h
  | .awaiting .finish _ => exact hstaged h
  | .awaiting .notify reply =>
    refine ⟨hnotifies.mpr h.1, ?_, hnotices.trans h.2.2⟩
    cases reply with
    | waiting => exact mt hreturned.mp h.2.1
    | delivered result => exact ⟨h.2.1.1, hreturned.mpr h.2.1.2⟩
    | dropped => exact mt hreturned.mp h.2.1
  | .settled result => exact Closed.kept h hsubmissions hnotices hbarred hreturned.mpr (.inr hreturned.mp)
  | .panicked => exact hnotices.trans h
  | .abandoned => exact hnotices.trans h

end

section

variable {stages : RequestId → Stages σ} {allowed : Step σ → Prop} {c c' : Engine σ × Option Task}
  {j : InferenceId} {more : List Happening}

theorem Ends.returned {stages : Stages σ} {e : Engine σ} {t : Task} {reply : Reply} {state : σ}
    (h : Ends stages e t reply more state) {callback : Callback} {result : InferResult}
    (hwork : t.work = .notify callback result) :
    reply = .delivered result ∧ Returned t.inference more ∨ reply = .dropped ∧ ¬Returned t.inference more := by
  have hcalled : calls t.inference [.called t.inference callback result] = [(callback, result)] := by simp [calls]
  cases h with
  | poisoned hstages hpoisoned => rw [hwork] at hstages; rcases hstages with hstages | hstages <;> cases hstages
  | stages hstages hpoisoned hrun => rw [hwork] at hstages; rcases hstages with hstages | hstages <;> cases hstages
  | called hnotify hpanics =>
    cases hwork.symm.trans hnotify
    refine .inl ⟨rfl, (callback, result), ?_, hpanics⟩
    rw [hcalled]
    exact List.mem_singleton_self _
  | broke hnotify hpanics =>
    cases hwork.symm.trans hnotify
    refine .inr ⟨rfl, ?_⟩
    rintro ⟨call, hcall, hreturns⟩
    rw [hcalled, List.mem_singleton] at hcall
    rw [hcall, hpanics] at hreturns
    cases hreturns

theorem returned_append {trace : List Happening} :
    Returned j (trace ++ more) ↔ Returned j trace ∨ Returned j more := by
  simp only [Returned, calls_append, List.mem_append, or_and_right, exists_or]

/-- The inference hears of the task that was run, if it waits for it. -/
theorem Booked.ran (h : Booked j c.1 (c.1.inferences j).phase) (hs : Sound c.1 c.2) (hhonest : Honest c.1 c.2)
    (hsubmissions : submissions j c'.1.trace = submissions j c.1.trace)
    (hnotices : notices j c'.1.trace = notices j c.1.trace)
    (hbarred : Barred j c.1 → Barred j c'.1) {t : Task} {reply : Reply} (hhand : c.2 = some t)
    (hj : t.inference = j) (htrace : c'.1.trace = c.1.trace ++ more)
    (hends : Ends (stages t.request) c.1 t reply more c'.1.state)
    (hnext : (c'.1.inferences j).phase = (c.1.inferences j).phase.answered t.work.hop reply) :
    Booked j c'.1 (c'.1.inferences j).phase := by
  subst hj
  have hreturned : Returned t.inference c'.1.trace ↔ Returned t.inference c.1.trace ∨ Returned t.inference more := by
    rw [htrace, returned_append]
  rcases hs.owed t (.inl hhand) with hphase | hphase | hphase
  · rw [hphase, Phase.answered_awaiting] at hnext
    rw [hphase] at h
    rw [hnext]
    -- The stages call nobody, so that what is seen of their inference stays as it was.
    have hstages (hwork : t.work = .start ∨ t.work = .finish) :
        Booked t.inference c'.1 (.awaiting t.work.hop reply) := by
      have hhop : t.work.hop ≠ .notify := by rcases hwork with hwork | hwork <;> simp [hwork, Work.hop]
      have hcalls : calls t.inference c'.1.trace = calls t.inference c.1.trace := by
        rw [htrace, calls_append, (hends.quiet (.inr hwork)).2, List.append_nil]
      have hbefore := (booked_of_stages hhop reply).mpr ((booked_of_stages hhop _).mp h)
      exact hbefore.kept ⟨hsubmissions, hcalls, hnotices, hbarred⟩
    cases hwork : t.work with
    | start => exact hwork ▸ hstages (.inl hwork)
    | finish => exact hwork ▸ hstages (.inr hwork)
    | notify callback result =>
      rw [hwork] at h
      obtain ⟨hhanded, hwaiting, hsilent⟩ := h
      refine ⟨by rwa [Notifies, hsubmissions], ?_, hnotices.trans hsilent⟩
      rcases hends.returned hwork with ⟨rfl, hback⟩ | ⟨rfl, hback⟩
      · exact ⟨hhonest.carried t (.inl hhand) callback result hwork, hreturned.mpr (.inr hback)⟩
      · exact fun hcalled => (hreturned.mp hcalled).elim hwaiting hback
  · rw [hphase] at h hnext
    rw [hnext]
    exact Closed.kept h hsubmissions hnotices hbarred (fun hback => hreturned.mpr (.inl hback)) (.inl rfl)
  · rw [hphase] at h hnext
    rw [hnext]
    exact hnotices.trans h

theorem Booked.lost (h : Booked j c.1 (c.1.inferences j).phase) (hs : Sound c.1 c.2) (hsame : SameBooks j c.1 c'.1)
    {t : Task} (hheld : c.1.Holds c.2 t)
    (hj : t.inference = j)
    (hnext : (c'.1.inferences j).phase = (c.1.inferences j).phase.answered t.work.hop .dropped) :
    Booked j c'.1 (c'.1.inferences j).phase := by
  subst hj
  rw [hnext]
  rcases hs.owed t hheld with hphase | hphase | hphase
  · rw [hphase] at h ⊢
    rw [Phase.answered_awaiting]
    refine Booked.kept ?_ hsame
    by_cases hhop : t.work.hop = .notify
    · rw [hhop] at h ⊢
      exact h
    · exact (booked_of_stages hhop .dropped).mpr ((booked_of_stages hhop .waiting).mp h)
  · rw [hphase] at h ⊢
    exact h.kept hsame
  · rw [hphase] at h ⊢
    exact h.kept hsame

theorem Booked.staged {result : InferResult} (h : Booked j c.1 (c.1.inferences j).phase)
    (hc : c.1.Concludes j result) : Staged j c.1 := by
  cases hc with
  | start failure hphase =>
    rw [hphase] at h
    exact h
  | finish _ hphase =>
    rw [hphase] at h
    exact h
  | dropped hop hhop hphase executor => exact (booked_of_stages hhop .dropped).mp (hphase ▸ h)

/-- The first task is handed over, or the second. -/
theorem staged_of_handed (hsubmissions : ¬Notifies j c.1.trace) (hreturned : ¬Returned j c.1.trace)
    (hsilent : notices j c.1.trace = []) {hop : Hop} (hhop : hop ≠ .notify) {x : ExecutorId}
    (htrace : c'.1.trace = c.1.trace ++ [.submitted j hop x]) : Staged j c'.1 := by
  have hlast : submissions j [.submitted j hop x] = [(hop, x)] := by simp [submissions]
  constructor
  · rw [htrace, submissions_append, hlast]
    exact List.append_ne_nil_of_right_ne_nil _ (List.cons_ne_nil _ _)
  · rintro ⟨y, hy⟩
    rw [htrace, submissions_append, hlast, List.mem_append, List.mem_singleton] at hy
    rcases hy with hy | hy
    · exact hsubmissions ⟨y, hy⟩
    · exact hhop (congrArg Prod.fst hy).symm
  · rw [Returned, htrace, calls_append]
    exact fun hback => hreturned (by simpa [Returned, calls] using hback)
  · rw [htrace, notices_append, hsilent]
    rfl

theorem Booked.hand (h : Booked j c.1 (c.1.inferences j).phase) {work : Work} (hdue : c.1.Due j work) {x : ExecutorId}
    (htrace : c'.1.trace = c.1.trace ++ [.submitted j work.hop x]) : Booked j c'.1 (.awaiting work.hop .waiting) := by
  cases hdue with
  | finish hphase =>
    rw [hphase] at h
    exact staged_of_handed (Staged.unhanded h) (Staged.uncalled h) (Staged.silent h) (by simp [Work.hop]) htrace
  | notify callback result hc hresult hcallback =>
    have hstaged : Staged j c.1 := h.staged hc
    refine ⟨⟨x, ?_⟩, ?_, ?_⟩
    · rw [htrace, submissions_append]
      exact List.mem_append_right _ (by simp [submissions, Work.hop])
    · rw [Replied, Returned, htrace, calls_append]
      exact fun hback => hstaged.uncalled (by simpa [Returned, calls] using hback)
    · rw [htrace, notices_append, hstaged.silent]
      rfl

theorem Staged.heard {e e' : Engine σ} (h : Staged j e) {result : InferResult} {notice : Notice}
    (htells : Tells result notice) (hsubmissions : submissions j e'.trace = submissions j e.trace)
    (hnotices : notices j e'.trace = notices j e.trace ++ [notice]) : Closed j e' result := by
  refine .heard (hsubmissions ▸ h.begun) ⟨notice, htells, by rw [hnotices, h.silent, List.nil_append]⟩ ?_
  rw [Notifies, hsubmissions]
  exact fun hhanded => absurd hhanded h.unhanded

/-- Each way to settle says how it ended, or is an exception. -/
theorem Booked.settle (h : Booked j c.1 (c.1.inferences j).phase) {result : InferResult} {notice : Option Notice}
    (hsettles : c.1.Settles j result notice)
    (hsubmissions : submissions j c'.1.trace = submissions j c.1.trace)
    (hcalls : calls j c'.1.trace = calls j c.1.trace)
    (hnotices : notices j c'.1.trace = notices j c.1.trace ++ notice.toList)
    (hbarred : Barred j c.1 → Barred j c'.1) : Closed j c'.1 result := by
  have hnotifies : Notifies j c'.1.trace ↔ Notifies j c.1.trace := by rw [Notifies, Notifies, hsubmissions]
  have hreturned : Returned j c'.1.trace ↔ Returned j c.1.trace := by rw [Returned, Returned, hcalls]
  cases hsettles with
  | cancelled hop reply hhop hphase hstopped executor =>
    have hstaged : Staged j c.1 := (booked_of_stages hhop reply).mp (hphase ▸ h)
    exact hstaged.heard (.cancelled executor) hsubmissions hnotices
  | gaveUp hc executor => exact (h.staged hc).heard (.cancelled executor) hsubmissions hnotices
  | unheard _ hc hresult hcallback => exact (h.staged hc).heard (.completed hresult) hsubmissions hnotices
  | uncalled told callback hc hresult hcallback hstopped =>
    have hstaged : Staged j c.1 := h.staged hc
    refine .stopped (hsubmissions ▸ hstaged.begun) ?_ rfl (hbarred ⟨hstopped, by simp [hcallback]⟩)
    rw [hnotices, hstaged.silent]
    rfl
  | told _ hphase =>
    rw [hphase] at h
    obtain ⟨hhanded, ⟨hresult, hback⟩, hsilent⟩ := h
    refine .heard (hsubmissions ▸ hhanded.ne_nil) ⟨_, .completed hresult, ?_⟩ fun _ => ⟨hresult, hreturned.mpr hback⟩
    rw [hnotices, hsilent]
    rfl
  | untold hphase executor =>
    rw [hphase] at h
    obtain ⟨hhanded, hnever, hsilent⟩ := h
    refine .unheard ?_ ⟨hnotifies.mpr hhanded, .inr (mt hreturned.mp hnever)⟩
    rw [hnotices, hsilent]
    rfl
  | unawaited reply hphase hstopped =>
    rw [hphase] at h
    obtain ⟨hhanded, -, hsilent⟩ := h
    refine .unheard ?_ ⟨hnotifies.mpr hhanded, .inl rfl⟩
    rw [hnotices, hsilent]
    rfl

/-- The books of an inference that was made are kept by every turn. -/
theorem Booked.turn (h : Booked j c.1 (c.1.inferences j).phase) (hs : Sound c.1 c.2) (hhonest : Honest c.1 c.2)
    (hj : j < c.1.started) (ht : Turn stages allowed c c') : Booked j c'.1 (c'.1.inferences j).phase := by
  obtain ⟨more, htrace, hpart⟩ := ht.part j
  have hcreated (hphase : (c.1.inferences j).phase = .created) :
      submissions j c.1.trace = [] ∧ ¬Returned j c.1.trace ∧ notices j c.1.trace = [] := by
    rw [hphase] at h
    exact h
  have hsubmissions (hnone : submissions j more = []) : submissions j c'.1.trace = submissions j c.1.trace := by
    rw [htrace, submissions_append, hnone, List.append_nil]
  have hcalls (hnone : calls j more = []) : calls j c'.1.trace = calls j c.1.trace := by
    rw [htrace, calls_append, hnone, List.append_nil]
  have hbarred (hbegun : (c.1.inferences j).phase ≠ .created) : Barred j c.1 → Barred j c'.1 :=
    ht.barred hj (hpart.begun hj hbegun).2
  cases hpart with
  | made hnew hstarted hphase => exact absurd hj (hnew ▸ Nat.lt_irrefl _)
  | aside hsame hquiet hknown =>
    have hnotices : notices j c'.1.trace = notices j c.1.trace := ht.notices_eq fun result hphase => hsame ▸ hphase
    rw [hsame]
    exact h.kept ⟨hsubmissions hquiet.1, hcalls hquiet.2, hnotices, ht.barred hj (by rw [hsame])⟩
  | busy _ hphase hnext hflight =>
    obtain ⟨hnone, -, hsilent⟩ := hcreated hphase
    rw [hnext]
    refine .turnedAway rfl ((hsubmissions rfl).trans hnone) ?_
    rw [htrace, notices_append, hsilent]
    rfl
  | begin _ hphase hnext hhand =>
    obtain ⟨hnone, hnever, hsilent⟩ := hcreated hphase
    have hunhanded : ¬Notifies j c.1.trace := by simp [Notifies, hnone]
    rw [hnext]
    exact staged_of_handed hunhanded hnever hsilent (by simp) htrace
  | hand _ hdue htripped hnext hhand =>
    rw [hnext]
    exact h.hand hdue htrace
  | @ran t reply _ hhand htask hends hnext =>
    have hbegun : (c.1.inferences j).phase ≠ .created := fun hphase =>
      hs.inference_ne_of_created hphase (.inl hhand) htask
    refine h.ran hs hhonest (hsubmissions (hends.submissions_eq_nil j)) ?_ (hbarred hbegun) hhand htask htrace
      hends (by rw [hnext])
    rw [htrace, notices_append, hends.notices_eq_nil j, List.append_nil]
  | @lost t hheld htask hlost hnext =>
    have hbegun : (c.1.inferences j).phase ≠ .created := fun hphase =>
      hs.inference_ne_of_created hphase hheld htask
    refine h.lost hs ⟨hsubmissions rfl, hcalls rfl, ?_, hbarred hbegun⟩ hheld htask (by rw [hnext])
    rw [htrace, List.append_nil]
  | @settle result notice _ hsettles hnext =>
    have hbegun : (c.1.inferences j).phase ≠ .created := by
      have hactive := hsettles.isActive
      intro hphase
      rw [hphase] at hactive
      cases hactive
    obtain ⟨hnone, hsilent⟩ := quiet_ended j j notice
    rw [hnext]
    refine h.settle hsettles (hsubmissions hnone) (hcalls hsilent) ?_ (hbarred hbegun)
    rw [htrace, notices_append, notices_ended]
  | breakOff _ hphase hnext =>
    rw [hnext]
    show notices j c'.1.trace = []
    rw [htrace, notices_append, h.silent (by simp [hphase])]
    rfl
  | abandon _ hopen hnext hallowed =>
    rw [hnext]
    show notices j c'.1.trace = []
    rw [htrace, notices_append, h.silent fun result hphase => by simp [hphase, Phase.isOpen] at hopen]
    rfl

/-- Once it has settled, an inference has settled for good, and logs nothing more. -/
theorem Turn.settled (ht : Turn stages allowed c c') (hj : j < c.1.started) {result : InferResult}
    (hphase : (c.1.inferences j).phase = .settled result) :
    (c'.1.inferences j).phase = .settled result ∧ notices j c'.1.trace = notices j c.1.trace := by
  have hkept : (c'.1.inferences j).phase = .settled result := by
    obtain ⟨more, -, hpart⟩ := ht.part j
    cases hpart with
    | made hnew hstarted hmade => exact absurd hj (hnew ▸ Nat.lt_irrefl _)
    | hand _ hdue htripped hnext hhand =>
      obtain ⟨hop, reply, -, hawaiting⟩ := Sound.due_awaiting hdue
      rw [hphase] at hawaiting
      cases hawaiting
    | settle _ hsettles hnext =>
      have hactive := hsettles.isActive
      rw [hphase] at hactive
      cases hactive
    | ran hhand htask hends hnext => simp [hnext, hphase, Phase.answered]
    | lost hheld htask hlost hnext => simp [hnext, hphase, Phase.answered]
    | abandon _ hopen hnext hallowed =>
      rw [hphase] at hopen
      cases hopen
    | _ => simp_all
  refine ⟨hkept, ht.notices_eq fun last hlast => ?_⟩
  rw [hphase, ← hkept, hlast]

theorem settled_turns (hway : Turns stages allowed c c') (hj : j < c.1.started) {result : InferResult}
    (hphase : (c.1.inferences j).phase = .settled result) : notices j c'.1.trace = notices j c.1.trace := by
  have hall : j < c'.1.started ∧ (c'.1.inferences j).phase = .settled result ∧
      notices j c'.1.trace = notices j c.1.trace := by
    induction hway with
    | refl => exact ⟨hj, hphase, rfl⟩
    | tail _ hturn ih =>
      obtain ⟨hknown, hsettled, hsame⟩ := ih
      obtain ⟨hsettled', hnotices⟩ := hturn.settled hknown hsettled
      exact ⟨Nat.lt_of_lt_of_le hknown hturn.started_le, hsettled', hnotices.trans hsame⟩
  exact hall.2.2

/-! ## All inferences -/

structure Ledger (c : Engine σ × Option Task) : Prop where
  unmade : ∀ j, c.1.started ≤ j → Quiet j c.1.trace ∧ notices j c.1.trace = []
  made : ∀ j, j < c.1.started → Booked j c.1 (c.1.inferences j).phase

theorem Ledger.turn (h : Ledger c) (hc : Visited stages c) (ht : Turn stages allowed c c') : Ledger c' where
  unmade := by
    intro j hj
    have hbefore : ¬j < c.1.started := Nat.not_lt.mpr (Nat.le_trans ht.started_le hj)
    obtain ⟨hquiet, hsilent⟩ := h.unmade j (Nat.not_lt.mp hbefore)
    obtain ⟨more, htrace, hpart⟩ := ht.part j
    constructor
    · rw [htrace]
      exact hquiet.append (hpart.of_unmade hc.sound hbefore).1
    · rcases ht.logs j with hsame | ⟨hknown, -⟩
      · exact hsame.trans hsilent
      · exact absurd hknown hbefore
  made := by
    intro j hj
    by_cases hbefore : j < c.1.started
    · exact (h.made j hbefore).turn hc.sound hc.honest hbefore ht
    · obtain ⟨hquiet, hsilent⟩ := h.unmade j (Nat.not_lt.mp hbefore)
      obtain ⟨more, htrace, hpart⟩ := ht.part j
      obtain ⟨hmore, hphase⟩ := hpart.of_unmade hc.sound hbefore
      have hnone : Quiet j c'.1.trace := htrace ▸ hquiet.append hmore
      rw [hphase hj]
      refine ⟨hnone.1, by simp [Returned, hnone.2], ?_⟩
      rcases ht.logs j with hsame | ⟨hknown, -⟩
      · exact hsame.trans hsilent
      · exact absurd hknown hbefore

theorem ledger_of_turns {start : Engine σ} (hnew : IsNew start) (htrace : start.trace = [])
    (hway : Turns stages allowed (start, none) c) : Ledger c := by
  have hall : Visited stages c ∧ Ledger c := by
    induction hway with
    | refl =>
      refine ⟨⟨start, hnew, .refl⟩, fun j _ => ?_, fun j hj => ?_⟩
      · rw [htrace]
        exact ⟨quiet_nil j, rfl⟩
      · rw [hnew.started] at hj
        exact absurd hj (Nat.not_lt_zero j)
    | tail _ hturn ih => exact ⟨ih.1.turns (.single hturn), ih.2.turn ih.1 hturn⟩
  exact hall.2

end

/-! ## Polling to the end -/

/-- A stopped inference hears that its stages have come to a result before it hears that it is stopped, so that
its callback would be next. -/
structure Refuses (e : Engine σ) (j : InferenceId) (preferReply : Bool) : Prop where
  barred : Barred j e
  prefers : preferReply = true
  concludes : ∃ result, e.Concludes j result ∧ result ≠ .error .cancelled

/-- Why an inference that settles when it is polled may end without a word. -/
def CutOff (e next : Engine σ) (j : InferenceId) (preferReply : Bool) (result : InferResult) : Prop :=
  Refuses e j preferReply ∨ Unheard j next.trace result

section

variable {e : Engine σ} {j : InferenceId} (stages : RequestId → Stages σ)

theorem conclude_of_unregistered {result : InferResult}
    (h : result = .error .cancelled ∨ (e.requests (e.inferences j).request).callback = none) (preferReply : Bool) :
    ∃ notice last, e.conclude stages preferReply j result = (e.logged j (some notice)).settle j last := by
  unfold conclude
  simp only
  split
  · exact ⟨_, _, rfl⟩
  · rename_i hresult
    rw [h.resolve_left fun hcancelled => hresult hcancelled]
    exact ⟨_, _, rfl⟩

section

variable (htripped : e.isTripped j = true)
include htripped

theorem conclude_of_registered {result : InferResult} (hresult : result ≠ .error .cancelled)
    (hcallback : (e.requests (e.inferences j).request).callback ≠ none) (preferReply : Bool) :
    e.conclude stages preferReply j result = (e.logged j none).settle j (.error .cancelled) := by
  obtain ⟨callback, hcallback⟩ := Option.ne_none_iff_exists'.mp hcallback
  unfold conclude
  simp only [hcallback, handOver_of_tripped htripped]
  split
  · rename_i hcancelled
    cases hcancelled
  · rfl

/-- A stopped inference that looks for the answer of a stage finds that it is stopped, or what the stages have
come to; only of the first task it may also find that it went well. -/
theorem look_of_stopped {hop : Hop} {reply : Reply} (hphase : (e.inferences j).phase = .awaiting hop reply)
    (hhop : hop ≠ .notify) (preferReply : Bool) :
    e.look preferReply j = .cancelled ∨ preferReply = true ∧ ∃ result, e.look preferReply j = .result result ∧
      (hop = .start ∧ result = .ok () ∨ e.Concludes j result) := by
  rcases look_of_tripped htripped hphase preferReply with hlook | ⟨hprefer, -, result, hlook, -⟩
  · exact .inl hlook
  · refine .inr ⟨hprefer, result, hlook, ?_⟩
    have hspec := look_spec hphase preferReply
    rw [hlook] at hspec
    rcases hspec with rfl | ⟨rfl, executor, rfl⟩
    · cases hop with
      | start =>
        cases result with
        | ok value => exact .inl ⟨rfl, rfl⟩
        | error failure => exact .inr (.start failure hphase)
      | finish => exact .inr (.finish result hphase)
      | notify => exact absurd rfl hhop
    · exact .inr (.dropped hop hhop hphase executor)

/-- Unless its callback would be next, a stopped inference logs its end when it is polled. -/
theorem poll_of_stopped {hop : Hop} {reply : Reply} (hphase : (e.inferences j).phase = .awaiting hop reply)
    (hhop : hop ≠ .notify) {preferReply : Bool} (hrefuses : ¬e.Refuses j preferReply) :
    ∃ notice last, e.poll stages preferReply j = (e.logged j (some notice)).settle j last := by
  have hstop : ∃ notice last, e.conclude stages preferReply j (.error .cancelled) =
      (e.logged j (some notice)).settle j last := conclude_of_unregistered stages (.inl rfl) preferReply
  have hend {result : InferResult} (hprefer : preferReply = true) (hc : e.Concludes j result) :
      ∃ notice last, e.conclude stages preferReply j result = (e.logged j (some notice)).settle j last := by
    refine conclude_of_unregistered stages ?_ preferReply
    by_contra hboth
    obtain ⟨hresult, hcallback⟩ := not_or.mp hboth
    exact hrefuses ⟨⟨htripped, hcallback⟩, hprefer, result, hc, hresult⟩
  have hlook := look_of_stopped htripped hphase hhop preferReply
  unfold poll
  simp only [hphase]
  cases hop with
  | start =>
    unfold afterStart
    rcases hlook with hlook | ⟨hprefer, result, hlook, hresult⟩
    · rw [hlook]
      exact hstop
    · rw [hlook]
      cases result with
      | ok value =>
        simp only [handOver_of_tripped htripped]
        exact hstop
      | error failure => exact hend hprefer (hresult.resolve_left fun hok => by cases hok.2)
  | finish =>
    unfold afterFinish
    rcases hlook with hlook | ⟨hprefer, result, hlook, hresult⟩
    · rw [hlook]
      exact hstop
    · rw [hlook]
      exact hend hprefer (hresult.resolve_left fun hok => by cases hok.1)
  | notify => exact absurd rfl hhop

end

theorem poll_of_refuses {preferReply : Bool} (h : e.Refuses j preferReply) :
    e.poll stages preferReply j = (e.logged j none).settle j (.error .cancelled) := by
  obtain ⟨⟨htripped, hcallback⟩, rfl, result, hc, hresult⟩ := h
  have hend {result : InferResult} (hresult : result ≠ .error .cancelled) :=
    conclude_of_registered stages htripped hresult hcallback true
  unfold poll
  cases hc with
  | start failure hphase =>
    simp only [hphase, afterStart, look, htripped, if_true]
    exact hend hresult
  | finish _ hphase =>
    simp only [hphase, afterFinish, look, htripped, if_true]
    exact hend hresult
  | dropped hop hhop hphase executor =>
    cases hop with
    | start =>
      simp only [hphase, afterStart, look, htripped, if_true]
      exact hend (by simp)
    | finish =>
      simp only [hphase, afterFinish, look, htripped, if_true]
      exact hend (by simp)
    | notify => exact absurd rfl hhop

/-- No inference is stopped by the poll in which it begins. -/
theorem isTripped_begin (hs : Sound e none) (hj : j < e.started)
    (hfree : (e.requests (e.inferences j).request).inFlight = false) (preferReply : Bool) :
    (e.begin stages preferReply j).isTripped j = false := by
  have hfresh := hs.token_fresh (e.inferences j).request
  have hmoves := begin_moves_of_free stages hj hfree hfresh preferReply
  have hbegun : (((e.taken j).handed j .start).inferences j).phase ≠ .created := by
    simp [handed, note, Work.hop]
  have hkept : (e.begin stages preferReply j).isTripped j = ((e.taken j).handed j .start).isTripped j :=
    isTripped_moves hj hbegun hmoves
  have huntripped : (e.taken j).isTripped j = false := isTripped_taken hfresh
  rw [hkept]
  simpa [Engine.isTripped, handed, note, setPhase, setInference] using huntripped

end

section

variable {stages : RequestId → Stages σ} {e : Engine σ} {j : InferenceId}

/-- A poll stops nobody: an inference that is stopped after it was stopped before, and had begun. -/
theorem isTripped_of_poll (hs : Sound e none) (hj : j < e.started)
    (hfree : (e.inferences j).phase = .created → (e.requests (e.inferences j).request).inFlight = false)
    {preferReply : Bool} (h : (e.poll stages preferReply j).isTripped j = true) :
    e.isTripped j = true ∧ (e.inferences j).phase ≠ .created := by
  have hbegun : (e.inferences j).phase ≠ .created := by
    intro hphase
    have hpoll : e.poll stages preferReply j = e.begin stages preferReply j := by
      simp only [poll, hphase]
    rw [hpoll, isTripped_begin stages hs hj (hfree hphase) preferReply] at h
    cases h
  refine ⟨?_, hbegun⟩
  rwa [isTripped_moves hj hbegun (poll_moves stages hj (hs.token_fresh _) preferReply)] at h

/-- Whoever settles in a poll without a word was cut off. -/
theorem cutOff_of_silent (hs : Sound e none) (hj : j < e.started)
    (hbooked : Booked j e (e.inferences j).phase) {preferReply : Bool} {result : InferResult}
    (hopen : (e.inferences j).phase.isOpen = true)
    (hclosed : Closed j (e.poll stages preferReply j) result)
    (hbegun : submissions j (e.poll stages preferReply j).trace ≠ [])
    (hsilent : notices j (e.poll stages preferReply j).trace = []) :
    CutOff e (e.poll stages preferReply j) j preferReply result := by
  cases hclosed with
  | turnedAway hresult hnone _ => exact absurd hnone hbegun
  | heard _ hheard hreturned => exact absurd hsilent hheard.ne_nil
  | unheard _ hunheard => exact .inr hunheard
  | stopped _ _ hresult hbarred =>
    have hfree (hphase : (e.inferences j).phase = .created) :
        (e.requests (e.inferences j).request).inFlight = false := by
      rw [hphase] at hbooked
      refine Bool.eq_false_iff.mpr fun hflight => hbegun ?_
      simp only [poll, hphase, begin_of_busy stages hflight]
      exact (submissions_append j e.trace _).trans (by rw [hbooked.1]; rfl)
    obtain ⟨htripped, hcreated⟩ := isTripped_of_poll hs hj hfree hbarred.tripped
    cases hphase : (e.inferences j).phase with
    | created => exact absurd hphase hcreated
    | awaiting hop reply =>
      by_cases hrefuses : e.Refuses j preferReply
      · exact .inl hrefuses
      · by_cases hhop : hop = .notify
        · subst hhop
          rw [hphase] at hbooked
          have hturns : Turns stages (fun _ => True) (e, none) (e.poll stages preferReply j, none) :=
            Moves.turns (poll_moves stages hj (hs.token_fresh _) preferReply)
          obtain ⟨more, htrace⟩ := hturns.trace
          obtain ⟨⟨x, hx⟩, -⟩ := hbooked
          refine .inr ⟨⟨x, ?_⟩, .inl hresult⟩
          rw [htrace, submissions_append]
          exact List.mem_append_left _ hx
        · obtain ⟨notice, last, hpoll⟩ := poll_of_stopped stages htripped hphase hhop hrefuses
          rw [hpoll, notices_settle] at hsilent
          exact absurd hsilent (List.append_ne_nil_of_right_ne_nil _ (List.cons_ne_nil _ _))
    | settled _ => rw [hphase] at hopen; cases hopen
    | panicked => rw [hphase] at hopen; cases hopen
    | abandoned => rw [hphase] at hopen; cases hopen

/-- An inference logs nothing before it settles or after. Whoever was turned away then has logged nothing. Who
was not has logged one event, which says how it ended, or was stopped or cut off from its callback, and has logged
nothing. If an inference settles when it is polled then the event is missing exactly if the inference was stopped
just before its callback would have been handed over, or ended without hearing that its callback had returned. -/
theorem logs_end_unless_cutOff {start : Engine σ} (hnew : IsNew start) (htrace : start.trace = []) {hand : Option Task}
    (hway : Turns stages (fun _ => True) (start, none) (e, hand)) (hj : j < e.started) :
    ((∀ result, (e.inferences j).phase ≠ .settled result) → notices j e.trace = []) ∧
    (∀ result, (e.inferences j).phase = .settled result → Closed j e result ∧
      ∀ c, Turns stages (fun _ => True) (e, hand) c → notices j c.1.trace = notices j e.trace) ∧
    (hand = none → (e.inferences j).phase.isOpen = true → ∀ (preferReply : Bool) (result : InferResult),
      let next := e.step stages (.poll j preferReply)
      (next.inferences j).phase = .settled result →
        (submissions j next.trace = [] → result = .error .busy ∧ notices j next.trace = []) ∧
        (submissions j next.trace ≠ [] →
          (Heard j next.trace result ↔ ¬CutOff e next j preferReply result) ∧
          (CutOff e next j preferReply result → notices j next.trace = []))) := by
  have hledger : Ledger (e, hand) := ledger_of_turns hnew htrace hway
  have hvisited : Visited stages (e, hand) := ⟨start, hnew, hway⟩
  refine ⟨(hledger.made j hj).silent, fun result hphase => ⟨?_, fun c hc => settled_turns hc hj hphase⟩, ?_⟩
  · have hbooked := hledger.made j hj
    rw [hphase] at hbooked
    exact hbooked
  · rintro rfl hopen preferReply result next hsettled
    have hpoll : next = e.poll stages preferReply j := if_pos hj
    have hturns : Turns stages (fun _ => True) (e, none) (next, none) := step_turns hvisited.sound trivial
    have hstarted : j < next.started := by
      rw [hpoll, Moves.started (poll_moves stages hj (hvisited.sound.token_fresh _) preferReply)]
      exact hj
    have hclosed : Closed j next result := by
      have hbooked := (ledger_of_turns hnew htrace (hway.trans hturns)).made j hstarted
      rw [hsettled] at hbooked
      exact hbooked
    have hsilent : CutOff e next j preferReply result → notices j next.trace = [] := by
      rintro (hrefuses | hunheard)
      · have hbefore : notices j e.trace = [] := by
          refine (hledger.made j hj).silent fun last hlast => ?_
          rw [hlast] at hopen
          cases hopen
        rw [hpoll, poll_of_refuses stages hrefuses, notices_settle, hbefore]
        rfl
      · exact hclosed.silent_of_unheard hunheard
    refine ⟨hclosed.of_unbegun, fun hbegun => ⟨⟨?_, fun hnot => ?_⟩, hsilent⟩⟩
    · exact fun hheard hcut => hheard.ne_nil (hsilent hcut)
    · rcases hclosed.heard_or_silent with hheard | hnone
      · exact hheard
      · refine absurd ?_ hnot
        rw [hpoll] at hclosed hbegun hnone ⊢
        exact cutOff_of_silent hvisited.sound hj (hledger.made j hj) hopen hclosed hbegun hnone

end

/-- Nobody is stopped, and the callback returns. -/
theorem logs_end_told :
    let history : List (Step Shared) := [.setCallback 0 { label := "told" }, .infer 0, .poll 0 true, .runQueued 1 0]
    let next := (deferring.steps Shared.stages history).step Shared.stages (.poll 0 true)
    (next.inferences 0).phase = .settled (.ok ()) ∧ Heard 0 next.trace (.ok ()) := by
  intro history next
  have hway : Turns Shared.stages (fun _ => True) (deferring, none) (deferring.steps Shared.stages history, none) :=
    steps_turns isNew_deferring.sound fun _ _ => trivial
  have hsettled : (next.inferences 0).phase = .settled (.ok ()) := rfl
  have hcalls : calls 0 next.trace = [({ label := "told" }, .ok ())] := rfl
  obtain ⟨-, -, hpoll⟩ := logs_end_unless_cutOff isNew_deferring rfl hway (j := 0) (by decide)
  obtain ⟨-, hbegun⟩ := hpoll rfl rfl true (.ok ()) hsettled
  obtain ⟨hheard, -⟩ := hbegun (List.cons_ne_nil _ _)
  refine ⟨hsettled, hheard.mpr ?_⟩
  rintro (hrefuses | ⟨-, hcancelled | hnever⟩)
  · have huntripped : (deferring.steps Shared.stages history).isTripped 0 = false := rfl
    rw [hrefuses.barred.tripped] at huntripped
    cases huntripped
  · cases hcancelled
  · refine hnever ⟨({ label := "told" }, .ok ()), ?_, rfl⟩
    rw [hcalls]
    exact List.mem_singleton_self _

def postponing : Engine Shared := { deferring with requests := fun _ => { callbackExecutor := 1 } }

/-- The inference is cancelled while its callback is kept: it ends as cancelled, and nothing says so. -/
theorem logs_end_unheard :
    let e := postponing.steps Shared.stages
      [.setCallback 0 { label := "told" }, .infer 0, .poll 0 true, .cancel 0, .poll 0 true]
    (e.inferences 0).phase = .settled (.error .cancelled) ∧ notices 0 e.trace = [] ∧
      ¬Heard 0 e.trace (.error .cancelled) := by
  intro e
  have hsilent : notices 0 e.trace = [] := rfl
  exact ⟨rfl, hsilent, fun hheard => hheard.ne_nil hsilent⟩

end Engine

end DevicePlugin
