import DevicePlugin.Proofs.Request.Notified
import DevicePlugin.Proofs.Request.Poisoned

/-!
# What an inference can be told

An inference is told what became of its tasks. While the state of its request is
unusable, and no executor loses a task, that is nothing but the state it found. Only
a callback that breaks off keeps it from being told.
-/

namespace DevicePlugin

namespace Engine

variable {σ : Type} {stages : RequestId → Stages σ} {allowed : Step σ → Prop} {c c' : Engine σ × Option Task}

/-! ## Executors that lose no task -/

/-- The executors of a request give up none of the tasks that it hands over. -/
structure Keeping (rid : RequestId) (e : Engine σ) (allowed : Step σ → Prop) : Prop where
  kind : ∀ hop, (e.executors ((e.requests rid).executor hop)).kind ≠ .dropping
  queue : ∀ hop position, ¬ allowed (.dropQueued ((e.requests rid).executor hop) position)

theorem Keeping.turn {rid : RequestId} (h : Keeping rid c.1 allowed) {allowed' : Step σ → Prop}
    (ht : Turn stages allowed' c c') : Keeping rid c'.1 allowed where
  kind hop := by
    have hkind (x : ExecutorId) : (c'.1.executors x).kind = (c.1.executors x).kind := by
      rcases ht.wired with hwired | ⟨id, callback, -, hnext⟩
      · exact hwired.kind x
      · rw [hnext]
        rfl
    rw [ht.executor, hkind]
    exact h.kind hop
  queue hop position := by
    rw [ht.executor]
    exact h.queue hop position

def Housed (e : Engine σ) : Prop := ∀ x, ∀ t ∈ (e.executors x).queue, x = e.home t

theorem Turn.home (ht : Turn stages allowed c c') (t : Task) : c'.1.home t = c.1.home t := ht.executor t.work.hop

theorem Turn.queue (ht : Turn stages allowed c c') {x : ExecutorId} {t : Task} (hmem : t ∈ (c'.1.executors x).queue) :
    t ∈ (c.1.executors x).queue ∨ x = c.1.home t := by
  cases ht with
  | move hmove =>
    cases hmove with
    | take htake => exact .inl (mem_queue_take htake hmem)
    | queue _ => exact (mem_queue_queued hmem).imp_right fun ⟨hsame, hx⟩ => hsame ▸ hx
    | @count e t' => exact .inl ((alike_count e _ _).queue x ▸ hmem)
    | @lose e t' _ =>
      rw [dropTask, answer_eq] at hmem
      exact .inl hmem
    | @run e t' =>
      obtain ⟨e', reply, halike, -, heq, -⟩ := runTask_answers stages e t'
      simp only [heq, answer_eq] at hmem
      exact .inl (halike.queue x ▸ hmem)
    | @settle e id result notice _ _ => cases notice <;> exact .inl hmem
    | _ => exact .inl hmem
  | defer => exact (mem_queue_queued hmem).imp_right fun ⟨hsame, hx⟩ => hsame ▸ hx
  | @call e s hcall hallowed =>
    have hdoes := step_does stages e hcall
    generalize e.step stages s = next at hdoes hmem ⊢
    cases hdoes with
    | lose htake =>
      rw [answer_eq] at hmem
      exact .inl (mem_queue_take htake hmem)
    | _ => exact .inl hmem

theorem Visited.housed (h : Visited stages c) : Housed c.1 := by
  refine h.invariant (p := fun c => Housed c.1) (fun start hnew x t hmem => ?_) fun c c' _ hhoused ht x t hmem => ?_
  · rw [hnew.queue] at hmem
    cases hmem
  · rw [ht.home]
    rcases ht.queue hmem with hold | hnew
    · exact hhoused x t hold
    · exact hnew

/-- Such executors take no part in what a turn is for an inference of the request. -/
theorem Turn.part_of_keeping (ht : Turn stages allowed c c') (hs : Sound c.1 c.2) (hhoused : Housed c.1)
    {j : InferenceId} (hkeeping : Keeping (c.1.inferences j).request c.1 allowed) :
    ∃ more, c'.1.trace = c.1.trace ++ more ∧
      Part stages (fun s => ∀ x position, s ≠ .dropQueued x position) j c c' more := by
  cases ht with
  | move hmove => exact hmove.part j
  | defer => exact ⟨[], (List.append_nil _).symm, .aside rfl (quiet_nil j) id⟩
  | @call e s hcall hallowed =>
    by_cases hdrop : ∃ x position, s = .dropQueued x position
    · obtain ⟨x, position, rfl⟩ := hdrop
      simp only [step, dropQueued]
      cases htake : e.takeTask x position with
      | none => exact ⟨[], (List.append_nil _).symm, .aside rfl (quiet_nil j) id⟩
      | some taken =>
        obtain ⟨t, rest⟩ := taken
        obtain ⟨hmem, executor, rfl⟩ := takeTask_eq htake
        have hother : t.inference ≠ j := by
          rintro rfl
          have hhome : x = (e.requests (e.inferences t.inference).request).executor t.work.hop := by
            rw [← hs.owned t (.inr ⟨x, hmem⟩)]
            exact hhoused x t hmem
          exact hkeeping.queue t.work.hop position (hhome ▸ hallowed)
        refine ⟨[], (answer_trace _ t .dropped).trans (List.append_nil _).symm,
          .aside (answer_inferences_of_ne _ hother .dropped) (quiet_nil j) fun hlt => ?_⟩
        simp only [dropTask, answer_started] at hlt
        exact hlt
    · have hturn :
          Turn stages (fun s => ∀ x position, s ≠ .dropQueued x position) (e, none) (e.step stages s, none) :=
        .call hcall fun x position heq => hdrop ⟨x, position, heq⟩
      exact hturn.part j

/-! ## Results and callbacks -/

def BrokeOff (j : InferenceId) (more : List Happening) : Prop :=
  ∃ callback result, callback.panics = true ∧ .called j callback result ∈ more

section

variable (p : InferResult → Prop) (q : Option Callback → Prop) (j : InferenceId)

def Lost (more : List Happening) : Prop := (∀ x, p (.error (.infer (.droppedTask x)))) ∨ BrokeOff j more

def Hears (more : List Happening) (hop : Hop) : Reply → Prop
  | .waiting => True
  | .delivered result => p result ∧ (hop = .notify → ∃ callback, .called j callback result ∈ more)
  | .dropped => (∀ x, p (.error (.infer (.droppedTask x)))) ∨ hop = .notify ∧ BrokeOff j more

/-- What an inference may have come to that can be told only results with `p`. -/
def Bears (more : List Happening) : Phase → Prop
  | .awaiting hop reply => Hears p j more hop reply
  | .settled result =>
    p result ∧ (q none ∨ ∃ callback, .called j callback result ∈ more) ∨
      result = .error .busy ∨ result = .error .cancelled ∨
      Lost p j more ∧ ∃ x, result = .error (.infer (.droppedTask x))
  | .panicked => Lost p j more
  | _ => True

/-- Only results with `p` are told to an inference, and only callbacks with `q` are called for it. -/
structure Confined (c : Engine σ × Option Task) (more : List Happening) : Prop where
  tasks : ∀ t, c.1.Holds c.2 t → t.inference = j → ∀ callback result, t.work = .notify callback result →
    q (some callback) ∧ p result
  calls : ∀ callback result, .called j callback result ∈ more → q (some callback) ∧ p result
  phase : Bears p q j more (c.1.inferences j).phase

end

section

variable {p : InferResult → Prop} {q : Option Callback → Prop} {j : InferenceId} {more new : List Happening}

theorem BrokeOff.append (h : BrokeOff j more) : BrokeOff j (more ++ new) := by
  obtain ⟨callback, result, hpanics, hmem⟩ := h
  exact ⟨callback, result, hpanics, List.mem_append_left new hmem⟩

theorem Lost.append (h : Lost p j more) : Lost p j (more ++ new) := h.imp_right BrokeOff.append

theorem Bears.append {phase : Phase} (h : Bears p q j more phase) : Bears p q j (more ++ new) phase := by
  have hcalled {result : InferResult} (h : ∃ callback, .called j callback result ∈ more) :
      ∃ callback, .called j callback result ∈ more ++ new :=
    h.imp fun _ hmem => List.mem_append_left new hmem
  cases phase with
  | awaiting hop reply =>
    cases reply with
    | waiting => exact h
    | delivered result => exact ⟨h.1, fun hhop => hcalled (h.2 hhop)⟩
    | dropped => exact h.imp_right fun h => ⟨h.1, h.2.append⟩
  | settled result =>
    rcases h with h | h | h | h
    · exact .inl ⟨h.1, h.2.imp_right hcalled⟩
    · exact .inr (.inl h)
    · exact .inr (.inr (.inl h))
    · exact .inr (.inr (.inr ⟨h.1.append, h.2⟩))
  | panicked => exact Lost.append h
  | created => trivial
  | abandoned => trivial

/-- A result that an inference does not make up by itself was told to it. -/
theorem Bears.told {result : InferResult} (h : Bears p q j more (.settled result)) (hbusy : result ≠ .error .busy)
    (hcancelled : result ≠ .error .cancelled) (hlost : ∀ x, result ≠ .error (.infer (.droppedTask x))) :
    p result ∧ (q none ∨ ∃ callback, .called j callback result ∈ more) := by
  rcases h with h | h | h | ⟨-, x, h⟩
  · exact h
  · exact absurd h hbusy
  · exact absurd h hcancelled
  · exact absurd h (hlost x)

theorem Bears.concludes {e : Engine σ} (h : Bears p q j more (e.inferences j).phase) {result : InferResult}
    (hc : e.Concludes j result) : p result := by
  cases hc with
  | start failure hphase =>
    rw [hphase] at h
    exact h.1
  | finish _ hphase =>
    rw [hphase] at h
    exact h.1
  | dropped hop hhop hphase executor =>
    rw [hphase] at h
    exact (h.resolve_right fun h => hhop h.1) executor

theorem Bears.settles {e : Engine σ} (h : Bears p q j more (e.inferences j).phase)
    (hq : q (e.requests (e.inferences j).request).callback) {result : InferResult} {notice : Option Notice}
    (hs : e.Settles j result notice) : Bears p q j more (.settled result) := by
  cases hs with
  | cancelled hop reply hhop hphase htripped executor => exact .inr (.inr (.inl rfl))
  | gaveUp hc executor => exact .inr (.inr (.inl rfl))
  | uncalled told callback hc hresult hcallback htripped => exact .inr (.inr (.inl rfl))
  | unawaited reply hphase htripped => exact .inr (.inr (.inl rfl))
  | unheard _ hc hresult hcallback => exact .inl ⟨h.concludes hc, .inl (hcallback ▸ hq)⟩
  | told _ hphase =>
    rw [hphase] at h
    exact .inl ⟨h.1, .inr (h.2 rfl)⟩
  | untold hphase executor =>
    rw [hphase] at h
    exact .inr (.inr (.inr ⟨h.imp_right And.right, executor, rfl⟩))

/-- The tasks that call somebody back are handed over with what the stages have come to. -/
theorem Confined.tasks_turn (h : Confined p q j c more) (hq : q (c.1.requests (c.1.inferences j).request).callback)
    (ht : Turn stages allowed c c') {t : Task} (hheld : c'.1.Holds c'.2 t) (hj : t.inference = j)
    {callback : Callback} {result : InferResult} (hwork : t.work = .notify callback result) :
    q (some callback) ∧ p result := by
  rcases ht.holds_due hheld with hold | ⟨hhop, -⟩ | hdue
  · exact h.tasks t hold hj callback result hwork
  · rw [hwork] at hhop
    cases hhop
  · rw [hwork, hj] at hdue
    cases hdue with
    | notify _ _ hc hresult hcallback => exact ⟨hcallback ▸ hq, h.phase.concludes hc⟩

/-- What a task tells its inference when no stage runs. -/
theorem Confined.ran (h : Confined p q j c more) {stages : Stages σ} {t : Task} {reply : Reply} {state : σ}
    (hhand : c.2 = some t) (hj : t.inference = j) (hpoisoned : (c.1.requests t.request).poisoned = true)
    (hends : Ends stages c.1 t reply new state) (hp : p (.error (.infer .poisoned))) :
    (∀ callback result, .called j callback result ∈ new → q (some callback) ∧ p result) ∧
      Hears p j (more ++ new) t.work.hop reply := by
  cases hends with
  | poisoned hwork _ =>
    refine ⟨fun _ _ hmem => (nomatch hmem), hp, fun hhop => ?_⟩
    rcases hwork with hwork | hwork <;> rw [hwork] at hhop <;> cases hhop
  | stages hwork hunpoisoned hrun =>
    rw [hpoisoned] at hunpoisoned
    cases hunpoisoned
  | @called callback result hwork hpanics =>
    have htold := h.tasks t (.inl hhand) hj callback result hwork
    refine ⟨fun callback' result' hmem => ?_, htold.2, fun _ => ⟨callback, by simp [hj]⟩⟩
    cases List.mem_singleton.mp hmem
    exact htold
  | @broke callback result hwork hpanics =>
    have htold := h.tasks t (.inl hhand) hj callback result hwork
    refine ⟨fun callback' result' hmem => ?_, .inr ⟨by rw [hwork]; rfl, callback, result, hpanics, by simp [hj]⟩⟩
    cases List.mem_singleton.mp hmem
    exact htold

theorem Bears.answered {phase : Phase} (h : Bears p q j more phase) {hop : Hop} {reply : Reply}
    (hreply : Hears p j more hop reply) : Bears p q j more (phase.answered hop reply) := by
  unfold Phase.answered
  split
  · split
    · rename_i hhop
      rw [hhop]
      exact hreply
    · exact h
  · exact h

theorem Quiet.not_called (h : Quiet j new) (callback : Callback) (result : InferResult) :
    .called j callback result ∉ new := by
  intro hmem
  have hsome : (callback, result) ∈ calls j new := List.mem_filterMap.mpr ⟨_, hmem, if_pos rfl⟩
  rw [h.2] at hsome
  cases hsome

/-- While the state is unusable, a turn tells an inference of nothing else, unless one of its tasks is lost. -/
theorem Confined.part (h : Confined p q j c more) (hs : Sound c.1 c.2)
    (hpoisoned : (c.1.requests (c.1.inferences j).request).poisoned = true)
    (hq : q (c.1.requests (c.1.inferences j).request).callback) (hp : p (.error (.infer .poisoned)))
    (hkept : (∀ x, p (.error (.infer (.droppedTask x)))) ∨
      (∀ hop, (c.1.executors ((c.1.requests (c.1.inferences j).request).executor hop)).kind ≠ .dropping) ∧
        ∀ x position, ¬ allowed (.dropQueued x position))
    (hpart : Part stages allowed j c c' new) :
    (∀ callback result, .called j callback result ∈ new → q (some callback) ∧ p result) ∧
      Bears p q j (more ++ new) (c'.1.inferences j).phase := by
  have hquiet (hnew : Quiet j new) (callback : Callback) (result : InferResult)
      (hmem : .called j callback result ∈ new) : q (some callback) ∧ p result :=
    absurd hmem (hnew.not_called callback result)
  cases hpart with
  | aside hsame hnew hknown =>
    rw [hsame]
    exact ⟨hquiet hnew, h.phase.append⟩
  | made hj hstarted hphase =>
    rw [hphase]
    exact ⟨hquiet (quiet_nil j), trivial⟩
  | busy hj hphase hnext hflight =>
    rw [hnext]
    exact ⟨hquiet (quiet_ended j j none), .inr (.inl rfl)⟩
  | begin hj hphase hnext hhand =>
    rw [hnext]
    exact ⟨by simp, trivial⟩
  | hand hj hdue htripped hnext hhand =>
    rw [hnext]
    exact ⟨by simp, trivial⟩
  | @ran t reply _ hhand hj hends hnext =>
    have howned : t.request = (c.1.inferences j).request := hj ▸ hs.owned t (.inl hhand)
    obtain ⟨hcalls, hreply⟩ := h.ran hhand hj (howned ▸ hpoisoned) hends hp
    rw [hnext]
    exact ⟨hcalls, h.phase.append.answered hreply⟩
  | @lost t hheld hj hlost hnext =>
    have howned : t.request = (c.1.inferences j).request := hj ▸ hs.owned t hheld
    -- A task is lost by its executor or by a call, and both are ruled out.
    rcases hkept with hkept | ⟨hkind, hnever⟩
    · rw [hnext]
      exact ⟨hquiet (quiet_nil j), h.phase.append.answered (.inl hkept)⟩
    · rcases hlost with hlost | ⟨x, position, hdrop⟩
      · rw [home, howned] at hlost
        exact absurd hlost (hkind t.work.hop)
      · exact absurd hdrop (hnever x position)
  | settle hj hsettles hnext =>
    rw [hnext]
    exact ⟨hquiet (quiet_ended j j _), (h.phase.settles hq hsettles).append⟩
  | @breakOff hop hj hphase hnext =>
    have hheard := h.phase
    rw [hphase] at hheard
    rw [hnext]
    exact ⟨hquiet (quiet_ended j j none), Lost.append (hheard.imp_right And.right)⟩
  | abandon hj hopen hnext hallowed =>
    rw [hnext]
    exact ⟨hquiet (quiet_ended j j none), trivial⟩

theorem Confined.of_created (hs : Sound c.1 c.2) (hphase : (c.1.inferences j).phase = .created)
    (hquiet : Quiet j more) : Confined p q j c more where
  tasks t hheld hj := absurd hj (hs.inference_ne_of_created hphase hheld)
  calls callback result hmem := absurd hmem (hquiet.not_called callback result)
  phase := by
    rw [hphase]
    trivial

def Lossless (p : InferResult → Prop) (rid : RequestId) (e : Engine σ) (allowed : Step σ → Prop) : Prop :=
  (∀ x, p (.error (.infer (.droppedTask x)))) ∨ Keeping rid e allowed

theorem Confined.turn (h : Confined p q j c more) (hc : Visited stages c)
    (hpoisoned : (c.1.requests (c.1.inferences j).request).poisoned = true)
    (hq : q (c.1.requests (c.1.inferences j).request).callback) (hp : p (.error (.infer .poisoned)))
    (hkept : Lossless p (c.1.inferences j).request c.1 allowed) (ht : Turn stages allowed c c') :
    ∃ new, c'.1.trace = c.1.trace ++ new ∧ Confined p q j c' (more ++ new) := by
  have htold {allowed' : Step σ → Prop} {new : List Happening} (hpart : Part stages allowed' j c c' new)
      (hkept : (∀ x, p (.error (.infer (.droppedTask x)))) ∨
        (∀ hop, (c.1.executors ((c.1.requests (c.1.inferences j).request).executor hop)).kind ≠ .dropping) ∧
          ∀ x position, ¬ allowed' (.dropQueued x position)) : Confined p q j c' (more ++ new) := by
    obtain ⟨hcalls, hphase⟩ := h.part hc.sound hpoisoned hq hp hkept hpart
    refine ⟨fun t hheld hj callback result hwork => h.tasks_turn hq ht hheld hj hwork,
      fun callback result hmem => ?_, hphase⟩
    rcases List.mem_append.mp hmem with hmem | hmem
    · exact h.calls callback result hmem
    · exact hcalls callback result hmem
  rcases hkept with hlost | hkeeping
  · obtain ⟨new, htrace, hpart⟩ := ht.part j
    exact ⟨new, htrace, htold hpart (.inl hlost)⟩
  · obtain ⟨new, htrace, hpart⟩ := ht.part_of_keeping hc.sound hc.housed hkeeping
    exact ⟨new, htrace, htold hpart (.inr ⟨hkeeping.kind, fun x position hnever => hnever x position rfl⟩)⟩

/-- What holds of an inference from here on, if it belongs to a request whose state is unusable. -/
theorem confined_turns {start : Engine σ × Option Task} {rid : RequestId} (hstart : Visited stages start)
    (hpoisoned : (start.1.requests rid).poisoned = true) (hp : p (.error (.infer .poisoned)))
    (hkept : Lossless p rid start.1 allowed)
    (hq : ∀ m, Turns stages allowed start m → q (m.1.requests rid).callback)
    (hbefore : start.1.started ≤ j ∨ Confined p q j start []) (ht : Turns stages allowed start c) :
    ∃ more, c.1.trace = start.1.trace ++ more ∧ (c.1.started ≤ j → Quiet j more) ∧
      (j < c.1.started → (c.1.inferences j).request = rid → Confined p q j c more) := by
  -- The induction carries along that no task is lost, which is said of the executors as they are by then.
  have hall : Lossless p rid c.1 allowed ∧ ∃ more, c.1.trace = start.1.trace ++ more ∧
      (c.1.started ≤ j → Quiet j more) ∧
        (j < c.1.started → (c.1.inferences j).request = rid → Confined p q j c more) := by
    induction ht with
    | refl =>
      refine ⟨hkept, [], (List.append_nil _).symm, fun _ => quiet_nil j, fun hj _ => ?_⟩
      exact hbefore.resolve_left (Nat.not_le.mpr hj)
    | @tail c c' hway hturn ih =>
      obtain ⟨hkept, more, htrace, hunmade, hmade⟩ := ih
      have hc := hstart.turns (Turns.mono hway fun _ _ => trivial)
      refine ⟨hkept.imp_right fun hkeeping => hkeeping.turn hturn, ?_⟩
      by_cases hj : j < c.1.started
      · by_cases hrequest : (c.1.inferences j).request = rid
        · subst hrequest
          have hstill := (poisoned_turns hpoisoned hway).1
          obtain ⟨new, hnew, hconfined⟩ := (hmade hj rfl).turn hc hstill (hq c hway) hp hkept hturn
          refine ⟨more ++ new, by rw [hnew, htrace, List.append_assoc], fun hlate => ?_, fun _ _ => hconfined⟩
          exact absurd (Nat.lt_of_lt_of_le hj hturn.started_le) (Nat.not_lt.mpr hlate)
        · obtain ⟨new, hnew, -⟩ := hturn.part j
          refine ⟨more ++ new, by rw [hnew, htrace, List.append_assoc], fun hlate => ?_, fun _ hrequest' => ?_⟩
          · exact absurd (Nat.lt_of_lt_of_le hj hturn.started_le) (Nat.not_lt.mpr hlate)
          · exact absurd ((hturn.request hj).symm.trans hrequest') hrequest
      · obtain ⟨new, hnew, hpart⟩ := hturn.part j
        obtain ⟨hquiet, hcreated⟩ := hpart.of_unmade hc.sound hj
        have hstill : Quiet j (more ++ new) := (hunmade (Nat.not_lt.mp hj)).append hquiet
        exact ⟨more ++ new, by rw [hnew, htrace, List.append_assoc], fun _ => hstill,
          fun hj' _ => .of_created (hc.sound.turn hturn) (hcreated hj') hstill⟩
  exact hall.2

end

end Engine

end DevicePlugin
