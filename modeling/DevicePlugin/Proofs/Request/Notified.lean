import DevicePlugin.Proofs.Request.Leftover
import DevicePlugin.Proofs.Request.Part

/-!
# Three hand-overs and one call

Here no executor loses a task, and no callback breaks off. Then an inference hands
over at most one task to each of its executors, in turn, and whoever is registered
when its stages have come to a result is called once with this result, before the
inference ends with it.
-/

namespace DevicePlugin

/-- How many tasks an inference has handed over at most. -/
def Phase.reach : Phase → Nat
  | .created => 0
  | .awaiting .start _ => 1
  | .awaiting .finish _ => 2
  | _ => 3

theorem Phase.reach_le (phase : Phase) : phase.reach ≤ 3 := by
  cases phase with
  | awaiting hop reply => cases hop <;> simp [reach]
  | _ => simp [reach]

namespace Engine

variable {σ : Type}

def Step.Calm (rid : RequestId) : Step σ → Prop
  | .dropQueued _ _ => False
  | .setCallback r callback => r = rid → callback.panics = false
  | _ => True

structure Reliable (rid : RequestId) (e : Engine σ) : Prop where
  keeps : ∀ hop, (e.executors ((e.requests rid).executor hop)).kind ≠ .dropping
  returns : ∀ callback, (e.requests rid).callback = some callback → callback.panics = false

def plan (r : AsyncRequest) : List (Hop × ExecutorId) :=
  [(.start, r.taskExecutor), (.finish, r.waitExecutor), (.notify, r.callbackExecutor)]

def StartsWell (stages : RequestId → Stages σ) (rid : RequestId) (j : InferenceId)
    (m m' : Engine σ × Option Task) : Prop :=
  m.2 = some ⟨rid, j, .start⟩ ∧ ∃ prepared,
    (stages rid).run .preprocess m.1.state = (.ok (), prepared) ∧
      (stages rid).run .start prepared = (.ok (), m'.1.state)

/-- The stages have come to a result, and the inference goes on with it: to the callback that is registered
then, or to its end. -/
def GoesOn (j : InferenceId) (result : InferResult) (callback : Option Callback)
    (m m' : Engine σ × Option Task) : Prop :=
  m.1.Concludes j result ∧ (m.1.requests (m.1.inferences j).request).callback = callback ∧
    (m'.1.inferences j).phase = if callback.isSome then .awaiting .notify .waiting else .settled result

/-! ## Turns on the way -/

def Along (stages : RequestId → Stages σ) (allowed : Step σ → Prop) (start c : Engine σ × Option Task)
    (p : Engine σ × Option Task → Engine σ × Option Task → Prop) : Prop :=
  ∃ m m', Turns stages allowed start m ∧ Turn stages allowed m m' ∧ Turns stages allowed m' c ∧ p m m'

section

variable {stages : RequestId → Stages σ} {allowed : Step σ → Prop} {start c c' : Engine σ × Option Task}
  {p : Engine σ × Option Task → Engine σ × Option Task → Prop}

theorem Along.turn (h : Along stages allowed start c p) (ht : Turn stages allowed c c') :
    Along stages allowed start c' p := by
  obtain ⟨m, m', hbefore, hturn, hafter, hp⟩ := h
  exact ⟨m, m', hbefore, hturn, hafter.tail ht, hp⟩

theorem along_last (hway : Turns stages allowed start c) (ht : Turn stages allowed c c') (hp : p c c') :
    Along stages allowed start c' p :=
  ⟨c, c', hway, ht, .refl, hp⟩

end

/-! ## Reliable executors -/

section

variable {stages : RequestId → Stages σ} {rid : RequestId} {c c' : Engine σ × Option Task}

theorem Reliable.wired {e e' : Engine σ} (h : Reliable rid e) (hw : Wired e e') : Reliable rid e' where
  keeps hop := by
    rw [hw.executor, hw.kind]
    exact h.keeps hop
  returns callback hcallback := by
    rw [hw.callback] at hcallback
    exact h.returns callback hcallback

theorem setCallback_executor (e : Engine σ) (rid r : RequestId) (callback : Callback) (hop : Hop) :
    ((e.setCallback r callback).requests rid).executor hop = (e.requests rid).executor hop := by
  by_cases hr : rid = r
  · subst hr
    cases hop <;> simp [setCallback, setRequest, AsyncRequest.executor]
  · simp [setCallback, setRequest, hr]

theorem Reliable.turn (h : Reliable rid c.1) (ht : Turn stages (Step.Calm rid) c c') : Reliable rid c'.1 := by
  rcases ht.wired with hw | ⟨r, callback, hcalm, hnext⟩
  · exact h.wired hw
  · rw [hnext]
    refine ⟨fun hop => ?_, fun callback' hcallback' => ?_⟩
    · rw [setCallback_executor]
      exact h.keeps hop
    · by_cases hr : rid = r
      · subst hr
        have hsame : callback = callback' := by simpa [setCallback, setRequest] using hcallback'
        exact hsame ▸ hcalm rfl
      · have hold : (c.1.requests rid).callback = some callback' := by
          simpa [setCallback, setRequest, hr] using hcallback'
        exact h.returns callback' hold

theorem Turn.executor {allowed : Step σ → Prop} (ht : Turn stages allowed c c') (hop : Hop) :
    (c'.1.requests rid).executor hop = (c.1.requests rid).executor hop := by
  rcases ht.wired with hw | ⟨r, callback, -, hnext⟩
  · exact hw.executor rid hop
  · rw [hnext]
    exact setCallback_executor c.1 rid r callback hop

end

/-! ## The account of one inference -/

section

variable (stages : RequestId → Stages σ) (rid : RequestId) (start : Engine σ × Option Task) (j : InferenceId)

def CallStands (c : Engine σ × Option Task) (callback : Callback) (result : InferResult) : Reply → Prop
  | .waiting => calls j c.1.trace = [] ∧ ∀ t, c.1.Holds c.2 t → t.inference = j → t.work = .notify callback result
  | .delivered told => told = result ∧ calls j c.1.trace = [(callback, result)]
  | .dropped => False

def Seen (c : Engine σ × Option Task) : Phase → Prop
  | .created => calls j c.1.trace = []
  | .awaiting .start reply =>
    calls j c.1.trace = [] ∧
      (reply = .delivered (.ok ()) → Along stages (Step.Calm rid) start c (StartsWell stages rid j))
  | .awaiting .finish _ => calls j c.1.trace = []
  | .awaiting .notify reply => ∃ callback result, callback.panics = false ∧
      Along stages (Step.Calm rid) start c (GoesOn j result (some callback)) ∧
      CallStands j c callback result reply
  | .settled result => result ≠ .error .cancelled → submissions j c.1.trace ≠ [] →
      ∃ callback, Along stages (Step.Calm rid) start c (GoesOn j result callback) ∧
        ∃ before after, c.1.trace = before ++ .ended j :: after ∧
          calls j before = callback.toList.map (·, result) ∧ calls j after = []
  | .panicked => True
  | .abandoned => True

structure Account (c : Engine σ × Option Task) : Prop where
  order : (submissions j c.1.trace).Sublist
    ((plan (start.1.requests rid)).take (c.1.inferences j).phase.reach)
  seen : Seen stages rid start j c (c.1.inferences j).phase

end

section

variable {stages : RequestId → Stages σ} {rid : RequestId} {start : Engine σ × Option Task} {j : InferenceId}
  {c c' : Engine σ × Option Task} {more : List Happening}

/-- Nothing is handed over, and the phase does not go back. -/
theorem Account.order_kept (h : Account stages rid start j c) (htrace : c'.1.trace = c.1.trace ++ more)
    (hnone : submissions j more = [])
    (hreach : (c.1.inferences j).phase.reach ≤ (c'.1.inferences j).phase.reach) :
    (submissions j c'.1.trace).Sublist
      ((plan (start.1.requests rid)).take (c'.1.inferences j).phase.reach) := by
  rw [htrace, submissions_append, hnone, List.append_nil]
  exact h.order.trans (List.take_sublist_take_left hreach)

theorem Turn.holds_of_quiet {allowed : Step σ → Prop} (ht : Turn stages allowed c c')
    (htrace : c'.1.trace = c.1.trace ++ more) (hquiet : Quiet j more) {t : Task} (hheld : c'.1.Holds c'.2 t)
    (hj : t.inference = j) : c.1.Holds c.2 t := by
  rcases ht.holds hheld with hold | ⟨-, x, hx⟩
  · exact hold
  · rw [htrace, hj] at hx
    have hmore : more = [.submitted j t.work.hop x] := List.append_cancel_left hx
    have hnone := hquiet.1
    rw [hmore] at hnone
    simp [submissions] at hnone

theorem Account.aside (h : Account stages rid start j c) (ht : Turn stages (Step.Calm rid) c c')
    (htrace : c'.1.trace = c.1.trace ++ more) (hsame : c'.1.inferences j = c.1.inferences j)
    (hquiet : Quiet j more) : Account stages rid start j c' := by
  have hcalls : calls j c'.1.trace = calls j c.1.trace := by
    rw [htrace, calls_append, hquiet.2, List.append_nil]
  have hsubmissions : submissions j c'.1.trace = submissions j c.1.trace := by
    rw [htrace, submissions_append, hquiet.1, List.append_nil]
  refine ⟨h.order_kept htrace hquiet.1 (Nat.le_of_eq (by rw [hsame])), ?_⟩
  rw [hsame]
  have hseen := h.seen
  generalize (c.1.inferences j).phase = phase at hseen
  match phase with
  | .created => exact hcalls.trans hseen
  | .awaiting .start reply => exact ⟨hcalls.trans hseen.1, fun hreply => (hseen.2 hreply).turn ht⟩
  | .awaiting .finish reply => exact hcalls.trans hseen
  | .awaiting .notify reply =>
    obtain ⟨callback, result, hreturns, hon, hstands⟩ := hseen
    refine ⟨callback, result, hreturns, hon.turn ht, ?_⟩
    match reply with
    | .waiting =>
      exact ⟨hcalls.trans hstands.1, fun t hheld hj =>
        hstands.2 t (ht.holds_of_quiet htrace hquiet hheld hj) hj⟩
    | .delivered told => exact ⟨hstands.1, hcalls.trans hstands.2⟩
    | .dropped => exact hstands
  | .settled result =>
    intro hresult hsome
    rw [hsubmissions] at hsome
    obtain ⟨callback, hon, before, after, hsplit, hbefore, hafter⟩ := hseen hresult hsome
    refine ⟨callback, hon.turn ht, before, after ++ more, ?_, hbefore, ?_⟩
    · rw [htrace, hsplit, List.append_assoc, List.cons_append]
    · rw [calls_append, hafter, hquiet.2, List.append_nil]
  | .panicked => trivial
  | .abandoned => trivial

/-- Two stages succeed when both do. -/
theorem runEach_pair_ok {stages : Stages σ} {first second : InferStage} {state state' : σ}
    (h : stages.runEach [first, second] state = (.ok (), state')) :
    ∃ between, stages.run first state = (.ok (), between) ∧ stages.run second between = (.ok (), state') := by
  unfold Stages.runEach at h
  split at h
  · rename_i between hfirst
    refine ⟨between, hfirst, ?_⟩
    unfold Stages.runEach at h
    split at h
    · rename_i last hsecond
      rw [hsecond]
      exact h
    · cases h
    · cases h
  · cases h
  · cases h

theorem startsWell_of_ends (hhand : c.2 = some ⟨rid, j, .start⟩)
    (hends : Ends (stages rid) c.1 ⟨rid, j, .start⟩ (.delivered (.ok ())) more c'.1.state) :
    StartsWell stages rid j c c' := by
  refine ⟨hhand, ?_⟩
  generalize hreply : Reply.delivered (.ok ()) = reply at hends
  generalize c'.1.state = last at hends ⊢
  cases hends with
  | poisoned hwork hpoisoned => cases hreply
  | stages hwork hpoisoned hrun =>
    rename_i outcome
    cases outcome with
    | ok value => exact runEach_pair_ok hrun
    | error failure => cases hreply
    | panic => cases hreply
  | called hwork hpanics => cases hwork
  | broke hwork hpanics => cases hwork

/-- The inference has a task in hand, which is run. -/
theorem Account.ran (h : Account stages rid start j c) (hs : Sound c.1 c.2)
    (hway : Turns stages (Step.Calm rid) start c) (ht : Turn stages (Step.Calm rid) c c')
    (htrace : c'.1.trace = c.1.trace ++ more) {work : Work} {reply : Reply} (hhand : c.2 = some ⟨rid, j, work⟩)
    (hends : Ends (stages rid) c.1 ⟨rid, j, work⟩ reply more c'.1.state)
    (hnext : c'.1.inferences j =
      { c.1.inferences j with phase := (c.1.inferences j).phase.answered work.hop reply }) :
    Account stages rid start j c' := by
  have hseen := h.seen
  have hnone : submissions j more = [] := hends.submissions_eq_nil j
  rcases hs.owed _ (.inl hhand) with hphase | hphase | hphase
  · have hnextPhase : (c'.1.inferences j).phase = .awaiting work.hop reply := by
      rw [hnext, hphase, Phase.answered_awaiting]
    have hreach : (c.1.inferences j).phase.reach = (c'.1.inferences j).phase.reach := by
      rw [hphase, hnextPhase]
      cases work <;> rfl
    refine ⟨h.order_kept htrace hnone (Nat.le_of_eq hreach), ?_⟩
    rw [hnextPhase]
    rw [hphase] at hseen
    cases work with
    | start =>
      have hquiet : Quiet j more := hends.quiet (.inr (.inl rfl))
      refine ⟨?_, fun hreply => ?_⟩
      · rw [htrace, calls_append, hquiet.2, List.append_nil]
        exact hseen.1
      · subst hreply
        exact along_last hway ht (startsWell_of_ends hhand hends)
    | finish =>
      have hquiet : Quiet j more := hends.quiet (.inr (.inr rfl))
      show calls j c'.1.trace = []
      rw [htrace, calls_append, hquiet.2, List.append_nil]
      exact hseen
    | notify callback result =>
      obtain ⟨callback', result', hreturns, hon, hsilent, htasks⟩ := hseen
      have hsame : Work.notify callback result = Work.notify callback' result' := htasks _ (.inl hhand) rfl
      cases hsame
      refine ⟨callback, result, hreturns, hon.turn ht, ?_⟩
      generalize c'.1.state = last at hends
      cases hends with
      | poisoned hwork hpoisoned => rcases hwork with hwork | hwork <;> cases hwork
      | stages hwork hpoisoned hrun => rcases hwork with hwork | hwork <;> cases hwork
      | called hwork hpanics =>
        cases hwork
        refine ⟨rfl, ?_⟩
        rw [htrace, calls_append, hsilent]
        simp [calls]
      | broke hwork hpanics =>
        cases hwork
        rw [hreturns] at hpanics
        cases hpanics
  · have hnextPhase : (c'.1.inferences j).phase = .settled (.error .cancelled) := by
      rw [hnext, hphase, Phase.answered]
      simp
    refine ⟨h.order_kept htrace hnone (Nat.le_of_eq (by rw [hphase, hnextPhase])), ?_⟩
    rw [hnextPhase]
    exact fun hresult => absurd rfl hresult
  · have hnextPhase : (c'.1.inferences j).phase = .abandoned := by
      rw [hnext, hphase, Phase.answered]
      simp
    refine ⟨h.order_kept htrace hnone (Nat.le_of_eq (by rw [hphase, hnextPhase])), ?_⟩
    rw [hnextPhase]
    trivial

theorem Account.silent (h : Account stages rid start j c) {result : InferResult} (hc : c.1.Concludes j result) :
    calls j c.1.trace = [] := by
  have hseen := h.seen
  cases hc with
  | start failure hphase =>
    rw [hphase] at hseen
    exact hseen.1
  | finish _ hphase =>
    rw [hphase] at hseen
    exact hseen
  | dropped hop hhop hphase executor =>
    rw [hphase] at hseen
    cases hop with
    | start => exact hseen.1
    | finish => exact hseen
    | notify => exact absurd rfl hhop

theorem Account.order_hand (h : Account stages rid start j c)
    (hexecutor : ∀ hop, (c.1.requests rid).executor hop = (start.1.requests rid).executor hop)
    (hrequest : (c.1.inferences j).request = rid) {work : Work} (hdue : c.1.Due j work)
    (htrace : c'.1.trace = c.1.trace ++ [.submitted j work.hop (c.1.home (c.1.task j work))])
    (hnext : (c'.1.inferences j).phase = .awaiting work.hop .waiting) :
    (submissions j c'.1.trace).Sublist
      ((plan (start.1.requests rid)).take (c'.1.inferences j).phase.reach) := by
  have horder := h.order
  have hhome : c.1.home (c.1.task j work) = (start.1.requests rid).executor work.hop := by
    show (c.1.requests (c.1.inferences j).request).executor work.hop = _
    rw [hrequest, hexecutor]
  have hlast : submissions j [.submitted j work.hop (c.1.home (c.1.task j work))] =
      [(work.hop, (start.1.requests rid).executor work.hop)] := by
    rw [hhome]
    simp [submissions]
  rw [htrace, submissions_append, hlast, hnext]
  -- Whatever was handed over before stands earlier in the plan.
  cases hdue with
  | finish hphase =>
    rw [hphase] at horder
    exact horder.append (List.Sublist.refl _)
  | notify callback result hc hresult hcallback =>
    have hearlier : (c.1.inferences j).phase.reach ≤ 2 := by
      cases hc with
      | start failure hphase =>
        rw [hphase]
        exact Nat.le_succ 1
      | finish _ hphase =>
        rw [hphase]
        exact Nat.le_refl 2
      | dropped hop hhop hphase executor =>
        rw [hphase]
        cases hop with
        | start => exact Nat.le_succ 1
        | finish => exact Nat.le_refl 2
        | notify => exact absurd rfl hhop
    have hbefore : (submissions j c.1.trace).Sublist ((plan (start.1.requests rid)).take 2) :=
      horder.trans (List.take_sublist_take_left hearlier)
    exact hbefore.append (List.Sublist.refl _)

theorem Account.hand (h : Account stages rid start j c) (hs : Sound c.1 c.2) (hr : Reliable rid c.1)
    (hexecutor : ∀ hop, (c.1.requests rid).executor hop = (start.1.requests rid).executor hop)
    (hway : Turns stages (Step.Calm rid) start c) (hrequest : (c.1.inferences j).request = rid)
    (ht : Turn stages (Step.Calm rid) c c') {work : Work} (hdue : c.1.Due j work)
    (htrace : c'.1.trace = c.1.trace ++ [.submitted j work.hop (c.1.home (c.1.task j work))])
    (hnext : (c'.1.inferences j).phase = .awaiting work.hop .waiting) (hhand : c'.2 = some (c.1.task j work)) :
    Account stages rid start j c' := by
  refine ⟨h.order_hand hexecutor hrequest hdue htrace hnext, ?_⟩
  have hcalls : calls j c'.1.trace = calls j c.1.trace := by
    rw [htrace, calls_append]
    exact List.append_nil _
  rw [hnext]
  cases hdue with
  | finish hphase =>
    have hseen := h.seen
    rw [hphase] at hseen
    exact hcalls.trans hseen.1
  | notify callback result hc hresult hcallback =>
    obtain ⟨hop, reply, hreply, hphase⟩ := Sound.concludes_awaiting hc
    refine ⟨callback, result, hr.returns callback (hrequest ▸ hcallback),
      along_last hway ht ⟨hc, hcallback, hnext⟩, hcalls.trans (h.silent hc), fun t hheld hj => ?_⟩
    rcases ht.holds hheld with hold | ⟨hnew, -⟩
    · exact absurd hj (hs.inference_ne_of_answered hphase hreply hold)
    · rw [hhand] at hnew
      cases hnew
      rfl

theorem Account.settle (h : Account stages rid start j c) (hway : Turns stages (Step.Calm rid) start c)
    (ht : Turn stages (Step.Calm rid) c c') {result : InferResult} {notice : Option Notice}
    (hsettles : c.1.Settles j result notice)
    (htrace : c'.1.trace = c.1.trace ++ ((notice.map (.logged j)).toList ++ [.ended j]))
    (hnext : (c'.1.inferences j).phase = .settled result) : Account stages rid start j c' := by
  refine ⟨h.order_kept htrace (quiet_ended j j notice).1 (by rw [hnext]; exact Phase.reach_le _), ?_⟩
  rw [hnext]
  intro hresult hsome
  have hnotice : calls j (notice.map (.logged j)).toList = [] := by cases notice <;> rfl
  have hsplit : c'.1.trace = (c.1.trace ++ (notice.map (.logged j)).toList) ++ .ended j :: [] := by
    rw [htrace, List.append_assoc]
  have hbefore : calls j (c.1.trace ++ (notice.map (.logged j)).toList) = calls j c.1.trace := by
    rw [calls_append, hnotice, List.append_nil]
  have hseen := h.seen
  cases hsettles with
  | cancelled hop reply hhop hphase htripped executor => exact absurd rfl hresult
  | gaveUp hc executor => exact absurd rfl hresult
  | uncalled told callback hc htold hcallback htripped => exact absurd rfl hresult
  | unawaited reply hphase htripped => exact absurd rfl hresult
  | unheard _ hc _ hcallback =>
    refine ⟨none, along_last hway ht ⟨hc, hcallback, hnext⟩, _, [], hsplit, ?_, rfl⟩
    rw [hbefore]
    exact h.silent hc
  | told _ hphase =>
    rw [hphase] at hseen
    obtain ⟨callback, told, -, hon, hsame, hcalled⟩ := hseen
    subst hsame
    refine ⟨some callback, hon.turn ht, _, [], hsplit, ?_, rfl⟩
    rw [hbefore]
    exact hcalled
  | untold hphase executor =>
    rw [hphase] at hseen
    obtain ⟨callback, told, -, -, hnever⟩ := hseen
    exact hnever.elim

theorem Account.submissions_eq_nil (h : Account stages rid start j c)
    (hphase : (c.1.inferences j).phase = .created) : submissions j c.1.trace = [] := by
  have horder := h.order
  rw [hphase] at horder
  exact List.sublist_nil.mp horder

theorem Account.begin (h : Account stages rid start j c)
    (hexecutor : ∀ hop, (c.1.requests rid).executor hop = (start.1.requests rid).executor hop)
    (hrequest : (c.1.inferences j).request = rid) (hphase : (c.1.inferences j).phase = .created)
    (htrace : c'.1.trace = c.1.trace ++ [.submitted j .start (c.1.home (c.1.task j .start))])
    (hnext : (c'.1.inferences j).phase = .awaiting .start .waiting) : Account stages rid start j c' := by
  have hseen := h.seen
  rw [hphase] at hseen
  have hhome : c.1.home (c.1.task j .start) = (start.1.requests rid).executor .start := by
    show (c.1.requests (c.1.inferences j).request).executor .start = _
    rw [hrequest, hexecutor]
  constructor
  · rw [htrace, submissions_append, h.submissions_eq_nil hphase, hhome, hnext]
    simp [submissions, plan, Phase.reach, AsyncRequest.executor]
  · rw [hnext]
    refine ⟨?_, fun hreply => by cases hreply⟩
    rw [htrace, calls_append, hseen]
    rfl

/-- The account of an inference that was made is carried on by every turn. -/
theorem Account.turn (h : Account stages rid start j c) (hs : Sound c.1 c.2) (hr : Reliable rid c.1)
    (hexecutor : ∀ hop, (c.1.requests rid).executor hop = (start.1.requests rid).executor hop)
    (hway : Turns stages (Step.Calm rid) start c) (hj : j < c.1.started)
    (hrequest : (c.1.inferences j).request = rid) (ht : Turn stages (Step.Calm rid) c c') :
    Account stages rid start j c' := by
  obtain ⟨more, htrace, hpart⟩ := ht.part j
  cases hpart with
  | aside hsame hquiet hknown => exact h.aside ht htrace hsame hquiet
  | made hnew hstarted hphase => exact absurd hj (hnew ▸ Nat.lt_irrefl _)
  | busy _ hphase hnext =>
    refine ⟨h.order_kept htrace rfl (by rw [hphase]; exact Nat.zero_le _), ?_⟩
    rw [hnext]
    intro _ hsome
    rw [htrace, submissions_append, h.submissions_eq_nil hphase] at hsome
    exact absurd rfl hsome
  | begin _ hphase hnext hhand => exact h.begin hexecutor hrequest hphase htrace (by rw [hnext])
  | hand _ hdue htripped hnext hhand =>
    exact h.hand hs hr hexecutor hway hrequest ht hdue htrace (by rw [hnext]) hhand
  | @ran t reply _ hhand htask hends hnext =>
    have howned : t.request = rid := (hs.owned t (.inl hhand)).trans (htask ▸ hrequest)
    obtain ⟨r, i, work⟩ := t
    cases howned
    cases htask
    exact h.ran hs hway ht htrace hhand hends hnext
  | @lost t hheld htask hlost hnext =>
    have howned : t.request = rid := (hs.owned t hheld).trans (htask ▸ hrequest)
    rcases hlost with hkind | ⟨x, position, hdrop⟩
    · refine absurd hkind ?_
      rw [home, howned]
      exact hr.keeps t.work.hop
    · exact hdrop.elim
  | settle _ hsettles hnext => exact h.settle hway ht hsettles htrace (by rw [hnext])
  | breakOff _ hphase hnext =>
    refine ⟨h.order_kept htrace rfl (by rw [hnext]; exact Phase.reach_le _), ?_⟩
    rw [hnext]
    trivial
  | abandon _ hopen hnext =>
    refine ⟨h.order_kept htrace rfl (by rw [hnext]; exact Phase.reach_le _), ?_⟩
    rw [hnext]
    trivial

end

/-! ## All inferences of a request -/

section

variable (stages : RequestId → Stages σ) (rid : RequestId) (start : Engine σ × Option Task)

structure Accounts (c : Engine σ × Option Task) : Prop where
  sound : Sound c.1 c.2
  reliable : Reliable rid c.1
  executor : ∀ hop, (c.1.requests rid).executor hop = (start.1.requests rid).executor hop
  unmade : ∀ j, c.1.started ≤ j → Quiet j c.1.trace
  made : ∀ j, j < c.1.started → (c.1.inferences j).request = rid → Account stages rid start j c

end

section

variable {stages : RequestId → Stages σ} {rid : RequestId} {start c c' : Engine σ × Option Task}

theorem Accounts.turn (h : Accounts stages rid start c) (hway : Turns stages (Step.Calm rid) start c)
    (ht : Turn stages (Step.Calm rid) c c') : Accounts stages rid start c' where
  sound := h.sound.turn ht
  reliable := h.reliable.turn ht
  executor hop := (ht.executor hop).trans (h.executor hop)
  unmade := by
    intro j hj
    have hbefore : ¬ j < c.1.started := Nat.not_lt.mpr (Nat.le_trans ht.started_le hj)
    obtain ⟨more, htrace, hpart⟩ := ht.part j
    rw [htrace]
    exact (h.unmade j (Nat.not_lt.mp hbefore)).append (hpart.of_unmade h.sound hbefore).1
  made := by
    intro j hj hrequest
    by_cases hbefore : j < c.1.started
    · rw [ht.request hbefore] at hrequest
      exact (h.made j hbefore hrequest).turn h.sound h.reliable h.executor hway hbefore hrequest ht
    · obtain ⟨more, htrace, hpart⟩ := ht.part j
      obtain ⟨hmore, hphase⟩ := hpart.of_unmade h.sound hbefore
      have hquiet : Quiet j c'.1.trace := by
        rw [htrace]
        exact (h.unmade j (Nat.not_lt.mp hbefore)).append hmore
      constructor
      · rw [hquiet.1]
        exact List.nil_sublist _
      · rw [hphase hj]
        exact hquiet.2

theorem accounts_of_turns {e : Engine σ} (hnew : IsNew e) (htrace : e.trace = []) (hr : Reliable rid e)
    (hway : Turns stages (Step.Calm rid) (e, none) c) : Accounts stages rid (e, none) c := by
  induction hway with
  | refl =>
    refine ⟨hnew.sound, hr, fun _ => rfl, fun j _ => ?_, fun j hj => ?_⟩
    · rw [htrace]
      exact quiet_nil j
    · rw [hnew.started] at hj
      exact absurd hj (Nat.not_lt_zero j)
  | tail hbefore hturn ih => exact ih.turn hbefore hturn

/-- An inference hands over its tasks in order, each at most once: the second one only after both stages of
the first have succeeded, the third one only when the stages have come to a result other than being cancelled.
If it was not turned away, and ends with such a result, then whoever was registered when its stages had come
to this result was called with it before the end, once, and nobody else was called. -/
theorem called_once {e : Engine σ} (hnew : IsNew e) (htrace : e.trace = []) (hr : Reliable rid e)
    (hway : Turns stages (Step.Calm rid) (e, none) c) {j : InferenceId} (hj : j < c.1.started)
    (hrequest : (c.1.inferences j).request = rid) :
    (submissions j c.1.trace).Sublist (plan (e.requests rid)) ∧
    (∀ c' more x, Turn stages (Step.Calm rid) c c' → c'.1.trace = c.1.trace ++ more →
      .submitted j .finish x ∈ more →
      Along stages (Step.Calm rid) (e, none) c (StartsWell stages rid j)) ∧
    (∀ c' more x, Turn stages (Step.Calm rid) c c' → c'.1.trace = c.1.trace ++ more →
      .submitted j .notify x ∈ more →
      ∃ callback result, c.1.Concludes j result ∧ result ≠ .error .cancelled ∧
        (c.1.requests rid).callback = some callback ∧ c'.2 = some ⟨rid, j, .notify callback result⟩) ∧
    ∀ result, (c.1.inferences j).phase = .settled result → result ≠ .error .cancelled →
      submissions j c.1.trace ≠ [] →
      ∃ callback, Along stages (Step.Calm rid) (e, none) c (GoesOn j result callback) ∧
        ∃ before after, c.1.trace = before ++ .ended j :: after ∧
          calls j before = callback.toList.map (·, result) ∧ calls j after = [] := by
  have haccount : Account stages rid (e, none) j c := (accounts_of_turns hnew htrace hr hway).made j hj hrequest
  have hpart {c' : Engine σ × Option Task} {more : List Happening} (ht : Turn stages (Step.Calm rid) c c')
      (hmore : c'.1.trace = c.1.trace ++ more) : Part stages (Step.Calm rid) j c c' more := by
    obtain ⟨more', hmore', hpart⟩ := ht.part j
    rw [hmore] at hmore'
    rwa [List.append_cancel_left hmore']
  refine ⟨haccount.order.trans (List.take_sublist _ _), ?_, ?_, ?_⟩
  · intro c' more x ht hmore hmem
    rcases (hpart ht hmore).handed hmem with ⟨hhop, -⟩ | ⟨work, hhop, hdue, -, -⟩
    · cases hhop
    · cases hdue with
      | finish hphase =>
        have hseen := haccount.seen
        rw [hphase] at hseen
        exact hseen.2 rfl
      | notify callback result hc hresult hcallback => cases hhop
  · intro c' more x ht hmore hmem
    rcases (hpart ht hmore).handed hmem with ⟨hhop, -⟩ | ⟨work, hhop, hdue, -, hhand⟩
    · cases hhop
    · cases hdue with
      | finish hphase => cases hhop
      | notify callback result hc hresult hcallback =>
        rw [hrequest] at hcallback
        rw [task, hrequest] at hhand
        exact ⟨callback, result, hc, hresult, hcallback, hhand⟩
  · intro result hphase hresult hsome
    have hseen := haccount.seen
    rw [hphase] at hseen
    exact hseen hresult hsome

end

/-- The callback is replaced while the second task waits, and the new one is called. -/
theorem called_once_replaced :
    let history : List (Step Shared) :=
      [.setCallback 0 { label := "early" }, .infer 0, .poll 0 true, .setCallback 0 { label := "late" },
        .runQueued 1 0, .poll 0 true]
    let e := deferring.steps Shared.stages history
    (e.inferences 0).phase = .settled (.ok ()) ∧ submissions 0 e.trace = plan (deferring.requests 0) ∧
      ∃ before after, e.trace = before ++ .ended 0 :: after ∧
        calls 0 before = [({ label := "late" }, .ok ())] ∧ calls 0 after = [] := by
  intro history e
  have hr : Reliable 0 deferring := by
    refine ⟨fun hop => ?_, fun callback hcallback => by cases hcallback⟩
    cases hop <;> decide
  have hcalm : ∀ s ∈ history, Step.Calm 0 s := by
    simp [history, Step.Calm]
  have hway : Turns Shared.stages (Step.Calm 0) (deferring, none) (e, none) :=
    steps_turns isNew_deferring.sound hcalm
  have hsubmissions : submissions 0 e.trace = plan (deferring.requests 0) := rfl
  obtain ⟨-, -, -, htold⟩ := called_once isNew_deferring rfl hr hway (j := 0) (by decide) rfl
  obtain ⟨callback, -, before, after, hsplit, hbefore, hafter⟩ :=
    htold (.ok ()) rfl (by simp) (by rw [hsubmissions]; simp [plan])
  refine ⟨rfl, hsubmissions, before, after, hsplit, ?_, hafter⟩
  have hall : calls 0 e.trace = [({ label := "late" }, .ok ())] := rfl
  rw [hsplit, calls_append] at hall
  have hrest : calls 0 (.ended 0 :: after) = [] := hafter
  rwa [hrest, List.append_nil] at hall

end Engine

end DevicePlugin
