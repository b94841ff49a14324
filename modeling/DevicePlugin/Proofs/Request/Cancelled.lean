import DevicePlugin.Proofs.Request.Leftover
import DevicePlugin.Proofs.Request.Progress
import DevicePlugin.Proofs.Request.Twins

/-!
# Who is cancelled

Cancelling a request stops the inference that is active then, and no other. That one
hands over nothing more and settles when it is polled next: as cancelled, unless the
task it waited for was its last and has been answered. If none is active then nothing
is ever seen of the cancelling, and what begins later is not stopped by it.
-/

namespace DevicePlugin

theorem Phase.answered_eq_settled {hop : Hop} {reply : Reply} {phase : Phase} {result : InferResult}
    (h : phase.answered hop reply = .settled result) : phase = .settled result := by
  unfold answered at h
  split at h
  · split at h <;> cases h
  · exact h

namespace Engine

variable {σ : Type} {stages : RequestId → Stages σ}

/-! ## Polling a stopped inference -/

def IsLast (callback : Option Callback) (hop : Hop) (reply : Reply) : Prop :=
  hop = .notify ∨ callback = none ∧ (hop = .finish ∨ reply ≠ .delivered (.ok ()))

structure Stops (e next : Engine σ) (id : InferenceId) (hop : Hop) (reply : Reply) (preferReply : Bool)
    (result : InferResult) : Prop where
  settled : (next.inferences id).phase = .settled result
  waiting : reply = .waiting → result = .error .cancelled
  last : result ≠ .error .cancelled →
    preferReply = true ∧ IsLast (e.requests (e.inferences id).request).callback hop reply

section

variable {e : Engine σ} {id : InferenceId} (htripped : e.isTripped id = true)
include htripped

theorem look_of_tripped {hop : Hop} {reply : Reply} (hphase : (e.inferences id).phase = .awaiting hop reply)
    (preferReply : Bool) :
    e.look preferReply id = .cancelled ∨ preferReply = true ∧ reply ≠ .waiting ∧ ∃ result,
      e.look preferReply id = .result result ∧ (reply = .delivered (.ok ()) → result = .ok ()) := by
  unfold look
  simp only [hphase, htripped, if_true]
  cases reply with
  | waiting => exact .inl rfl
  | delivered result =>
    cases preferReply with
    | false => exact .inl rfl
    | true => exact .inr ⟨rfl, by simp, result, rfl, fun hok => by cases hok; rfl⟩
  | dropped =>
    cases preferReply with
    | false => exact .inl rfl
    | true => exact .inr ⟨rfl, by simp, _, rfl, fun hok => by cases hok⟩

theorem handOver_of_tripped (work : Work) : e.handOver stages id work = .refused := by
  unfold handOver
  rw [if_pos htripped]

theorem conclude_of_tripped (stages : RequestId → Stages σ) (preferReply : Bool) (result : InferResult) :
    ∃ last, ((e.conclude stages preferReply id result).inferences id).phase = .settled last ∧
      (last ≠ .error .cancelled →
        last = result ∧ (e.requests (e.inferences id).request).callback = none) := by
  by_cases hcancelled : result = .error .cancelled
  · subst hcancelled
    exact ⟨.error .cancelled, finish_phase _ id _, fun hne => absurd rfl hne⟩
  · unfold conclude
    simp only
    split
    · rename_i h'
      cases h'
    · split
      · rename_i hcallback
        exact ⟨result, finish_phase _ id _, fun _ => ⟨rfl, hcallback⟩⟩
      · rw [handOver_of_tripped htripped]
        exact ⟨.error .cancelled, finish_phase _ id _, fun hne => absurd rfl hne⟩

theorem afterNotify_of_tripped {reply : Reply} (hphase : (e.inferences id).phase = .awaiting .notify reply)
    (preferReply : Bool) :
    ∃ result, Stops e (e.afterNotify preferReply id) id .notify reply preferReply result := by
  unfold afterNotify
  rcases look_of_tripped htripped hphase preferReply with hlook | ⟨hprefer, hreply, result, hlook, -⟩
  · rw [hlook]
    exact ⟨.error .cancelled, finish_phase _ id _, fun _ => rfl, fun hne => absurd rfl hne⟩
  · rw [hlook]
    refine ⟨result, ?_, fun hwaiting => absurd hwaiting hreply, fun _ => ⟨hprefer, .inl rfl⟩⟩
    simp only
    split <;> exact finish_phase _ id _

theorem afterFinish_of_tripped {reply : Reply} (hphase : (e.inferences id).phase = .awaiting .finish reply)
    (preferReply : Bool) :
    ∃ result, Stops e (e.afterFinish stages preferReply id) id .finish reply preferReply result := by
  unfold afterFinish
  rcases look_of_tripped htripped hphase preferReply with hlook | ⟨hprefer, hreply, result, hlook, -⟩
  · rw [hlook]
    exact ⟨.error .cancelled, finish_phase _ id _, fun _ => rfl, fun hne => absurd rfl hne⟩
  · rw [hlook]
    obtain ⟨last, hsettled, hlast⟩ := conclude_of_tripped htripped stages preferReply result
    exact ⟨last, hsettled, fun hwaiting => absurd hwaiting hreply, fun hne =>
      ⟨hprefer, .inr ⟨(hlast hne).2, .inl rfl⟩⟩⟩

theorem afterStart_of_tripped {reply : Reply} (hphase : (e.inferences id).phase = .awaiting .start reply)
    (preferReply : Bool) :
    ∃ result, Stops e (e.afterStart stages preferReply id) id .start reply preferReply result := by
  have hstop : ∃ result, Stops e (e.conclude stages preferReply id (.error .cancelled)) id .start reply preferReply
      result :=
    ⟨.error .cancelled, finish_phase _ id _, fun _ => rfl, fun hne => absurd rfl hne⟩
  unfold afterStart
  rcases look_of_tripped htripped hphase preferReply with hlook | ⟨hprefer, hreply, result, hlook, hok⟩
  · rw [hlook]
    exact hstop
  · rw [hlook]
    cases result with
    | ok value =>
      -- The stages went well, but the next task is not handed over.
      simp only [handOver_of_tripped htripped]
      exact hstop
    | error failure =>
      obtain ⟨last, hsettled, hlast⟩ := conclude_of_tripped htripped stages preferReply (.error failure)
      refine ⟨last, hsettled, fun hwaiting => absurd hwaiting hreply, fun hne => ⟨hprefer, .inr ⟨(hlast hne).2, ?_⟩⟩⟩
      refine .inr fun hdelivered => ?_
      cases hok hdelivered

/-- A stopped inference settles when it is polled. -/
theorem poll_of_tripped (hid : id < e.started) {hop : Hop} {reply : Reply}
    (hphase : (e.inferences id).phase = .awaiting hop reply) (preferReply : Bool) :
    ∃ result, Stops e (e.step stages (.poll id preferReply)) id hop reply preferReply result := by
  simp only [step, if_pos hid, poll, hphase]
  cases hop with
  | start => exact afterStart_of_tripped htripped hphase preferReply
  | finish => exact afterFinish_of_tripped htripped hphase preferReply
  | notify => exact afterNotify_of_tripped htripped hphase preferReply

end

theorem isLast_of_concludes {e : Engine σ} {id : InferenceId} {result : InferResult} (hc : e.Concludes id result)
    {hop : Hop} {reply : Reply} (hphase : (e.inferences id).phase = .awaiting hop reply) :
    reply ≠ .waiting ∧ IsLast none hop reply := by
  cases hc with
  | start failure h =>
    rw [hphase] at h
    cases h
    exact ⟨by simp, .inr ⟨rfl, .inr (by simp)⟩⟩
  | finish _ h =>
    rw [hphase] at h
    cases h
    exact ⟨by simp, .inr ⟨rfl, .inl rfl⟩⟩
  | dropped _ hhop h executor =>
    rw [hphase] at h
    cases h
    exact ⟨by simp, .inr ⟨rfl, .inr (by simp)⟩⟩

theorem Part.settled {allowed : Step σ → Prop} {c c' : Engine σ × Option Task} {j : InferenceId}
    {more : List Happening} (h : Part stages allowed j c c' more) {result : InferResult}
    (hphase' : (c'.1.inferences j).phase = .settled result) :
    (c.1.inferences j).phase = .settled result ∨
      (c.1.inferences j).phase = .created ∧ result = .error .busy ∨ ∃ notice, c.1.Settles j result notice := by
  cases h with
  | aside hsame hquiet hknown => exact .inl (hsame ▸ hphase')
  | busy _ hphase hnext =>
    rw [hnext] at hphase'
    cases hphase'
    exact .inr (.inl ⟨hphase, rfl⟩)
  | ran hhand htask hends hnext =>
    rw [hnext] at hphase'
    exact .inl (Phase.answered_eq_settled hphase')
  | lost hheld htask hlost hnext =>
    rw [hnext] at hphase'
    exact .inl (Phase.answered_eq_settled hphase')
  | settle _ hsettles hnext =>
    rw [hnext] at hphase'
    cases hphase'
    exact .inr (.inr ⟨_, hsettles⟩)
  | _ => simp_all

/-- In whatever turn an inference settles, it is cancelled or its last task was answered. -/
theorem Turn.settles_last {allowed : Step σ → Prop} {c c' : Engine σ × Option Task} (ht : Turn stages allowed c c')
    {j : InferenceId} {hop : Hop} {reply : Reply} (hphase : (c.1.inferences j).phase = .awaiting hop reply)
    {result : InferResult} (hphase' : (c'.1.inferences j).phase = .settled result) (hne : result ≠ .error .cancelled) :
    reply ≠ .waiting ∧ IsLast (c.1.requests (c.1.inferences j).request).callback hop reply := by
  obtain ⟨more, -, hpart⟩ := ht.part j
  rcases hpart.settled hphase' with hsettled | ⟨hcreated, -⟩ | ⟨notice, hsettles⟩
  · rw [hphase] at hsettled
    cases hsettled
  · rw [hphase] at hcreated
    cases hcreated
  · cases hsettles with
    | cancelled _ _ hhop h htripped executor => exact absurd rfl hne
    | gaveUp hc executor => exact absurd rfl hne
    | uncalled told callback hc hresult hcallback htripped => exact absurd rfl hne
    | unawaited _ h htripped => exact absurd rfl hne
    | unheard _ hc hresult hcallback =>
      rw [hcallback]
      exact isLast_of_concludes hc hphase
    | told _ h =>
      rw [hphase] at h
      cases h
      exact ⟨by simp, .inl rfl⟩
    | untold h executor =>
      rw [hphase] at h
      cases h
      exact ⟨by simp, .inl rfl⟩

/-! ## What begins later -/

/-- The inference is not stopped, and was cancelled only if its own stages said so. -/
structure Unharmed (rid : RequestId) (j : InferenceId) (e : Engine σ) : Prop where
  current : e.Active rid j → (e.inferences j).token = (e.requests rid).token
  own : j < e.started → (e.inferences j).request = rid →
    (e.inferences j).phase = .settled (.error .cancelled) →
    ∃ hop, .ran rid j hop (.error .cancelled) ∈ e.trace

theorem Unharmed.untripped {e : Engine σ} {hand : Option Task} {rid : RequestId} {j : InferenceId}
    (h : Unharmed rid j e) (hs : Sound e hand) (hactive : e.Active rid j) : e.isTripped j = false := by
  rw [Bool.eq_false_iff]
  intro htripped
  rw [isTripped_iff, hactive.2.1, h.current hactive] at htripped
  exact hs.token_fresh rid htripped

variable {allowed : Step σ → Prop} {c c' : Engine σ × Option Task}

theorem Unharmed.turn {rid : RequestId} {j : InferenceId} (h : Unharmed rid j c.1) (hs : Sound c.1 c.2)
    (hh : Honest c.1 c.2) (hnever : ¬ allowed (.cancel rid)) (ht : Turn stages allowed c c') :
    Unharmed rid j c'.1 := by
  have hkept : KeepsTokens rid c.1 c'.1 := (ht.tokens rid).resolve_right fun h' => hnever h'.1
  constructor
  · intro hactive
    rw [hkept.1]
    rcases ht.active hs hactive with ⟨hold, htoken⟩ | ⟨-, htoken⟩
    · exact htoken.trans (h.current hold)
    · exact htoken
  · intro hj hrequest hphase'
    obtain ⟨more, htrace, hpart⟩ := ht.part j
    have hknown : j < c.1.started := by
      by_contra hno
      rw [(hpart.of_unmade hs hno).2 hj] at hphase'
      cases hphase'
    have hrequest' : (c.1.inferences j).request = rid := (ht.request hknown).symm.trans hrequest
    rw [htrace]
    rcases hpart.settled hphase' with hphase | ⟨-, hbusy⟩ | ⟨notice, hsettles⟩
    · obtain ⟨hop, hran⟩ := h.own hknown hrequest' hphase
      exact ⟨hop, List.mem_append_left more hran⟩
    · cases hbusy
    · obtain ⟨hop, hran⟩ := hh.settles hknown (h.untripped hs ⟨hknown, hrequest', hsettles.isActive⟩) hsettles
      rw [← hrequest']
      exact ⟨hop, List.mem_append_left more hran⟩

theorem unharmed_turns {rid : RequestId} {j : InferenceId} (h : Unharmed rid j c.1) (hc : Visited stages c)
    (hnever : ¬ allowed (.cancel rid)) (ht : Turns stages allowed c c') : Unharmed rid j c'.1 := by
  induction ht with
  | refl => exact h
  | tail hbefore hturn ih =>
    have hvisited := hc.turns hbefore
    exact ih.turn hvisited.sound hvisited.honest hnever hturn

/-! ## Cancelling -/

theorem cancel_requests_of_ne (e : Engine σ) {rid r : RequestId} (h : r ≠ rid) :
    (e.cancel rid).requests r = e.requests r := by
  simp [cancel, setRequest, h]

/-- Cancelling while nothing is active makes a twin, however often it is done. -/
theorem twins_cancel {e : Engine σ} (he : Exclusive e) {rid : RequestId} (hfree : (e.requests rid).inFlight = false)
    (n : Nat) : Twins e (e.steps stages (List.replicate n (.cancel rid))) := by
  have hsteps : ∀ (n : Nat) (d : Engine σ), d.blank = e.blank → d.inferences = e.inferences →
      (∀ r, r ≠ rid → d.requests r = e.requests r) → Twins e (d.steps stages (List.replicate n (.cancel rid))) := by
    intro n
    induction n with
    | zero =>
      intro d hblank hinferences hrequests
      refine ⟨hblank, fun r i hactive => ?_⟩
      have hr : r ≠ rid := by
        rintro rfl
        rw [(he.inFlight_iff r).mpr ⟨i, hactive⟩] at hfree
        cases hfree
      show d.isTripped i = e.isTripped i
      rw [Bool.eq_iff_iff, isTripped_iff, isTripped_iff, hinferences, hactive.2.1, hrequests r hr]
    | succ n ih =>
      intro d hblank hinferences hrequests
      refine ih (d.cancel rid) ((blank_cancel d rid).trans hblank) hinferences fun r hr => ?_
      exact (cancel_requests_of_ne d hr).trans (hrequests r hr)
  exact hsteps n e rfl rfl fun _ _ => rfl

theorem stopped_cancel {e : Engine σ} (hm : Marked e) {rid : RequestId} {j : InferenceId} (h : e.Active rid j) :
    Stopped rid j (e.cancel rid) := by
  refine ⟨h.1, h.ne_created, fun _ => ?_⟩
  · have htripped : ((e.cancel rid).requests rid).tripped = (e.requests rid).token :: (e.requests rid).tripped := by
      simp [cancel, setRequest]
    have hrequest : ((e.cancel rid).inferences j).request = rid := h.2.1
    rw [isTripped_iff, hrequest, htripped]
    exact List.mem_cons.mpr (hm rid j h)

/-- The token of a request in use is never tripped, so that nothing is ever seen of a request being cancelled
while none of its inferences is active. The inference that is active when its request is cancelled hands
over nothing more, and when it is polled it settles as cancelled, unless its task was the last one and was
answered. An inference that had not begun by then does not hold the token that was tripped; unless its
request is cancelled again, it is not stopped, and is cancelled only if its own stages say so. -/
theorem cancel_stops_active {e : Engine σ} (h : Visited stages (e, none)) (rid : RequestId) :
    (∀ c, Turns stages (fun _ => True) (e, none) c → (c.1.requests rid).token ∉ (c.1.requests rid).tripped) ∧
    ((e.requests rid).inFlight = false → ∀ n,
      let cancelled := e.steps stages (List.replicate n (.cancel rid))
      (∀ c, Turns stages (fun _ => True) (e, none) c →
        ∃ c', Turns stages (fun _ => True) (cancelled, none) c' ∧ Twins c.1 c'.1 ∧ c'.2 = c.2) ∧
      (∀ c', Turns stages (fun _ => True) (cancelled, none) c' →
        ∃ c, Turns stages (fun _ => True) (e, none) c ∧ Twins c.1 c'.1 ∧ c'.2 = c.2) ∧
      ∀ history, Twins (e.steps stages history) (cancelled.steps stages history)) ∧
    (∀ j, e.Active rid j → ∀ c, Turns stages (fun _ => True) (e.cancel rid, none) c →
      submissions j c.1.trace = submissions j e.trace ∧
      ∀ hop reply, (c.1.inferences j).phase = .awaiting hop reply →
        (∀ preferReply, ∃ result,
          Stops c.1 (c.1.step stages (.poll j preferReply)) j hop reply preferReply result) ∧
        ∀ c' result, Turn stages (fun _ => True) c c' → (c'.1.inferences j).phase = .settled result →
          result ≠ .error .cancelled → reply ≠ .waiting ∧ IsLast (c.1.requests rid).callback hop reply) ∧
    ∀ j, e.started ≤ j ∨ (e.inferences j).phase = .created →
      (∀ c, Turns stages (fun _ => True) (e.cancel rid, none) c → c.1.Active rid j →
        (c.1.inferences j).token ≠ (e.requests rid).token) ∧
      ∀ c, Turns stages (fun s => s ≠ .cancel rid) (e.cancel rid, none) c →
        (c.1.Active rid j → c.1.isTripped j = false) ∧
        (j < c.1.started → (c.1.inferences j).request = rid →
          (c.1.inferences j).phase = .settled (.error .cancelled) →
          ∃ hop, .ran rid j hop (.error .cancelled) ∈ c.1.trace) := by
  have hcancel : Turn stages (fun _ => True) (e, none) (e.cancel rid, none) := .call (s := .cancel rid) trivial trivial
  have hnext : Visited stages (e.cancel rid, none) := h.turns (.single hcancel)
  refine ⟨fun c hc => (h.turns hc).sound.token_fresh rid, ?_, ?_, ?_⟩
  · intro hfree n cancelled
    have htwins : Twins e cancelled := twins_cancel h.exclusive hfree n
    have hcancelled : Visited stages (cancelled, none) := h.turns (steps_turns h.sound fun _ _ => trivial)
    refine ⟨fun c hc => twins_turns (c := (e, none)) htwins rfl h hcancelled hc, fun c' hc' => ?_,
      htwins.steps h hcancelled⟩
    obtain ⟨c, hc, hback, hhand⟩ :=
      twins_turns (c := (cancelled, none)) (x := (e, none)) htwins.symm rfl hcancelled h hc'
    exact ⟨c, hc, hback.symm, hhand.symm⟩
  · intro j hactive c hc
    obtain ⟨hstopped, hrequest, hsubmissions⟩ :=
      stopped_turns (stopped_cancel h.marked hactive) hnext.sound hactive.2.1 hc
    refine ⟨hsubmissions, fun hop reply hphase => ⟨?_, fun c' result ht hphase' hne => ?_⟩⟩
    · have htripped : c.1.isTripped j = true := hstopped.2.2 (hrequest ▸ active_of_awaiting hstopped.1 hphase)
      exact poll_of_tripped htripped hstopped.1 hphase
    · rw [← hrequest]
      exact ht.settles_last hphase hphase' hne
  · intro j hj
    have hidle : ¬ (e.cancel rid).Active rid j := by
      intro hactive
      rcases hj with hj | hj
      · exact absurd hactive.1 (Nat.not_lt.mpr hj)
      · exact hactive.ne_created hj
    refine ⟨fun c hc hactive => ?_, fun c hc => ?_⟩
    · have hfresh : Fresh rid (e.requests rid).token j (e.cancel rid) :=
        ⟨by simp [cancel, setRequest], fun hactive => absurd hactive hidle⟩
      exact Nat.ne_of_gt ((fresh_turns hfresh hnext.sound hc).held hactive)
    · have hunharmed : Unharmed rid j (e.cancel rid) := by
        refine ⟨fun hactive => absurd hactive hidle, fun hknown _ hphase => ?_⟩
        rcases hj with hj | hj
        · exact absurd hknown (Nat.not_lt.mpr hj)
        · rw [show ((e.cancel rid).inferences j).phase = .created from hj] at hphase
          cases hphase
      have hthen : Unharmed rid j c.1 := unharmed_turns hunharmed hnext (fun hne => hne rfl) hc
      have hvisited : Visited stages c := hnext.turns (Turns.mono hc fun _ _ => trivial)
      exact ⟨hthen.untripped hvisited.sound, hthen.own⟩

/-- The first inference is cancelled while its second task waits, and the next one is not. -/
theorem cancel_stops_active_first :
    let e := deferring.steps Shared.stages [.infer 0, .poll 0 true]
    let polled := (e.cancel 0).step Shared.stages (.poll 0 true)
    let later := (e.cancel 0).steps Shared.stages [.poll 0 true, .infer 0, .poll 1 true]
    (polled.inferences 0).phase = .settled (.error .cancelled) ∧
      submissions 0 later.trace = submissions 0 e.trace ∧
      later.Active 0 1 ∧ later.isTripped 1 = false ∧
      Twins e
        ((deferring.steps Shared.stages [.cancel 0, .cancel 0]).steps Shared.stages [.infer 0, .poll 0 true]) := by
  intro e polled later
  have hnew : Reachable Shared.stages deferring := ⟨deferring, [], isNew_deferring, rfl⟩
  have he : Reachable Shared.stages e := hnew.steps [.infer 0, .poll 0 true]
  have hcancelled : Reachable Shared.stages (e.cancel 0) := he.steps [.cancel 0]
  obtain ⟨-, -, hstops, hlater⟩ := cancel_stops_active he.visited 0
  have hway (allowed : Step Shared → Prop)
      (hall : ∀ s ∈ ([.poll 0 true, .infer 0, .poll 1 true] : List (Step Shared)), allowed s) :
      Turns Shared.stages allowed (e.cancel 0, none) (later, none) :=
    steps_turns hcancelled.sound hall
  obtain ⟨-, hpoll⟩ := hstops 0 ⟨by decide, rfl, rfl⟩ (e.cancel 0, none) .refl
  obtain ⟨result, hresult⟩ := (hpoll .finish .waiting rfl).1 true
  obtain ⟨hsubmissions, -⟩ := hstops 0 ⟨by decide, rfl, rfl⟩ (later, none) (hway _ fun _ _ => trivial)
  obtain ⟨-, hharmless⟩ := hlater 1 (.inl (by decide))
  obtain ⟨huntripped, -⟩ := hharmless (later, none) (hway _ (by simp))
  have hactive : later.Active 0 1 := ⟨by decide, rfl, rfl⟩
  obtain ⟨-, hidle, -⟩ := cancel_stops_active hnew.visited 0
  obtain ⟨-, -, htwins⟩ := hidle rfl 2
  refine ⟨?_, hsubmissions, hactive, huntripped hactive, htwins [.infer 0, .poll 0 true]⟩
  rw [← hresult.waiting rfl]
  exact hresult.settled

end Engine

end DevicePlugin
