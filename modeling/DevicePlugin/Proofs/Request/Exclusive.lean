import DevicePlugin.Proofs.Request.Leftover
import DevicePlugin.Proofs.Request.Part

/-!
# One inference at a time

A request is marked as taken exactly while one of its inferences is past the check
for a busy request and has not ended. There is never a second one: whoever is polled
for the first time while the request is taken settles there and then, and nothing
else comes of it. However an inference ends, the request is free again.
-/

namespace DevicePlugin

theorem Phase.isActive_answered (hop : Hop) (reply : Reply) (phase : Phase) :
    (phase.answered hop reply).isActive = phase.isActive := by
  unfold answered
  split
  · split <;> rfl
  · rfl

namespace Engine

variable {σ : Type}

def Active (e : Engine σ) (rid : RequestId) (id : InferenceId) : Prop :=
  id < e.started ∧ (e.inferences id).request = rid ∧ (e.inferences id).phase.isActive = true

theorem Active.ne_created {e : Engine σ} {rid : RequestId} {id : InferenceId} (h : e.Active rid id) :
    (e.inferences id).phase ≠ .created := by
  intro hcreated
  have hphase : (e.inferences id).phase.isActive = true := h.2.2
  rw [hcreated] at hphase
  cases hphase

theorem active_of_awaiting {e : Engine σ} {id : InferenceId} (hid : id < e.started) {hop : Hop} {reply : Reply}
    (hphase : (e.inferences id).phase = .awaiting hop reply) : e.Active (e.inferences id).request id :=
  ⟨hid, rfl, by rw [hphase, Phase.isActive]⟩

structure Still (e e' : Engine σ) : Prop where
  active : ∀ rid i, e'.Active rid i ↔ e.Active rid i
  inFlight : ∀ rid, (e'.requests rid).inFlight = (e.requests rid).inFlight

theorem Still.trans {e e' e'' : Engine σ} (h : Still e e') (h' : Still e' e'') : Still e e'' where
  active rid i := (h'.active rid i).trans (h.active rid i)
  inFlight rid := (h'.inFlight rid).trans (h.inFlight rid)

theorem still_of_inferences {e e' : Engine σ} (hstarted : e'.started = e.started)
    (hinferences : e'.inferences = e.inferences)
    (hflight : ∀ rid, (e'.requests rid).inFlight = (e.requests rid).inFlight) : Still e e' := by
  refine ⟨fun rid i => ?_, hflight⟩
  rw [Active, Active, hstarted, hinferences]

theorem still_setPhase (e : Engine σ) {id : InferenceId} {phase : Phase}
    (hphase : phase.isActive = (e.inferences id).phase.isActive) : Still e (e.setPhase id phase) := by
  refine ⟨fun rid i => ?_, fun _ => rfl⟩
  by_cases hi : id = i
  · subst hi
    simp [Active, setPhase, setInference, hphase]
  · simp [Active, setPhase, setInference, Ne.symm hi]

theorem still_answer (e : Engine σ) (t : Task) (reply : Reply) : Still e (e.answer t reply) := by
  rw [answer_eq]
  exact still_setPhase e (Phase.isActive_answered _ _ _)

inductive Shift (e e' : Engine σ) : Prop
  | still (h : Still e e')
  | begins (r : RequestId) (id : InferenceId) (hfree : (e.requests r).inFlight = false)
      (hactive : ∀ rid i, e'.Active rid i ↔ e.Active rid i ∨ r = rid ∧ i = id)
      (hflight : ∀ rid, (e'.requests rid).inFlight = if rid = r then true else (e.requests rid).inFlight)
  | ends (r : RequestId) (id : InferenceId) (hbefore : e.Active r id)
      (hactive : ∀ rid i, e'.Active rid i ↔ e.Active rid i ∧ i ≠ id)
      (hflight : ∀ rid, (e'.requests rid).inFlight = if rid = r then false else (e.requests rid).inFlight)

theorem shift_begin {e : Engine σ} {id : InferenceId} (hid : id < e.started)
    (hfree : (e.requests (e.inferences id).request).inFlight = false) :
    Shift e ((e.taken id).handed id .start) := by
  refine .begins _ id hfree (fun rid i => ?_) fun rid => ?_
  · by_cases hi : i = id
    · subst hi
      have hnow : ((e.taken i).handed i .start).Active rid i ↔ (e.inferences i).request = rid := by
        simp [Active, handed, taken, note, setRequest, setPhase, setInference, Phase.isActive, hid]
      rw [hnow]
      constructor
      · intro hrequest
        exact .inr ⟨hrequest, rfl⟩
      · rintro (hactive | ⟨hrequest, -⟩)
        · exact hactive.2.1
        · exact hrequest
    · simp [Active, handed, taken, note, setRequest, setPhase, setInference, hi]
  · simp only [handed, taken, note, setRequest, setPhase, setInference]
    split <;> rfl

theorem shift_finish {e : Engine σ} {id : InferenceId} {phase : Phase} (hid : id < e.started)
    (hbefore : (e.inferences id).phase.isActive = true) (hphase : phase.isActive = false)
    (notice : Option Notice) : Shift e ((e.logged id notice).finish id phase) := by
  have hinferences := logged_finish_inferences e id notice phase
  refine .ends _ id ⟨hid, rfl, hbefore⟩ (fun rid i => ?_) fun rid => ?_
  · have hstarted : ((e.logged id notice).finish id phase).started = e.started := by cases notice <;> rfl
    rw [Active, Active, hstarted, hinferences]
    by_cases hi : id = i
    · subst hi
      simp [hphase]
    · simp [Ne.symm hi]
  · by_cases hrid : rid = (e.inferences id).request
    · cases notice <;> simp [logged, finish, note, setRequest, setPhase, setInference, hrid]
    · cases notice <;> simp [logged, finish, note, setRequest, setPhase, setInference, hrid]

variable {stages : RequestId → Stages σ} {allowed : Step σ → Prop} {c c' : Engine σ × Option Task}

theorem Settles.isActive {e : Engine σ} {id : InferenceId} {result : InferResult} {notice : Option Notice}
    (h : e.Settles id result notice) : (e.inferences id).phase.isActive = true := by
  have hconcludes {result : InferResult} (h : e.Concludes id result) :
      (e.inferences id).phase.isActive = true := by
    obtain ⟨hop, reply, -, hphase⟩ := Sound.concludes_awaiting h
    rw [hphase, Phase.isActive]
  cases h with
  | gaveUp h executor => exact hconcludes h
  | unheard _ h hresult hcallback => exact hconcludes h
  | uncalled _ callback h hresult hcallback htripped => exact hconcludes h
  | _ => simp [*, Phase.isActive]

theorem Move.shift (h : Move stages c c') : Shift c.1 c'.1 := by
  cases h with
  | take htake =>
    obtain ⟨-, executor, rfl⟩ := takeTask_eq htake
    exact .still (still_of_inferences rfl rfl fun _ => rfl)
  | queue _ => exact .still (still_of_inferences rfl rfl fun _ => rfl)
  | count => exact .still (still_of_inferences rfl rfl fun _ => rfl)
  | lose _ => exact .still (still_answer _ _ _)
  | @run e t =>
    obtain ⟨e', reply, halike, -, heq, -⟩ := runTask_answers stages e t
    have hran : Still e e' := still_of_inferences halike.started halike.inferences halike.inFlight
    simp only [heq]
    exact .still (hran.trans (still_answer e' t reply))
  | @busy e id hid hphase hflight =>
    have hsettled : Still e (e.setPhase id (.settled (.error .busy))) :=
      still_setPhase e (by rw [hphase]; rfl)
    exact .still (hsettled.trans (still_of_inferences rfl rfl fun _ => rfl))
  | begin hid hphase hflight => exact shift_begin hid hflight
  | @hand e id work hid hdue htripped =>
    obtain ⟨hop, reply, -, hphase⟩ := Sound.due_awaiting hdue
    have hwaits : Still e (e.setPhase id (.awaiting work.hop .waiting)) :=
      still_setPhase e (by rw [hphase]; rfl)
    exact .still (hwaits.trans (still_of_inferences rfl rfl fun _ => rfl))
  | settle hid hs => exact shift_finish hid hs.isActive rfl _
  | breakOff hid hphase => exact shift_finish hid (by rw [hphase]; rfl) rfl none

theorem Turn.shift (h : Turn stages allowed c c') : Shift c.1 c'.1 := by
  cases h with
  | move hmove => exact hmove.shift
  | defer => exact .still (still_of_inferences rfl rfl fun _ => rfl)
  | @call e s hcall hallowed =>
    have hsetRequest (rid : RequestId) {r : AsyncRequest} (hr : r.inFlight = (e.requests rid).inFlight) :
        Still e (e.setRequest rid r) := by
      refine still_of_inferences rfl rfl fun rid' => ?_
      simp only [setRequest]
      split
      · rename_i hrid
        rw [hrid, hr]
      · rfl
    have hdoes := step_does stages e hcall
    generalize e.step stages s = next at hdoes ⊢
    cases hdoes with
    | infer rid =>
      refine .still ⟨fun rid' i => ?_, fun _ => rfl⟩
      by_cases hi : i = e.started
      · subst hi
        simp [Active, infer, setInference, Phase.isActive]
      · have hlt : i < e.started + 1 ↔ i < e.started :=
          Nat.lt_succ_iff.trans (Nat.le_iff_lt_or_eq.trans (or_iff_left hi))
        simp only [Active, infer, setInference, if_neg hi, hlt]
    | cancel rid => exact .still (hsetRequest rid rfl)
    | setCallback rid callback => exact .still (hsetRequest rid rfl)
    | @lose x position t rest htake =>
      obtain ⟨-, executor, rfl⟩ := takeTask_eq htake
      have htaken : Still e (e.setExecutor x executor) := still_of_inferences rfl rfl fun _ => rfl
      exact .still (htaken.trans (still_answer _ _ .dropped))
    | @giveUp id hid hphase =>
      have hgiven : Still e (e.setPhase id .abandoned) := still_setPhase e (by rw [hphase]; rfl)
      exact .still (hgiven.trans (still_of_inferences rfl rfl fun _ => rfl))
    | leave hid hphase => exact shift_finish hid (by rw [hphase]; rfl) rfl none
    | _ => exact .still (still_of_inferences rfl rfl fun _ => rfl)

/-- A request is taken while one of its inferences is active, and never by two. -/
structure Exclusive (e : Engine σ) : Prop where
  inFlight_iff : ∀ rid, (e.requests rid).inFlight = true ↔ ∃ id, e.Active rid id
  alone : ∀ rid id id', e.Active rid id → e.Active rid id' → id = id'

theorem IsNew.exclusive {e : Engine σ} (h : IsNew e) : Exclusive e := by
  have hnone (rid : RequestId) (id : InferenceId) : ¬ e.Active rid id := by
    rintro ⟨hid, -⟩
    rw [h.started] at hid
    exact Nat.not_lt_zero id hid
  refine ⟨fun rid => ?_, fun rid id id' hid => absurd hid (hnone rid id)⟩
  simp [h.inFlight rid, hnone rid]

theorem Exclusive.shift {e e' : Engine σ} (h : Exclusive e) (hs : Shift e e') : Exclusive e' := by
  cases hs with
  | still hstill =>
    refine ⟨fun rid => ?_, fun rid id id' hid hid' => ?_⟩
    · simp only [hstill.inFlight, hstill.active]
      exact h.inFlight_iff rid
    · exact h.alone rid id id' ((hstill.active rid id).mp hid) ((hstill.active rid id').mp hid')
  | begins r id hfree hactive hflight =>
    have hnone (i : InferenceId) : ¬ e.Active r i := by
      intro hi
      rw [(h.inFlight_iff r).mpr ⟨i, hi⟩] at hfree
      cases hfree
    refine ⟨fun rid => ?_, fun rid i i' hi hi' => ?_⟩
    · by_cases hrid : rid = r
      · subst hrid
        simp [hflight, hactive]
      · simp [hflight, hactive, hrid, Ne.symm hrid, h.inFlight_iff]
    · rw [hactive] at hi hi'
      rcases hi with hi | ⟨rfl, rfl⟩ <;> rcases hi' with hi' | ⟨hr, rfl⟩
      · exact h.alone rid i i' hi hi'
      · exact absurd (hr ▸ hi) (hnone i)
      · exact absurd hi' (hnone i')
      · rfl
  | ends r id hbefore hactive hflight =>
    refine ⟨fun rid => ?_, fun rid i i' hi hi' => ?_⟩
    · by_cases hrid : rid = r
      · subst hrid
        simp only [hflight, hactive, if_true]
        constructor
        · intro hfalse
          cases hfalse
        · rintro ⟨i, hi, hne⟩
          exact absurd (h.alone rid i id hi hbefore) hne
      · have hother (i : InferenceId) : e.Active rid i ∧ i ≠ id ↔ e.Active rid i := by
          refine and_iff_left_of_imp fun hi hid => hrid ?_
          rw [← hi.2.1, hid, hbefore.2.1]
        simp only [hflight, hactive, if_neg hrid, hother]
        exact h.inFlight_iff rid
    · rw [hactive] at hi hi'
      exact h.alone rid i i' hi.1 hi'.1

theorem Visited.exclusive (h : Visited stages c) : Exclusive c.1 := by
  refine h.invariant (p := fun c => Exclusive c.1) (fun start hnew => ?_) fun c c' _ hexclusive ht => ?_
  · exact hnew.exclusive
  · exact hexclusive.shift ht.shift

/-- However an inference ends, its request is free from then on. -/
theorem Turn.frees {rid : RequestId} {id : InferenceId} (ht : Turn stages allowed c c')
    (hbefore : c.1.Active rid id) (hafter : ¬ c'.1.Active rid id) : (c'.1.requests rid).inFlight = false := by
  cases ht.shift with
  | still hstill => exact absurd ((hstill.active rid id).mpr hbefore) hafter
  | begins r i hfree hactive hflight => exact absurd ((hactive rid id).mpr (.inl hbefore)) hafter
  | ends r i hi hactive hflight =>
    by_cases hid : id = i
    · subst hid
      rw [hflight, if_pos (hbefore.2.1.symm.trans hi.2.1)]
    · exact absurd ((hactive rid id).mpr ⟨hbefore, hid⟩) hafter

/-! ## Who is told that the request is busy -/

theorem poll_of_created {e : Engine σ} {id : InferenceId} (hid : id < e.started)
    (hphase : (e.inferences id).phase = .created) (preferReply : Bool) :
    e.step stages (.poll id preferReply) = e.begin stages preferReply id := by
  simp only [step, if_pos hid, poll, hphase]

/-- A request is taken exactly while one of its inferences is active, and never by two of them. Whoever
comes meanwhile is told so at once, hands nothing over and changes nothing else. Whoever comes to a free
request hands over its first task. The request is free again when its inference ends, in whatever way. -/
theorem taken_iff_active {e : Engine σ} {hand : Option Task} (h : Visited stages (e, hand)) (rid : RequestId) :
    ((e.requests rid).inFlight = true ↔ ∃ id, e.Active rid id) ∧
    (∀ id id', e.Active rid id → e.Active rid id' → id = id') ∧
    (∀ id < e.started, (e.inferences id).request = rid → (e.inferences id).phase = .created →
      ∀ preferReply,
        let next := e.step stages (.poll id preferReply)
        ((e.requests rid).inFlight = true →
          (next.inferences id).phase = .settled (.error .busy) ∧
          next.trace = e.trace ++ [.ended id] ∧ next.requests = e.requests ∧
          next.executors = e.executors ∧ next.state = e.state ∧ next.started = e.started ∧
          ∀ other, other ≠ id → next.inferences other = e.inferences other) ∧
        ((e.requests rid).inFlight = false →
          ∃ more, next.trace = e.trace ++ .submitted id .start (e.requests rid).taskExecutor :: more)) ∧
    ∀ id c', e.Active rid id → Turn stages (fun _ => True) (e, hand) c' → ¬ c'.1.Active rid id →
      (c'.1.requests rid).inFlight = false := by
  have hexclusive : Exclusive e := h.exclusive
  refine ⟨hexclusive.inFlight_iff rid, hexclusive.alone rid, ?_, ?_⟩
  · intro id hid hrequest hphase preferReply
    subst hrequest
    simp only [poll_of_created hid hphase]
    constructor
    · intro htaken
      rw [begin_of_busy stages htaken]
      refine ⟨?_, rfl, rfl, rfl, rfl, rfl, fun other hother => ?_⟩
      · simp [note]
      · exact setPhase_inferences_of_ne e (Ne.symm hother) _
    · intro hfree
      have hturns : Turns stages (fun _ => True) ((e.taken id).handed id .start, some (e.task id .start))
          (e.begin stages preferReply id, none) :=
        Moves.turns (begin_moves_of_free stages hid hfree (h.sound.token_fresh _) preferReply)
      obtain ⟨more, hmore⟩ := hturns.trace
      have hfirst : ((e.taken id).handed id .start).trace =
          e.trace ++ [.submitted id .start (e.requests (e.inferences id).request).taskExecutor] := by
        simp [handed, taken, note, home, task, setRequest, setPhase, setInference, Work.hop, AsyncRequest.executor]
      exact ⟨more, by rw [hmore, hfirst, List.append_assoc, List.singleton_append]⟩
  · intro id c' hbefore hturn hafter
    exact hturn.frees hbefore hafter

/-- The second inference is turned away while the first one waits, and comes through once that is given up. -/
theorem taken_iff_active_second :
    let e := deferring.steps Shared.stages [.infer 0, .poll 0 true, .infer 0]
    let freed := e.step Shared.stages (.abandon 0)
    (e.requests 0).inFlight = true ∧
      ((e.step Shared.stages (.poll 1 true)).inferences 1).phase = .settled (.error .busy) ∧
      (e.step Shared.stages (.poll 1 true)).trace = e.trace ++ [.ended 1] ∧
      (freed.requests 0).inFlight = false ∧
      ∃ more, (freed.step Shared.stages (.poll 1 true)).trace = freed.trace ++ .submitted 1 .start 0 :: more := by
  intro e freed
  have he : Reachable Shared.stages e := ⟨deferring, _, isNew_deferring, rfl⟩
  have hfreed : Reachable Shared.stages freed := he.steps [.abandon 0]
  obtain ⟨htaken, -, hpoll, hends⟩ := taken_iff_active he.visited 0
  have hactive : e.Active 0 0 := ⟨by decide, rfl, rfl⟩
  have hflight : (e.requests 0).inFlight = true := htaken.mpr ⟨0, hactive⟩
  obtain ⟨hsettled, htrace, -⟩ := (hpoll 1 (by decide) rfl rfl true).1 hflight
  have hgone : ¬ freed.Active 0 0 := fun hstill => by cases hstill.2.2
  have hfree : (freed.requests 0).inFlight = false :=
    hends 0 (freed, none) hactive (.call trivial trivial) hgone
  obtain ⟨-, -, hpoll', -⟩ := taken_iff_active hfreed.visited 0
  exact ⟨hflight, hsettled, htrace, hfree, (hpoll' 1 (by decide) rfl rfl true).2 hfree⟩

end Engine

end DevicePlugin
