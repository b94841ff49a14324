import DevicePlugin.Proofs.Request.Cancelled
import DevicePlugin.Proofs.Request.Course
import DevicePlugin.Proofs.Request.Fair
import DevicePlugin.Proofs.Request.Frame
import DevicePlugin.Proofs.Request.Notified

/-!
# Inferring in tasks and at once

While nobody else touches a request, the tasks of an inference come to the same result
as the four stages one right after the other, and leave the request as those leave it.
Whether tasks run at once or are kept for a while makes no difference.
-/

namespace DevicePlugin

namespace InferRequest

def opening (r : InferRequest) (d : Option Device) : Outcome Failure Unit × InferRequest :=
  match Served.stages.runEach [.preprocess, .start] ⟨r, d⟩ with
  | (outcome, served) => (outcome, served.request)

def atOnce (r : InferRequest) (d : Option Device) : Outcome Failure Unit × InferRequest :=
  match Served.stages.infer ⟨r, d⟩ with
  | (outcome, served) => (outcome, served.request)

/-- The backend, unless it is released, answers in the same way every time and does not break off. -/
def Steady (d : Option Device) : Prop :=
  ∀ device, d = some device → device.backend.Pure ∧ ∀ i m inputs, device.backend.evaluate i m inputs ≠ .panic

variable {r : InferRequest} {d : Option Device}

theorem atOnce_eq (r : InferRequest) (d : Option Device) :
    r.atOnce d =
      match r.opening d with
      | (.ok (), f) => f.second
      | (outcome, f) => (outcome, f) := by
  unfold atOnce opening
  rw [Stages.infer_eq]
  generalize Served.stages.runEach [.preprocess, .start] ⟨r, d⟩ = ran
  obtain ⟨outcome, served⟩ := ran
  cases outcome with
  | ok value => simp only [runEach_finish_eq served.request served.device]
  | error failure => rfl
  | panic => rfl

theorem atOnce_of_ok (h : (r.opening d).1 = .ok ()) : r.atOnce d = (r.opening d).2.second := by
  rw [atOnce_eq]
  generalize r.opening d = ran at h ⊢
  obtain ⟨outcome, f⟩ := ran
  cases h
  rfl

theorem atOnce_of_ne_ok (h : (r.opening d).1 ≠ .ok ()) : r.atOnce d = r.opening d := by
  rw [atOnce_eq]
  generalize r.opening d = ran at h ⊢
  obtain ⟨outcome, f⟩ := ran
  cases outcome with
  | ok value => exact absurd rfl h
  | error failure => rfl
  | panic => rfl

/-- How often the backend was asked before makes no difference. -/
theorem opening_congr (hsteady : Steady d) {d' : Option Device}
    (hd : d'.map Device.backend = d.map Device.backend) : r.opening d' = r.opening d := by
  unfold opening
  cases hunset : r.unset with
  | some p => rw [Served.runEach_start_unset hunset, Served.runEach_start_unset hunset]
  | none =>
    cases d with
    | none =>
      rw [Option.map_eq_none_iff.mp hd]
    | some device =>
      obtain ⟨device', rfl, hbackend⟩ := Option.map_eq_some_iff.mp hd
      have hevaluate : device'.backend.evaluate device'.evaluations r.graph r.inputs =
          device.backend.evaluate device.evaluations r.graph r.inputs := by
        rw [hbackend, (hsteady device rfl).1 device'.evaluations device.evaluations]
      rw [Served.runEach_start_set hunset, Served.runEach_start_set hunset, hevaluate, hbackend]
      cases device.backend.evaluate device.evaluations r.graph r.inputs <;> rfl

theorem opening_ends (hsteady : Steady d) : (r.opening d).1 ≠ .panic ∧ (r.opening d).1 ≠ .error .cancelled := by
  unfold opening
  cases hunset : r.unset with
  | some p =>
    rw [Served.runEach_start_unset hunset]
    simp
  | none =>
    cases d with
    | none =>
      rw [Served.runEach_start_released hunset]
      simp
    | some device =>
      rw [Served.runEach_start_set hunset]
      have hreturns := (hsteady device rfl).2 device.evaluations r.graph r.inputs
      cases hanswer : device.backend.evaluate device.evaluations r.graph r.inputs with
      | ok outputs => simp
      | error error => simp
      | panic => exact absurd hanswer hreturns

theorem second_ne_cancelled (r : InferRequest) : r.second.1 ≠ .error .cancelled := by
  unfold second
  split
  · simp
  · split <;> simp

theorem atOnce_ne_cancelled (hsteady : Steady d) : (r.atOnce d).1 ≠ .error .cancelled := by
  by_cases hok : (r.opening d).1 = .ok ()
  · rw [atOnce_of_ok hok]
    exact second_ne_cancelled _
  · rw [atOnce_of_ne_ok hok]
    exact (opening_ends hsteady).2

def Done (r : InferRequest) (d : Option Device) (r' : InferRequest) (result : InferResult) : Prop :=
  Outcome.ofExcept result = (r.atOnce d).1 ∧ r' = (r.atOnce d).2

def Abreast (r : InferRequest) (d : Option Device) (r' : InferRequest) : Phase → Prop
  | .created => r' = r
  | .awaiting .start .waiting => r' = r
  | .awaiting .start (.delivered result) => Outcome.ofExcept result = (r.opening d).1 ∧ r' = (r.opening d).2
  | .awaiting .finish .waiting => (r.opening d).1 = .ok () ∧ r' = (r.opening d).2
  | .awaiting .finish (.delivered result) => Done r d r' result
  | .awaiting .notify .waiting => r' = (r.atOnce d).2
  | .awaiting .notify (.delivered result) => Done r d r' result
  | .settled result => Done r d r' result
  | _ => False

variable {r' : InferRequest}

theorem Abreast.dropped {hop : Hop} (h : r.Abreast d r' (.awaiting hop .dropped)) : False := by
  cases hop <;> exact h

variable {e : Engine Shared} {j : InferenceId}

theorem Abreast.concluded {result : InferResult}
    (h : r.Abreast d r' (e.inferences j).phase) (hc : e.Concludes j result) : Done r d r' result := by
  cases hc with
  | start failure hphase =>
    rw [hphase] at h
    obtain ⟨hresult, hleft⟩ := h
    have hfailed : (r.opening d).1 ≠ .ok () := by
      rw [← hresult]
      exact nofun
    rw [Done, atOnce_of_ne_ok hfailed]
    exact ⟨hresult, hleft⟩
  | finish _ hphase =>
    rw [hphase] at h
    exact h
  | dropped hop hhop hphase executor =>
    rw [hphase] at h
    exact h.dropped.elim

theorem Abreast.due {work : Work} (h : r.Abreast d r' (e.inferences j).phase)
    (hdue : e.Due j work) : r.Abreast d r' (.awaiting work.hop .waiting) := by
  cases hdue with
  | finish hphase =>
    rw [hphase] at h
    exact ⟨h.1.symm, h.2⟩
  | notify callback result hc hresult hcallback => exact (h.concluded hc).2

theorem Abreast.settles {result : InferResult} {notice : Option Notice}
    (h : r.Abreast d r' (e.inferences j).phase) (huntripped : e.isTripped j = false)
    (hs : e.Settles j result notice) : Done r d r' result := by
  cases hs with
  | cancelled hop reply hhop hphase htripped executor =>
    rw [huntripped] at htripped
    cases htripped
  | gaveUp hc executor => exact h.concluded hc
  | unheard _ hc hresult hcallback => exact h.concluded hc
  | uncalled result callback hc hresult hcallback htripped =>
    rw [huntripped] at htripped
    cases htripped
  | told _ hphase =>
    rw [hphase] at h
    exact h
  | untold hphase executor =>
    rw [hphase] at h
    exact h.dropped.elim
  | unawaited reply hphase htripped =>
    rw [huntripped] at htripped
    cases htripped

end InferRequest

namespace Engine

open InferRequest

/-! ## Nobody else -/

/-- The request is left to one inference: nothing is called on it or on its state, and neither the inference nor
any task is given up. -/
def Step.Spares (rid : RequestId) (j : InferenceId) (owner : PluginId) : Step Shared → Prop
  | .infer r => r ≠ rid
  | .poll _ _ => True
  | .abandon id => id ≠ j
  | .cancel r => r ≠ rid
  | .setCallback r _ => r ≠ rid
  | .runQueued _ _ => True
  | .dropQueued _ _ => False
  | .access _ change => ∀ s, (change s).requests rid = s.requests rid ∧
      ((change s).devices owner).map Device.backend = (s.devices owner).map Device.backend

structure Undisturbed {σ : Type} (rid : RequestId) (j : InferenceId) (e : Engine σ) (hand : Option Task) : Prop where
  closed : ∀ i < e.started, (e.inferences i).request = rid → i ≠ j → (e.inferences i).phase.isOpen = false
  tasks : ∀ t, e.Holds hand t → t.request = rid → t.inference = j

section

variable {σ : Type} {stages : RequestId → Stages σ} {allowed : Step σ → Prop} {c c' : Engine σ × Option Task}
  {rid : RequestId} {j : InferenceId}

theorem Turn.isOpen (ht : Turn stages allowed c c') {i : InferenceId} (hi : i < c.1.started)
    (hopen : (c'.1.inferences i).phase.isOpen = true) : (c.1.inferences i).phase.isOpen = true := by
  refine Phase.isOpen_of_rank_pos (Nat.pos_of_ne_zero fun hzero => ?_)
  have hle := ht.rank_le hi
  rw [hzero] at hle
  rw [Phase.isOpen_of_rank_eq_zero (Nat.le_zero.mp hle)] at hopen
  cases hopen

theorem Undisturbed.turn (h : Undisturbed rid j c.1 c.2) (hs : Sound c.1 c.2) (hnever : ¬ allowed (.infer rid))
    (ht : Turn stages allowed c c') : Undisturbed rid j c'.1 c'.2 := by
  have hs' := hs.turn ht
  constructor
  · intro i hi' hrequest hne
    by_cases hi : i < c.1.started
    · have hclosed := h.closed i hi ((ht.request hi).symm.trans hrequest) hne
      cases hopen : (c'.1.inferences i).phase.isOpen with
      | false => rfl
      | true => exact absurd (ht.isOpen hi hopen) (by rw [hclosed]; exact nofun)
    · exact absurd (hrequest ▸ ht.made hi hi') hnever
  · intro t hheld hrequest
    rcases ht.holds_due hheld with hold | hdue
    · exact h.tasks t hold hrequest
    · by_contra hne
      have howned : (c'.1.inferences t.inference).request = rid := (hs'.owned t hheld).symm.trans hrequest
      have hi : t.inference < c.1.started := by
        by_contra hno
        exact hnever (howned ▸ ht.made hno (hs'.known t hheld))
      -- Who hands a task over is open.
      have hclosed := h.closed t.inference hi ((ht.request hi).symm.trans howned) hne
      rcases hdue with ⟨-, hphase⟩ | hdue
      · rw [hphase] at hclosed
        cases hclosed
      · obtain ⟨hop, reply, -, hphase⟩ := Sound.due_awaiting hdue
        rw [hphase] at hclosed
        cases hclosed

theorem Undisturbed.free {e : Engine σ} {hand : Option Task} (h : Undisturbed rid j e hand) (he : Exclusive e)
    (hcreated : (e.inferences j).phase = .created) : (e.requests rid).inFlight = false := by
  rw [Bool.eq_false_iff]
  intro htaken
  obtain ⟨i, hi, hrequest, hactive⟩ := (he.inFlight_iff rid).mp htaken
  have hne : i ≠ j := by
    rintro rfl
    rw [hcreated] at hactive
    cases hactive
  have hclosed := h.closed i hi hrequest hne
  cases hphase : (e.inferences i).phase with
  | awaiting hop reply =>
    rw [hphase] at hclosed
    cases hclosed
  | _ =>
    rw [hphase] at hactive
    cases hactive

end

/-! ## The invariant -/

structure Follows (rid : RequestId) (r : InferRequest) (d : Option Device) (j : InferenceId) (e : Engine Shared)
    (hand : Option Task) : Prop where
  known : j < e.started
  mine : (e.inferences j).request = rid
  unpoisoned : (e.requests rid).poisoned = false
  reliable : Reliable rid e
  backend : (e.state.devices r.compiled.plugin).map Device.backend = d.map Device.backend
  abreast : ∃ r', e.state.requests rid = some r' ∧ r.Abreast d r' (e.inferences j).phase
  heard : ∀ t, e.Holds hand t → t.inference = j → ∀ callback result, t.work = .notify callback result →
    callback.panics = false ∧ Outcome.ofExcept result = (r.atOnce d).1

variable {rid : RequestId} {r r' : InferRequest} {d : Option Device} {j : InferenceId}

/-- A task that runs brings the request as far as its inference is then. -/
theorem Follows.answered {e : Engine Shared} {t : Task} (h : Follows rid r d j e (some t))
    (hs : Sound e (some t)) (hsteady : Steady d) (htask : t.inference = j) {reply : Reply} {more : List Happening}
    {state : Shared} (hends : Ends (Shared.stages t.request) e t reply more state) :
    ∃ result r', reply = .delivered result ∧ state.requests rid = some r' ∧
      r.Abreast d r' ((e.inferences j).phase.answered t.work.hop reply) := by
  have howned : t.request = rid := (hs.owned t (.inl rfl)).trans (htask ▸ h.mine)
  obtain ⟨r', hr', habreast⟩ := h.abreast
  have hphase : (e.inferences j).phase = .awaiting t.work.hop .waiting := by
    rcases htask ▸ hs.owed t (.inl rfl) with hphase | hphase | hphase
    · exact hphase
    · rw [hphase] at habreast
      exact absurd habreast.1.symm (atOnce_ne_cancelled hsteady)
    · rw [hphase] at habreast
      exact habreast.elim
  rw [hphase] at habreast
  rw [hphase, Phase.answered_awaiting]
  subst howned
  cases hends with
  | poisoned hwork hpoisoned =>
    rw [h.unpoisoned] at hpoisoned
    cases hpoisoned
  | stages hwork hpoisoned hrun =>
    rename_i outcome
    obtain ⟨houtcome, hrequest, -⟩ := Shared.runEach_spec (stagesOf t.work) hr'
    rw [hrun] at houtcome hrequest
    rcases hwork with hwork | hwork
    · rw [hwork] at habreast houtcome hrequest ⊢
      have hsame : r' = r := habreast
      subst hsame
      have hopening := opening_congr (r := r') hsteady h.backend
      have hout : outcome = (r'.opening d).1 := by
        rw [← hopening]
        exact houtcome
      have hleft : state.requests t.request = some (r'.opening d).2 := by
        rw [← hopening]
        exact hrequest
      obtain ⟨result, hreply, hresult⟩ := outcome_ofExcept_replyOf (hout ▸ (opening_ends hsteady).1)
      rw [hreply]
      exact ⟨result, _, rfl, hleft, hresult.trans hout, rfl⟩
    · rw [hwork] at habreast houtcome hrequest ⊢
      obtain ⟨hok, hleft⟩ := habreast
      rw [stagesOf, Shared.served, runEach_finish_eq] at houtcome hrequest
      have hout : outcome = r'.second.1 := houtcome
      obtain ⟨result, hreply, hresult⟩ := outcome_ofExcept_replyOf (hout ▸ second_ne_panic r')
      rw [hreply]
      refine ⟨result, _, rfl, hrequest, ?_⟩
      rw [hout, hleft] at hresult
      have hdone : Done r d (r.opening d).2.second.2 result := by
        rw [Done, atOnce_of_ok hok]
        exact ⟨hresult, rfl⟩
      rw [hleft]
      exact hdone
  | called hwork hpanics =>
    rw [hwork] at habreast ⊢
    exact ⟨_, r', rfl, hr', (h.heard t (.inl rfl) htask _ _ hwork).2, habreast⟩
  | broke hwork hpanics =>
    rw [(h.heard t (.inl rfl) htask _ _ hwork).1] at hpanics
    cases hpanics

/-! ## Turns of the inference -/

theorem Step.Spares.calm {owner : PluginId} {s : Step Shared} (h : s.Spares rid j owner) : s.Calm rid := by
  cases s with
  | setCallback other callback => exact fun hother => absurd hother h
  | dropQueued x position => exact h
  | _ => trivial

section

variable {owner : PluginId} {c c' : Engine Shared × Option Task}

theorem Turn.backend (ht : Turn Shared.stages (Step.Spares rid j owner) c c') :
    (c'.1.state.devices owner).map Device.backend = (c.1.state.devices owner).map Device.backend := by
  rcases ht.state with hsame | ⟨t, -, hran⟩ | ⟨other, change, hspares, hchange⟩
  · rw [hsame]
  · rw [hran]
    exact (Shared.runEach_frame t.request _ _).2 owner
  · rw [hchange]
    exact (hspares c.1.state).2

/-- Only its own tasks touch a request that is spared. -/
theorem Turn.untouched (ht : Turn Shared.stages (Step.Spares rid j owner) c c') :
    c'.1.state.requests rid = c.1.state.requests rid ∧
        (c'.1.requests rid).poisoned = (c.1.requests rid).poisoned ∨
      ∃ t, c.2 = some t ∧ t.request = rid ∧ c'.1 = (c.1.runTask Shared.stages t).1 := by
  cases ht with
  | move hmove => exact (hmove.kept rid).imp_left fun hkept => ⟨hkept.request, hkept.poisoned⟩
  | defer => exact .inl ⟨rfl, rfl⟩
  | @call e s hcall hspares =>
    have hdoes := step_does Shared.stages e hcall
    generalize e.step Shared.stages s = next at hdoes ⊢
    refine .inl ?_
    cases hdoes with
    | infer other => exact ⟨rfl, rfl⟩
    | cancel other => exact ⟨(kept_cancel e other).request, (kept_cancel e other).poisoned⟩
    | setCallback other callback =>
      have hother : rid ≠ other := Ne.symm hspares
      exact ⟨rfl, by simp [setCallback, setRequest, hother]⟩
    | access other change _ => exact ⟨(hspares e.state).1, rfl⟩
    | lose htake => exact hspares.elim
    | giveUp _ _ => exact ⟨rfl, rfl⟩
    | leave _ _ => exact ⟨(kept_finish e _ _).request, (kept_finish e _ _).poisoned⟩
    | nothing => exact ⟨rfl, rfl⟩

end

theorem Follows.ran {e : Engine Shared} {t : Task} (h : Follows rid r d j e (some t)) (hs : Sound e (some t))
    (hsteady : Steady d) (htask : t.inference = j) :
    ((e.runTask Shared.stages t).1.requests rid).poisoned = false ∧
      ∃ r', (e.runTask Shared.stages t).1.state.requests rid = some r' ∧
        r.Abreast d r' ((e.runTask Shared.stages t).1.inferences j).phase := by
  obtain ⟨reply, more, e', hruns, heq⟩ := runTask_runs Shared.stages e t
  obtain ⟨result, r', hreply, hr', habreast⟩ := h.answered hs hsteady htask hruns.ends
  rw [heq, answer_state]
  refine ⟨?_, r', hr', ?_⟩
  · rw [answer_eq, Bool.eq_false_iff]
    intro hbroke
    rcases hruns.poisoned rid hbroke with hpoisoned | ⟨-, hdropped⟩
    · rw [h.unpoisoned] at hpoisoned
      cases hpoisoned
    · rw [hreply] at hdropped
      cases hdropped
  · subst htask
    rw [answer_inferences_self, hruns.alike.inferences]
    exact habreast

variable {c c' : Engine Shared × Option Task}

theorem Follows.abreast_part (h : Follows rid r d j c.1 c.2) (hundisturbed : Undisturbed rid j c.1 c.2)
    (hunharmed : Unharmed rid j c.1) (hs : Sound c.1 c.2) (hexclusive : Exclusive c.1) (hsteady : Steady d)
    {more : List Happening} (hpart : Part Shared.stages (Step.Spares rid j r.compiled.plugin) j c c' more)
    (hrequest : c'.1.state.requests rid = c.1.state.requests rid) :
    ∃ r', c'.1.state.requests rid = some r' ∧ r.Abreast d r' (c'.1.inferences j).phase := by
  obtain ⟨r', hr', habreast⟩ := h.abreast
  have hr'' : c'.1.state.requests rid = some r' := hrequest.trans hr'
  cases hpart with
  | aside hsame hquiet hknown => exact ⟨r', hr'', by rwa [hsame]⟩
  | made hnew hstarted hphase => exact absurd h.known (hnew ▸ Nat.lt_irrefl _)
  | busy _ hphase hnext hflight =>
    -- Nobody else is open, so that the request is free.
    rw [h.mine, hundisturbed.free hexclusive hphase] at hflight
    cases hflight
  | begin _ hphase hnext hhand =>
    rw [hphase] at habreast
    exact ⟨r', hr'', by rw [hnext]; exact habreast⟩
  | hand _ hdue htripped hnext hhand => exact ⟨r', hr'', by rw [hnext]; exact habreast.due hdue⟩
  | ran hhand htask hends hnext =>
    rw [hhand] at h hs
    obtain ⟨result, left, hreply, hleft, hanswered⟩ := h.answered hs hsteady htask hends
    exact ⟨left, hleft, by rw [hnext]; exact hanswered⟩
  | lost hheld htask hlost hnext =>
    have howned : _ = rid := (hs.owned _ hheld).trans (htask ▸ h.mine)
    -- The executors of the request keep their tasks, and nobody gives one up.
    rcases hlost with hdropping | ⟨x, position, hdropped⟩
    · rw [home, howned] at hdropping
      exact absurd hdropping (h.reliable.keeps _)
    · exact hdropped.elim
  | settle hj hsettles hnext =>
    have huntripped := hunharmed.untripped hs ⟨hj, h.mine, hsettles.isActive⟩
    exact ⟨r', hr'', by rw [hnext]; exact habreast.settles huntripped hsettles⟩
  | breakOff _ hphase hnext =>
    rw [hphase] at habreast
    exact habreast.dropped.elim
  | abandon _ hopen hnext hspares => exact absurd rfl hspares

theorem Follows.heard_turn (h : Follows rid r d j c.1 c.2) {allowed : Step Shared → Prop}
    (ht : Turn Shared.stages allowed c c') {t : Task} (hheld : c'.1.Holds c'.2 t) (htask : t.inference = j)
    {callback : Callback} {result : InferResult} (hwork : t.work = .notify callback result) :
    callback.panics = false ∧ Outcome.ofExcept result = (r.atOnce d).1 := by
  rcases ht.holds_due hheld with hold | ⟨hhop, -⟩ | hdue
  · exact h.heard t hold htask callback result hwork
  · rw [hwork] at hhop
    cases hhop
  · rw [hwork, htask] at hdue
    obtain ⟨r', -, habreast⟩ := h.abreast
    cases hdue with
    | notify _ _ hc hresult hcallback =>
      exact ⟨h.reliable.returns callback (h.mine ▸ hcallback), (habreast.concluded hc).1⟩

theorem Follows.turn (h : Follows rid r d j c.1 c.2) (hundisturbed : Undisturbed rid j c.1 c.2)
    (hunharmed : Unharmed rid j c.1) (hs : Sound c.1 c.2) (hexclusive : Exclusive c.1) (hsteady : Steady d)
    (ht : Turn Shared.stages (Step.Spares rid j r.compiled.plugin) c c') : Follows rid r d j c'.1 c'.2 := by
  have hnext : (c'.1.requests rid).poisoned = false ∧
      ∃ r', c'.1.state.requests rid = some r' ∧ r.Abreast d r' (c'.1.inferences j).phase := by
    rcases ht.untouched with ⟨hrequest, hpoisoned⟩ | ⟨t, hhand, hrid, hran⟩
    · obtain ⟨more, -, hpart⟩ := ht.part j
      exact ⟨hpoisoned.trans h.unpoisoned,
        h.abreast_part hundisturbed hunharmed hs hexclusive hsteady hpart hrequest⟩
    · have htask : t.inference = j := hundisturbed.tasks t (.inl hhand) hrid
      rw [hhand] at h hs
      rw [hran]
      exact h.ran hs hsteady htask
  exact
    { known := Nat.lt_of_lt_of_le h.known ht.started_le
      mine := (ht.request h.known).trans h.mine
      unpoisoned := hnext.1
      reliable := h.reliable.turn (ht.mono fun _ => Step.Spares.calm)
      backend := ht.backend.trans h.backend
      abreast := hnext.2
      heard := fun t hheld htask callback result hwork => h.heard_turn ht hheld htask hwork }

theorem follows_turns (h : Follows rid r d j c.1 c.2) (hundisturbed : Undisturbed rid j c.1 c.2)
    (hunharmed : Unharmed rid j c.1) (hvisited : Visited Shared.stages c) (hsteady : Steady d)
    (ht : Turns Shared.stages (Step.Spares rid j r.compiled.plugin) c c') :
    Follows rid r d j c'.1 c'.2 ∧ Undisturbed rid j c'.1 c'.2 := by
  induction ht with
  | refl => exact ⟨h, hundisturbed⟩
  | tail hbefore hturn ih =>
    obtain ⟨hfollows, hundisturbed'⟩ := ih
    have hvisited' := hvisited.turns hbefore
    have hunharmed' := unharmed_turns hunharmed hvisited (fun hne => hne rfl) hbefore
    refine ⟨hfollows.turn hundisturbed' hunharmed' hvisited'.sound hvisited'.exclusive hsteady hturn, ?_⟩
    exact hundisturbed'.turn hvisited'.sound (fun hne => hne rfl) hturn

theorem Follows.of_created {e : Engine Shared} (hs : Sound e none) (hj : j < e.started)
    (hcreated : (e.inferences j).phase = .created) (hrid : (e.inferences j).request = rid)
    (hr : e.state.requests rid = some r) (hpoisoned : (e.requests rid).poisoned = false)
    (hreliable : Reliable rid e) : Follows rid r (e.state.devices r.compiled.plugin) j e none where
  known := hj
  mine := hrid
  unpoisoned := hpoisoned
  reliable := hreliable
  backend := rfl
  abreast := by
    rw [hcreated]
    exact ⟨r, hr, rfl⟩
  heard t hheld htask := absurd htask (hs.inference_ne_of_created hcreated hheld)

theorem unharmed_of_created {σ : Type} {e : Engine σ} (hcreated : (e.inferences j).phase = .created) :
    Unharmed rid j e where
  current hactive := absurd hcreated hactive.ne_created
  own _ _ hsettled := by
    rw [hcreated] at hsettled
    cases hsettled

theorem Follows.settled {e : Engine Shared} {hand : Option Task} (h : Follows rid r d j e hand)
    (hended : (e.inferences j).phase.isOpen = false) : ∃ result, (e.inferences j).phase = .settled result := by
  obtain ⟨r', -, habreast⟩ := h.abreast
  cases hphase : (e.inferences j).phase with
  | settled result => exact ⟨result, rfl⟩
  | created =>
    rw [hphase] at hended
    cases hended
  | awaiting hop reply =>
    rw [hphase] at hended
    cases hended
  | panicked =>
    rw [hphase] at habreast
    exact habreast.elim
  | abandoned =>
    rw [hphase] at habreast
    exact habreast.elim

/-- An inference that is left alone with its request, on a backend that answers in the same way every time,
comes to the result that the four stages have one right after the other, and leaves its request as they leave
it. And if it is polled again and again, and its executors run every task they keep at some time, it ends. -/
theorem infers_as_at_once {e : Engine Shared} (he : Visited Shared.stages (e, none)) (hj : j < e.started)
    (hcreated : (e.inferences j).phase = .created) (hrid : (e.inferences j).request = rid)
    (hr : e.state.requests rid = some r) (hpoisoned : (e.requests rid).poisoned = false)
    (hreliable : Reliable rid e) (hsteady : Steady (e.state.devices r.compiled.plugin))
    (hundisturbed : Undisturbed rid j e none) :
    let sync := (Shared.stages rid).infer e.state
    (∀ c result, Turns Shared.stages (Step.Spares rid j r.compiled.plugin) (e, none) c →
      (c.1.inferences j).phase = .settled result →
      Outcome.ofExcept result = sync.1 ∧ c.1.state.requests rid = sync.2.requests rid) ∧
    ∀ schedule : Nat → Step Shared, (∀ n, (schedule n).Spares rid j r.compiled.plugin) →
      Fair Shared.stages e schedule j →
      ∃ n result, ((e.after Shared.stages schedule n).inferences j).phase = .settled result ∧
        Outcome.ofExcept result = sync.1 ∧
        (e.after Shared.stages schedule n).state.requests rid = sync.2.requests rid := by
  intro sync
  obtain ⟨houtcome, hrequest, -⟩ := Shared.runEach_spec [.preprocess, .start, .wait, .postprocess] hr
  have hstart := Follows.of_created he.sound hj hcreated hrid hr hpoisoned hreliable
  have hall (c : Engine Shared × Option Task)
      (hc : Turns Shared.stages (Step.Spares rid j r.compiled.plugin) (e, none) c) :
      Follows rid r (e.state.devices r.compiled.plugin) j c.1 c.2 :=
    (follows_turns hstart hundisturbed (unharmed_of_created hcreated) he hsteady hc).1
  have hagrees : ∀ c result, Turns Shared.stages (Step.Spares rid j r.compiled.plugin) (e, none) c →
      (c.1.inferences j).phase = .settled result →
      Outcome.ofExcept result = sync.1 ∧ c.1.state.requests rid = sync.2.requests rid := by
    intro c result hc hsettled
    obtain ⟨r', hr', habreast⟩ := (hall c hc).abreast
    rw [hsettled] at habreast
    obtain ⟨hresult, hleft⟩ := habreast
    refine ⟨hresult.trans houtcome.symm, ?_⟩
    rw [hr', hleft]
    exact hrequest.symm
  refine ⟨hagrees, fun schedule hspares hfair => ?_⟩
  obtain ⟨n, hended⟩ := hfair.ended he.sound he.awaited hj
  have hway : Turns Shared.stages (Step.Spares rid j r.compiled.plugin) (e, none)
      (e.after Shared.stages schedule n, none) := after_turns he.sound hspares n
  obtain ⟨result, hsettled⟩ := (hall _ hway).settled hended
  exact ⟨n, result, hsettled, hagrees _ result hway hsettled⟩

def inferring : Engine Shared := deferring.steps Shared.stages [.infer 0]

def patient : Nat → Step Shared
  | 1 => .runQueued 1 0
  | _ => .poll 0 true

theorem after_patient (n : Nat) :
    inferring.after Shared.stages patient (n + 3) = inferring.after Shared.stages patient 3 := by
  -- The inference has settled by then, and polling it does nothing.
  induction n with
  | zero => rfl
  | succ n ih =>
    have hpolled : (inferring.after Shared.stages patient 3).step Shared.stages (.poll 0 true) =
        inferring.after Shared.stages patient 3 := rfl
    rw [Nat.succ_add, after, ih]
    exact hpolled

theorem executors_patient (n : Nat) :
    (inferring.after Shared.stages patient (n + 2)).executors = (inferring.after Shared.stages patient 2).executors := by
  cases n with
  | zero => rfl
  | succ n =>
    have hpolled : (inferring.after Shared.stages patient 3).executors =
        (inferring.after Shared.stages patient 2).executors := rfl
    exact (congrArg executors (after_patient n)).trans hpolled

theorem queue_patient {n : Nat} {x : ExecutorId} {t : Task}
    (ht : t ∈ ((inferring.after Shared.stages patient n).executors x).queue) :
    n = 1 ∧ x = 1 ∧ t = ⟨0, 0, .finish⟩ := by
  match n with
  | 0 => cases ht
  | 1 =>
    by_cases hx : x = 1
    · subst hx
      exact ⟨rfl, rfl, List.mem_singleton.mp ht⟩
    · have hsame : (inferring.after Shared.stages patient 1).executors x = deferring.executors x := if_neg hx
      rw [hsame] at ht
      cases ht
  | n + 2 =>
    rw [executors_patient] at ht
    by_cases hx : x = 1
    · subst hx
      cases ht
    · have hsame : (inferring.after Shared.stages patient 2).executors x = deferring.executors x :=
        (if_neg hx).trans (if_neg hx)
      rw [hsame] at ht
      cases ht

theorem fair_patient : Fair Shared.stages inferring patient 0 where
  polled n _ := ⟨n + 2, Nat.le_add_right n 2, true, rfl⟩
  ran n x t ht _ := by
    obtain ⟨rfl, rfl, rfl⟩ := queue_patient ht
    exact ⟨1, Nat.le_refl 1, 1, 0, rfl, rfl⟩

/-- The second task runs between two polls, and the result is the same. -/
theorem infers_as_at_once_patient :
    Undisturbed 0 0 inferring none ∧ Fair Shared.stages inferring patient 0 ∧
      ((Shared.stages 0).infer inferring.state).1 = .ok () ∧
      ∃ n result, ((inferring.after Shared.stages patient n).inferences 0).phase = .settled result ∧
        Outcome.ofExcept result = ((Shared.stages 0).infer inferring.state).1 ∧
        (inferring.after Shared.stages patient n).state.requests 0 =
          ((Shared.stages 0).infer inferring.state).2.requests 0 := by
  have he : Visited Shared.stages (inferring, none) := Reachable.visited ⟨deferring, _, isNew_deferring, rfl⟩
  have hreliable : Reliable 0 inferring := by
    refine ⟨fun hop => ?_, fun callback hcallback => by cases hcallback⟩
    cases hop <;> decide
  have hsteady : Steady (inferring.state.devices mirrored.plugin) := by
    intro device hdevice
    cases hdevice
    exact ⟨fun _ _ => rfl, fun _ _ _ => nofun⟩
  have hundisturbed : Undisturbed 0 0 inferring none := by
    constructor
    · intro i hi _ hne
      exact absurd (Nat.lt_one_iff.mp hi) hne
    · intro t hheld _
      obtain ⟨x, hx⟩ := holds_none.mp hheld
      cases hx
  have hspares (n : Nat) : (patient n).Spares 0 0 loaded.compiled.plugin := by
    match n with
    | 0 => trivial
    | 1 => trivial
    | n + 2 => trivial
  have hj : 0 < inferring.started := by decide
  have hrid : (inferring.inferences 0).request = 0 := rfl
  have hr : inferring.state.requests 0 = some loaded := rfl
  obtain ⟨-, hends⟩ := infers_as_at_once he hj rfl hrid hr rfl hreliable hsteady hundisturbed
  exact ⟨hundisturbed, fair_patient, rfl, hends patient hspares fair_patient⟩

end Engine

end DevicePlugin
