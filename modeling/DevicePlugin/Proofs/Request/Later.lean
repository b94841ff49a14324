import DevicePlugin.Proofs.Request.Course
import DevicePlugin.Proofs.Request.Frame
import DevicePlugin.Proofs.Request.Leftover
import DevicePlugin.Proofs.Request.Progress
import Mathlib.Data.List.Basic

/-!
# Inferences after a cancelled one

What cancelled inferences leave behind runs on the request like the tasks of the
inference that comes later. Whether they disturb it is decided by the order in
which the tasks run: the later inference is all right if a first task, its own or
another's, was the last to run before its second.
-/

namespace DevicePlugin

namespace Engine

open InferRequest

/-- What runs on a request is run to its end: its backend is alive, answers in the same way every time
and does not break off, no executor gives its tasks up, and the callback returns. -/
structure Serves (rid : RequestId) (r : InferRequest) (d : Device) (e : Engine Shared) : Prop where
  device : ∃ d', e.state.devices r.compiled.plugin = some d' ∧ d'.backend = d.backend
  unpoisoned : (e.requests rid).poisoned = false
  executors : ∀ hop, (e.executors ((e.requests rid).executor hop)).kind ≠ .dropping
  callback : ∀ callback, (e.requests rid).callback = some callback → callback.panics = false

theorem Serves.device_kept {rid : RequestId} {r : InferRequest} {d : Device} {e : Engine Shared}
    (h : Serves rid r d e) {state : Shared}
    (hk : ∀ p, (state.devices p).map Device.backend = (e.state.devices p).map Device.backend) :
    ∃ d', state.devices r.compiled.plugin = some d' ∧ d'.backend = d.backend := by
  obtain ⟨d', hd', hbackend⟩ := h.device
  have hdevice := hk r.compiled.plugin
  rw [hd'] at hdevice
  obtain ⟨d'', hd'', heq⟩ := Option.map_eq_some_iff.mp hdevice
  exact ⟨d'', hd'', heq.trans hbackend⟩

theorem Serves.kept {rid : RequestId} {r : InferRequest} {d : Device} {e e' : Engine Shared}
    (h : Serves rid r d e) (hk : Kept rid e e') : Serves rid r d e' where
  device := h.device_kept hk.backend
  unpoisoned := hk.poisoned.trans h.unpoisoned
  executors hop := by
    rw [hk.executor, hk.kind]
    exact h.executors hop
  callback callback hcallback := h.callback callback (hk.callback.symm.trans hcallback)

section

variable (r : InferRequest) (d : Device) (j : InferenceId)

def Earned (runs : List (InferenceId × Hop)) (result : InferResult) : Prop :=
  (r.first d).1 ≠ .ok () ∧ Outcome.ofExcept result = (r.first d).1 ∧ (j, .start) ∈ runs ∨
  (r.first d).1 = .ok () ∧ ∃ newer older, runs = newer ++ (j, .finish) :: older ∧
    (j, .finish) ∉ newer ∧ (j, .finish) ∉ older ∧ (j, .start) ∈ older ∧
    Outcome.ofExcept result = verdict (r.first d).2.second.1 older

def Told (runs : List (InferenceId × Hop)) : Phase → Prop
  | .created => ∀ hop, (j, hop) ∉ runs
  | .awaiting .start .waiting => ∀ hop, (j, hop) ∉ runs
  | .awaiting .start (.delivered result) =>
    Outcome.ofExcept result = (r.first d).1 ∧ (j, .start) ∈ runs ∧ (j, .finish) ∉ runs
  | .awaiting .finish .waiting => (r.first d).1 = .ok () ∧ (j, .start) ∈ runs ∧ (j, .finish) ∉ runs
  | .awaiting .finish (.delivered result) => Earned r d j runs result
  | .awaiting .notify .waiting => True
  | .awaiting .notify (.delivered result) => Earned r d j runs result
  | .awaiting _ .dropped => False
  | .settled result => result = .error .busy ∨ result = .error .cancelled ∨ Earned r d j runs result
  | .panicked => False
  | .abandoned => False

variable {r d j}

theorem not_mem_cons {runs : List (InferenceId × Hop)} {i : InferenceId} (hi : i ≠ j) {hop hop' : Hop}
    (h : (j, hop') ∉ runs) : (j, hop') ∉ (i, hop) :: runs := by
  intro hmem
  rcases List.mem_cons.mp hmem with heq | hmem
  · cases heq
    exact hi rfl
  · exact h hmem

theorem Earned.cons {runs : List (InferenceId × Hop)} {result : InferResult} (h : Earned r d j runs result)
    {i : InferenceId} (hi : i ≠ j) (hop : Hop) : Earned r d j ((i, hop) :: runs) result := by
  rcases h with ⟨hfirst, hresult, hstart⟩ | ⟨hfirst, newer, older, rfl, hnewer, holder, hstart, hresult⟩
  · exact .inl ⟨hfirst, hresult, List.mem_cons_of_mem _ hstart⟩
  · exact .inr ⟨hfirst, (i, hop) :: newer, older, rfl, not_mem_cons hi hnewer, holder, hstart, hresult⟩

theorem Told.cons {runs : List (InferenceId × Hop)} {phase : Phase} (h : Told r d j runs phase)
    {i : InferenceId} (hi : i ≠ j) (hop : Hop) : Told r d j ((i, hop) :: runs) phase := by
  cases phase with
  | created => exact fun hop' => not_mem_cons hi (h hop')
  | awaiting waited reply =>
    cases waited <;> cases reply
    · exact fun hop' => not_mem_cons hi (h hop')
    · exact ⟨h.1, List.mem_cons_of_mem _ h.2.1, not_mem_cons hi h.2.2⟩
    · exact h
    · exact ⟨h.1, List.mem_cons_of_mem _ h.2.1, not_mem_cons hi h.2.2⟩
    · exact Earned.cons h hi hop
    · exact h
    · exact h
    · exact Earned.cons h hi hop
    · exact h
  | settled result => exact h.imp_right (Or.imp_right fun h => h.cons hi hop)
  | panicked => exact h
  | abandoned => exact h

theorem Told.earned {e : Engine Shared} {runs : List (InferenceId × Hop)} {result : InferResult}
    (h : Told r d j runs (e.inferences j).phase) (hc : e.Concludes j result) : Earned r d j runs result := by
  cases hc with
  | start failure hphase =>
    rw [hphase] at h
    obtain ⟨hresult, hstart, -⟩ := h
    refine .inl ⟨?_, hresult, hstart⟩
    rw [← hresult]
    exact nofun
  | finish _ hphase =>
    rw [hphase] at h
    exact h
  | dropped hop hhop hphase executor =>
    rw [hphase] at h
    cases hop <;> exact h.elim

end

/-! ## The invariant -/

section

variable (rid : RequestId) (r : InferRequest) (d : Device) (j : InferenceId) (start : List Happening)

/-- An inference on its way, with the tasks that have run on its request since it was made, the last
one first. -/
structure Later (runs : List (InferenceId × Hop)) (e : Engine Shared) (hand : Option Task) : Prop where
  sound : Sound e hand
  known : j < e.started
  mine : (e.inferences j).request = rid
  serves : Serves rid r d e
  trace : ∃ window, e.trace = start ++ window ∧ (runsOn rid window).reverse = runs
  fits : ∃ r', e.state.requests rid = some r' ∧ r.Fits d runs r'
  told : Told r d j runs (e.inferences j).phase
  heard : ∀ t, e.Holds hand t → t.inference = j → ∀ callback result, t.work = .notify callback result →
    callback.panics = false ∧ Earned r d j runs result

variable {rid r d j start} {runs : List (InferenceId × Hop)} {e e' : Engine Shared} {hand hand' : Option Task}

theorem Later.kept (h : Later rid r d j start runs e hand) (hk : Kept rid e e') (hsound : Sound e' hand')
    (hknown : j < e'.started) (hmine : (e'.inferences j).request = rid)
    (htold : Told r d j runs (e'.inferences j).phase)
    (hheard : ∀ t, e'.Holds hand' t → t.inference = j → ∀ callback result,
      t.work = .notify callback result → callback.panics = false ∧ Earned r d j runs result) :
    Later rid r d j start runs e' hand' where
  sound := hsound
  known := hknown
  mine := hmine
  serves := h.serves.kept hk
  trace := by
    obtain ⟨window, htrace, hruns⟩ := h.trace
    obtain ⟨more, hmore, hnone⟩ := hk.trace
    refine ⟨window ++ more, ?_, ?_⟩
    · rw [hmore, htrace, List.append_assoc]
    · rw [runsOn_append, hnone, List.append_nil, hruns]
  fits := by
    rw [hk.request]
    exact h.fits
  told := htold
  heard := hheard

theorem phase_setPhase_ne {e : Engine Shared} {id i : InferenceId} (hi : i ≠ id) (phase : Phase) :
    ((e.setPhase id phase).inferences i).phase = (e.inferences i).phase := by
  rw [setPhase_inferences, if_neg hi]

theorem phase_setPhase (e : Engine Shared) (id : InferenceId) (phase : Phase) :
    ((e.setPhase id phase).inferences id).phase = phase := by
  rw [setPhase_inferences, if_pos rfl]

theorem Later.phase_answer {t : Task} (ht : t.inference ≠ j) (reply : Reply) :
    ((e.answer t reply).inferences j).phase = (e.inferences j).phase := by
  rw [answer_eq]
  exact phase_setPhase_ne (Ne.symm ht) _

theorem Later.inference_ne (h : Later rid r d j start runs e hand) {t : Task} (ht : e.Holds hand t)
    (hrid : t.request ≠ rid) : t.inference ≠ j := by
  rintro rfl
  exact hrid ((h.sound.owned t ht).trans h.mine)

/-- What an inference that settles says is what it has earned, unless it is cancelled. -/
theorem Told.settles {result : InferResult} {notice : Option Notice}
    (h : Told r d j runs (e.inferences j).phase) (hs : e.Settles j result notice) :
    Told r d j runs (.settled result) := by
  cases hs with
  | cancelled hop reply hhop hphase htripped executor => exact .inr (.inl rfl)
  | gaveUp hc executor => exact .inr (.inl rfl)
  | unheard _ hc hresult hcallback => exact .inr (.inr (h.earned hc))
  | uncalled result callback hc hresult hcallback htripped => exact .inr (.inl rfl)
  | told _ hphase =>
    rw [hphase] at h
    exact .inr (.inr h)
  | untold hphase executor =>
    rw [hphase] at h
    exact h.elim
  | unawaited reply hphase htripped => exact .inr (.inl rfl)

/-- What an inference hands over after its first task goes with what it was told. -/
theorem Told.due {work : Work} (h : Told r d j runs (e.inferences j).phase) (hdue : e.Due j work)
    (hcalm : ∀ callback, (e.requests (e.inferences j).request).callback = some callback →
      callback.panics = false) :
    Told r d j runs (.awaiting work.hop .waiting) ∧
      ∀ callback result, work = .notify callback result →
        callback.panics = false ∧ Earned r d j runs result := by
  cases hdue with
  | finish hphase =>
    rw [hphase] at h
    exact ⟨⟨h.1.symm, h.2⟩, nofun⟩
  | notify callback result hc hresult hcallback =>
    refine ⟨trivial, ?_⟩
    intro callback' result' heq
    cases heq
    exact ⟨hcalm _ hcallback, h.earned hc⟩

/-- An inference that owes a task either waits for it or does not hear of it any more. -/
theorem Later.told_answer {t : Task} (h : Later rid r d j start runs e (some t)) (hj : t.inference = j)
    (hequal : e'.inferences = e.inferences) (runs' : List (InferenceId × Hop)) (reply : Reply)
    (htold : Told r d j runs (.awaiting t.work.hop .waiting) →
      Told r d j runs' (.awaiting t.work.hop reply)) :
    Told r d j runs' ((e'.answer t reply).inferences j).phase := by
  subst hj
  rw [answer_eq, phase_setPhase, hequal]
  have hphase := h.told
  rcases h.sound.owed t (.inl rfl) with howed | howed | howed
  · rw [howed] at hphase ⊢
    rw [Phase.answered_awaiting]
    exact htold hphase
  · rw [howed]
    exact .inr (.inl rfl)
  · rw [howed] at hphase
    exact hphase.elim

/-- Once its task is out of hand, an inference has none on its way. -/
theorem Later.heard_none {t : Task} (h : Later rid r d j start runs e (some t))
    (hheld : ∀ t', e'.Holds none t' → e.Holds none t') {runs' : List (InferenceId × Hop)}
    (hearned : t.inference ≠ j → ∀ result, Earned r d j runs result → Earned r d j runs' result) :
    ∀ t', e'.Holds none t' → t'.inference = j → ∀ callback result, t'.work = .notify callback result →
      callback.panics = false ∧ Earned r d j runs' result := by
  intro t' ht' hj callback result hwork
  obtain ⟨x, hx⟩ := holds_none.mp (hheld t' ht')
  have hne : t.inference ≠ j := by
    intro heq
    exact h.sound.single t rfl x t' hx (hj.trans heq.symm)
  obtain ⟨hpanics, hresult⟩ := h.heard t' (.inr ⟨x, hx⟩) hj callback result hwork
  exact ⟨hpanics, hearned hne result hresult⟩

theorem Later.ran {t : Task} (h : Later rid r d j start runs e (some t)) (ht : t.request = rid)
    {r' : InferRequest} (hr' : e.state.requests rid = some r') {order : List InferStage}
    {outcome : Outcome Failure Unit} {served : Served}
    (hran : Served.stages.runEach order (e.state.served r') = (outcome, served)) (houtcome : outcome ≠ .panic)
    (hsound : Sound (runStages (Shared.stages t.request) order e t).1 none)
    (hfits : r.Fits d ((t.inference, t.work.hop) :: runs) served.request)
    (htold : t.inference = j → Told r d j runs (.awaiting t.work.hop .waiting) →
      Told r d j ((t.inference, t.work.hop) :: runs) (.awaiting t.work.hop (replyOf outcome))) :
    Later rid r d j start ((t.inference, t.work.hop) :: runs)
      (runStages (Shared.stages t.request) order e t).1 none := by
  have hpoisoned : (e.requests t.request).poisoned = false := by
    rw [ht]
    exact h.serves.unpoisoned
  have hrequest : e.state.requests t.request = some r' := by
    rw [ht]
    exact hr'
  obtain ⟨houtcome', hstate, -⟩ := Shared.runEach_spec order hrequest
  have hbackend := (Shared.runEach_frame t.request order e.state).2
  rw [hran] at houtcome' hstate
  generalize hrun : (Shared.stages t.request).runEach order e.state = run at houtcome' hstate hbackend
  obtain ⟨_, state⟩ := run
  cases houtcome'
  rw [ht] at hstate
  rw [runStages_eq _ _ hpoisoned hrun, marked_of_ne_panic _ _ houtcome] at hsound ⊢
  let next : Engine Shared := ({ e with state } : Engine Shared).note (.ran t.request t.inference t.work.hop outcome)
  have hanswer : next.answer t (replyOf outcome) =
      next.setPhase t.inference ((next.inferences t.inference).phase.answered t.work.hop (replyOf outcome)) :=
    answer_eq next t _
  have hserves : Serves rid r d next :=
    { h.serves with device := h.serves.device_kept hbackend }
  have hequal : next.inferences = e.inferences := rfl
  exact
    { sound := hsound
      known := by
        rw [hanswer]
        exact h.known
      mine := by
        rw [answer_request]
        exact h.mine
      serves := hserves.kept (kept_answer _ _ _)
      trace := by
        obtain ⟨window, htrace, hruns⟩ := h.trace
        refine ⟨window ++ [.ran t.request t.inference t.work.hop outcome], ?_, ?_⟩
        · rw [hanswer]
          simp only [Engine.setPhase, setInference, next, note, htrace, List.append_assoc]
        · rw [runsOn_append, List.reverse_append, hruns]
          simp [runsOn, ht]
      fits := by
        rw [hanswer]
        exact ⟨served.request, hstate, hfits⟩
      told := by
        by_cases hj : t.inference = j
        · exact h.told_answer hj hequal _ _ (htold hj)
        · rw [Later.phase_answer hj]
          exact h.told.cons hj _
      heard := by
        refine h.heard_none (fun t' ht' => ?_) fun hj result hresult => hresult.cons hj _
        have hnext : next.Holds none t' := holds_of_answer ht'
        exact hnext }

/-- A task of the request runs, be it of this inference or of another one. -/
theorem Later.run {t : Task} (h : Later rid r d j start runs e (some t)) (ht : t.request = rid)
    (hpure : d.backend.Pure) (hsteady : (r.first d).1 ≠ .panic) :
    ∃ runs', Later rid r d j start runs' (e.runTask Shared.stages t).1 none := by
  have hsound : Sound (e.runTask Shared.stages t).1 none := h.sound.move (@Move.run _ Shared.stages e t)
  obtain ⟨r', hr', hfits⟩ := h.fits
  obtain ⟨d', hd', hbackend⟩ := h.serves.device
  have hplugin : r'.compiled.plugin = r.compiled.plugin := by rw [hfits.same.compiled]
  have hserved : e.state.served r' = ⟨r', some d'⟩ := by rw [Shared.served, hplugin, hd']
  cases hwork : t.work with
  | start =>
    have hhop : t.work.hop = .start := by
      rw [hwork]
      rfl
    have hrunTask : e.runTask Shared.stages t = runStages (Shared.stages t.request) [.preprocess, .start] e t := by
      unfold runTask
      rw [hwork]
    obtain ⟨hfirst, hfits'⟩ := hfits.first hpure hbackend t.inference
    have hne : (r'.first d').1 ≠ .panic := by
      rw [hfirst]
      exact hsteady
    rw [hrunTask] at hsound ⊢
    rw [← hhop] at hfits'
    refine ⟨_, h.ran ht hr' (by rw [hserved]; rfl) hne hsound hfits' ?_⟩
    intro hj htold
    rw [hhop] at htold ⊢
    obtain ⟨result, hreply, hresult⟩ := outcome_ofExcept_replyOf hne
    rw [hreply, hj]
    refine ⟨hresult.trans hfirst, List.mem_cons_self, ?_⟩
    intro hmem
    rcases List.mem_cons.mp hmem with heq | hmem
    · cases heq
    · exact htold .finish hmem
  | finish =>
    have hhop : t.work.hop = .finish := by
      rw [hwork]
      rfl
    have hrunTask : e.runTask Shared.stages t = runStages (Shared.stages t.request) [.wait, .postprocess] e t := by
      unfold runTask
      rw [hwork]
    have hfits' := hfits.second hpure t.inference
    have hne : r'.second.1 ≠ .panic := second_ne_panic r'
    rw [hrunTask] at hsound ⊢
    rw [← hhop] at hfits'
    refine ⟨_, h.ran ht hr' (by rw [hserved, runEach_finish_eq]) hne hsound hfits' ?_⟩
    intro hj htold
    rw [hhop] at htold ⊢
    obtain ⟨result, hreply, hresult⟩ := outcome_ofExcept_replyOf hne
    rw [hreply, hj]
    obtain ⟨hfirst, hstart, hnone⟩ := htold
    have hverdict := (second_after hfits hpure ⟨j, hstart⟩).1
    exact .inr ⟨hfirst, [], runs, rfl, List.not_mem_nil, hnone, hstart, hresult.trans hverdict⟩
  | notify callback result =>
    have hhop : t.work.hop = .notify := by
      rw [hwork]
      rfl
    let next := e.note (.called t.inference callback result)
    have hequal : next.inferences = e.inferences := rfl
    have hrunTask : ∃ reply, (t.inference = j → reply = .delivered result) ∧
        (e.runTask Shared.stages t).1 = next.answer t reply := by
      unfold runTask
      rw [hwork]
      simp only
      split
      -- The callback of this inference returns, so one that breaks off is another's.
      · rename_i hpanics
        refine ⟨.dropped, fun hj => ?_, rfl⟩
        have hcalm := (h.heard t (.inl rfl) hj callback result hwork).1
        rw [hpanics] at hcalm
        cases hcalm
      · exact ⟨_, fun _ => rfl, rfl⟩
    obtain ⟨reply, hreply, hrunTask⟩ := hrunTask
    rw [hrunTask] at hsound ⊢
    refine ⟨runs, h.kept ((kept_note e rfl).trans (kept_answer _ _ _)) hsound ?_ ?_ ?_ ?_⟩
    · rw [answer_eq]
      exact h.known
    · rw [answer_request]
      exact h.mine
    · by_cases hj : t.inference = j
      · refine h.told_answer hj hequal _ _ fun _ => ?_
        rw [hreply hj, hhop]
        exact (h.heard t (.inl rfl) hj callback result hwork).2
      · rw [Later.phase_answer hj]
        exact h.told
    · refine h.heard_none (fun t' ht' => ?_) fun _ _ hresult => hresult
      have hnext : next.Holds none t' := holds_of_answer ht'
      exact hnext

theorem Later.hand_none (h : Later rid r d j start runs e none) {t : Task}
    (hnew : t.inference = j → ∀ callback result, t.work = .notify callback result →
      callback.panics = false ∧ Earned r d j runs result) :
    ∀ t', e.Holds (some t) t' → t'.inference = j → ∀ callback result, t'.work = .notify callback result →
      callback.panics = false ∧ Earned r d j runs result := by
  rintro t' (ht' | ht')
  · cases ht'
    exact hnew
  · exact h.heard t' (.inr ht')

theorem Later.move {c c' : Engine Shared × Option Task} (h : Later rid r d j start runs c.1 c.2)
    (hpure : d.backend.Pure) (hsteady : (r.first d).1 ≠ .panic) (hm : Move Shared.stages c c') :
    ∃ runs', Later rid r d j start runs' c'.1 c'.2 := by
  have hsound := h.sound.move hm
  have hknown : j < c'.1.started := hm.inferences.1 ▸ h.known
  have hmine : (c'.1.inferences j).request = rid := (hm.inferences.2 j).trans h.mine
  cases hm with
  | take htake =>
    refine ⟨runs, h.kept (kept_take htake) hsound hknown hmine ?_ fun t' ht' => h.heard t' (holds_of_take htake ht')⟩
    obtain ⟨-, executor, rfl⟩ := takeTask_eq htake
    exact h.told
  | queue _ =>
    exact ⟨runs, h.kept (kept_setExecutor _ _ rfl) hsound hknown hmine h.told
      fun t' ht' => h.heard t' (holds_of_queued ht')⟩
  | count =>
    exact ⟨runs, h.kept (kept_setExecutor _ _ rfl) hsound hknown hmine h.told
      fun t' ht' => h.heard t' (holds_of_alike (alike_count _ _ _) ht')⟩
  | @lose e t hkind =>
    -- No executor of the request gives tasks up, so this one belongs to another request.
    have hne : t.inference ≠ j := by
      intro hj
      have ht : t.request = rid := ((h.sound.owned t (.inl rfl)).trans (by rw [hj])).trans h.mine
      rw [home, ht] at hkind
      exact h.serves.executors t.work.hop hkind
    refine ⟨runs, h.kept (kept_answer _ _ _) hsound hknown hmine ?_ ?_⟩
    · rw [dropTask, Later.phase_answer hne]
      exact h.told
    · exact h.heard_none (fun t' ht' => holds_of_answer ht') fun _ _ hresult => hresult
  | @run e t =>
    by_cases ht : t.request = rid
    · exact h.run ht hpure hsteady
    · have hne : t.inference ≠ j := h.inference_ne (.inl rfl) ht
      obtain ⟨e', reply, halike, -, heq, -⟩ := runTask_answers Shared.stages e t
      refine ⟨runs, h.kept (kept_runTask_other e ht) hsound hknown hmine ?_ ?_⟩
      · rw [heq, Later.phase_answer hne, halike.inferences]
        exact h.told
      · rw [heq]
        exact h.heard_none (fun t' ht' => holds_of_alike halike (holds_of_answer ht')) fun _ _ hresult => hresult
  | @busy e id hid hphase hflight =>
    refine ⟨runs, h.kept ((kept_setInference _ _ _).trans (kept_note _ rfl)) hsound hknown hmine ?_ h.heard⟩
    by_cases hj : j = id
    · subst hj
      exact (phase_setPhase e j _).symm ▸ .inl rfl
    · exact (phase_setPhase_ne hj _).symm ▸ h.told
  | @begin e id hid hphase hflight =>
    have hheld : ∀ t', ((e.taken id).handed id .start).Holds (some (e.task id .start)) t' →
        e.Holds (some (e.task id .start)) t' := fun _ ht' => ht'
    refine ⟨runs, h.kept ((kept_taken _ _).trans (kept_handed _ _ _)) hsound hknown hmine ?_
      fun t' ht' => h.hand_none (fun _ _ _ hwork => by cases hwork) t' (hheld t' ht')⟩
    by_cases hj : j = id
    · subst hj
      have htold := h.told
      rw [hphase] at htold
      exact (phase_setPhase (e.taken j) j _).symm ▸ htold
    · have htaken : ((e.taken id).inferences j).phase = (e.inferences j).phase := by
        simp only [taken, setRequest, setInference, if_neg hj]
      exact ((phase_setPhase_ne hj _).trans htaken).symm ▸ h.told
  | @hand e id work hid hdue htripped =>
    have hheld : ∀ t', (e.handed id work).Holds (some (e.task id work)) t' →
        e.Holds (some (e.task id work)) t' := fun _ ht' => ht'
    have hcalm : ∀ callback, (e.requests (e.inferences j).request).callback = some callback →
        callback.panics = false := by
      rw [h.mine]
      exact h.serves.callback
    refine ⟨runs, h.kept (kept_handed _ _ _) hsound hknown hmine ?_
      fun t' ht' => h.hand_none (fun hj => ?_) t' (hheld t' ht')⟩
    · by_cases hj : j = id
      · subst hj
        exact (phase_setPhase e j _).symm ▸ (h.told.due hdue hcalm).1
      · exact (phase_setPhase_ne hj _).symm ▸ h.told
    · cases hj
      exact (h.told.due hdue hcalm).2
  | @settle e id result notice hid hsettles =>
    have hinferences : ((e.logged id notice).settle id result).inferences =
        (e.setPhase id (.settled result)).inferences := by cases notice <;> rfl
    have hheld : ∀ t', ((e.logged id notice).settle id result).Holds none t' → e.Holds none t' := by
      intro t' ht'
      cases notice <;> exact ht'
    refine ⟨runs, h.kept ((kept_logged _ _ _).trans (kept_finish _ _ _)) hsound hknown hmine ?_
      fun t' ht' => h.heard t' (hheld t' ht')⟩
    simp only [hinferences]
    by_cases hj : j = id
    · subst hj
      rw [phase_setPhase]
      exact h.told.settles hsettles
    · rw [phase_setPhase_ne hj]
      exact h.told
  | @breakOff e id hop hid hphase =>
    refine ⟨runs, h.kept (kept_finish _ _ _) hsound hknown hmine ?_ h.heard⟩
    -- An inference whose tasks all run to their end is never told that one was dropped.
    by_cases hj : j = id
    · subst hj
      have htold := h.told
      rw [hphase] at htold
      cases hop <;> exact htold.elim
    · exact (phase_setPhase_ne hj _).symm ▸ h.told

theorem Later.moves {c c' : Engine Shared × Option Task} (h : Later rid r d j start runs c.1 c.2)
    (hpure : d.backend.Pure) (hsteady : (r.first d).1 ≠ .panic) (hm : Moves Shared.stages c c') :
    ∃ runs', Later rid r d j start runs' c'.1 c'.2 := by
  induction hm with
  | refl => exact ⟨runs, h⟩
  | tail _ hmove ih =>
    obtain ⟨runs', h'⟩ := ih
    exact h'.move hpure hsteady hmove

end

def Step.IsOrdinary {σ : Type} : Step σ → Prop
  | .infer _ => True
  | .poll _ _ => True
  | .cancel _ => True
  | .runQueued _ _ => True
  | _ => False

section

variable {rid : RequestId} {r : InferRequest} {d : Device} {j : InferenceId} {start : List Happening}
  {runs : List (InferenceId × Hop)} {e : Engine Shared}

theorem Later.step (h : Later rid r d j start runs e none) (hpure : d.backend.Pure)
    (hsteady : (r.first d).1 ≠ .panic) {s : Step Shared} (hs : s.IsOrdinary) :
    ∃ runs', Later rid r d j start runs' (e.step Shared.stages s) none := by
  have hsound := h.sound.step Shared.stages s
  cases s with
  | infer request =>
    have hne : j ≠ e.started := Nat.ne_of_lt h.known
    have hkept : Kept rid e (e.infer request) := { Kept.refl rid e with }
    refine ⟨runs, h.kept hkept hsound (Nat.lt_succ_of_lt h.known) ?_ ?_ h.heard⟩
    · simp only [Engine.step, infer, setInference, if_neg hne]
      exact h.mine
    · simp only [Engine.step, infer, setInference, if_neg hne]
      exact h.told
  | poll id preferReply =>
    simp only [Engine.step]
    split
    · rename_i hid
      exact Later.moves (c := (e, none)) h hpure hsteady (poll_moves _ hid (h.sound.token_fresh _) preferReply)
    · exact ⟨runs, h⟩
  | cancel request =>
    exact ⟨runs, h.kept (kept_cancel e request) hsound h.known h.mine h.told h.heard⟩
  | runQueued x position =>
    exact Later.moves (c := (e, none)) h hpure hsteady (runQueued_moves _ e x position)
  | abandon _ => exact hs.elim
  | setCallback _ _ => exact hs.elim
  | dropQueued _ _ => exact hs.elim
  | access _ _ => exact hs.elim

theorem Later.steps {history : List (Step Shared)} (h : Later rid r d j start runs e none)
    (hpure : d.backend.Pure) (hsteady : (r.first d).1 ≠ .panic) (hhistory : ∀ s ∈ history, s.IsOrdinary) :
    ∃ runs', Later rid r d j start runs' (e.steps Shared.stages history) none := by
  induction history generalizing e runs with
  | nil => exact ⟨runs, h⟩
  | cons s history ih =>
    obtain ⟨runs', h'⟩ := h.step hpure hsteady (hhistory s List.mem_cons_self)
    exact ih h' fun s' hs' => hhistory s' (List.mem_cons_of_mem _ hs')

end

/-! ## The order of tasks decides -/

theorem infix_reverse_iff {j : InferenceId} {newer older : List (InferenceId × Hop)}
    (hnewer : (j, .finish) ∉ newer) (holder : (j, .finish) ∉ older) :
    (∃ i, [(i, .start), (j, .finish)] <:+: (newer ++ (j, .finish) :: older).reverse) ↔
      ∃ i rest, older = (i, .start) :: rest := by
  constructor
  · rintro ⟨i, before, after, h⟩
    have hreverse := congrArg List.reverse h
    simp only [List.reverse_append, List.reverse_cons, List.reverse_reverse,
      List.append_assoc, List.cons_append, List.nil_append] at hreverse
    obtain ⟨-, -, rfl⟩ := (List.append_cons_inj_of_notMem hnewer holder).mp hreverse.symm
    exact ⟨i, _, rfl⟩
  · rintro ⟨i, rest, rfl⟩
    exact ⟨i, rest.reverse, newer.reverse, by simp⟩

theorem getLast?_reverse_ne_iff {runs : List (InferenceId × Hop)} :
    (∀ i, runs.reverse.getLast? ≠ some (i, .start)) ↔ ∀ i rest, runs ≠ (i, .start) :: rest := by
  refine forall_congr' fun i => ?_
  rw [List.getLast?_reverse, ne_eq, List.head?_eq_some_iff, not_exists]

theorem ended_of_mem {j : InferenceId} {newer older : List (InferenceId × Hop)} (h : Begun older) :
    Ended (newer ++ (j, .finish) :: older) := by
  induction newer with
  | nil => exact .inr ⟨rfl, h⟩
  | cons run newer ih => exact .inl ih

theorem Step.Drives.isOrdinary {σ : Type} {j : InferenceId} {s : Step σ} (h : s.Drives j) : s.IsOrdinary := by
  cases s with
  | poll id preferReply => trivial
  | runQueued x position => trivial
  | infer _ => exact h.elim
  | abandon _ => exact h.elim
  | cancel _ => exact h.elim
  | setCallback _ _ => exact h.elim
  | dropQueued _ _ => exact h.elim
  | access _ _ => exact h.elim

section

variable {rid : RequestId} {r : InferRequest} {d : Device} {j : InferenceId} {start : List Happening}
  {runs : List (InferenceId × Hop)} {e : Engine Shared}

/-- An inference that was not polled yet has had no task run. -/
theorem Later.of_created (hsound : Sound e none) (hj : j < e.started)
    (hcreated : (e.inferences j).phase = .created) (hrid : (e.inferences j).request = rid)
    (hr : e.state.requests rid = some r) (hserves : Serves rid r d e) : Later rid r d j e.trace [] e none where
  sound := hsound
  known := hj
  mine := hrid
  serves := hserves
  trace := ⟨[], (List.append_nil _).symm, rfl⟩
  fits := ⟨r, hr, fits_nil r d⟩
  told := by
    rw [hcreated]
    exact fun _ => List.not_mem_nil
  heard t ht hj' := absurd hj' (hsound.inference_ne_of_created hcreated ht)

theorem Later.settles (h : Later rid r d j start runs e none) (ha : Awaited e none) (hpure : d.backend.Pure)
    (hsteady : (r.first d).1 ≠ .panic) :
    ∃ (more : List (Step Shared)) (result : InferResult), (∀ s ∈ more, s.Drives j) ∧
      ((e.steps Shared.stages more).inferences j).phase = .settled result := by
  obtain ⟨more, hmore, hended⟩ := exists_steps_ended Shared.stages h.sound ha h.known
  obtain ⟨runs', h'⟩ := h.steps hpure hsteady fun s hs => (hmore s hs).isOrdinary
  have htold := h'.told
  cases hphase : ((e.steps Shared.stages more).inferences j).phase with
  | settled result => exact ⟨more, result, hmore, hphase⟩
  | created =>
    rw [hphase] at hended
    cases hended
  | awaiting hop reply =>
    rw [hphase] at hended
    cases hended
  | panicked =>
    rw [hphase] at htold
    exact htold.elim
  | abandoned =>
    rw [hphase] at htold
    exact htold.elim

theorem Later.agrees_iff (h : Later rid r d j start runs e none) (hpure : d.backend.Pure)
    {result : InferResult} (hsettled : (e.inferences j).phase = .settled result)
    (hbusy : result ≠ .error .busy) (hcancelled : result ≠ .error .cancelled) :
    ∃ r', e.state.requests rid = some r' ∧
      (r.Agrees d result r' ↔
        ((r.alone d).1 = .ok () → (∃ i, [(i, .start), (j, .finish)] <:+: runs.reverse) ∧
          (r.compiled.config.profiling = true → ∀ i, runs.reverse.getLast? ≠ some (i, .start)))) := by
  obtain ⟨r', hr', hfits⟩ := h.fits
  refine ⟨r', hr', ?_⟩
  have htold := h.told
  rw [hsettled] at htold
  rw [getLast?_reverse_ne_iff]
  rcases (htold.resolve_left hbusy).resolve_left hcancelled with
    ⟨hfailed, hresult, hbegun⟩ | ⟨hok, newer, older, rfl, hnewer, holder, hbegun, hresult⟩
  · refine iff_of_true (agrees_of_first_ne_ok hfits hpure hfailed ⟨j, hbegun⟩ hresult) fun halone => ?_
    exact absurd ((alone_of_first_ne_ok hpure hfailed).1.symm.trans halone) hfailed
  · rw [infix_reverse_iff hnewer holder]
    exact agrees_iff_of_first_ok hfits hpure hok (ended_of_mem ⟨j, hbegun⟩) hresult

end

/-- An inference that is made beside tasks that others have left can always be brought to its end.
If it is neither cancelled nor told that the request is busy, it settles and leaves the request as it
does by itself on a new request, in these cases and no others: it fails by itself; or a first task was
the last to run before its second task, and, where stages are profiled, no first task was the last to
run at all. -/
theorem agrees_iff_order {e : Engine Shared} (he : e.Reachable Shared.stages) {j : InferenceId}
    (hj : j < e.started) (hcreated : (e.inferences j).phase = .created) {rid : RequestId}
    (hrid : (e.inferences j).request = rid) {r : InferRequest} (hr : e.state.requests rid = some r)
    {d : Device} (hserves : Serves rid r d e) (hpure : d.backend.Pure)
    (hsteady : d.backend.evaluate d.evaluations r.graph r.inputs ≠ .panic) {history : List (Step Shared)}
    (hhistory : ∀ s ∈ history, s.IsOrdinary) :
    let e' := e.steps Shared.stages history
    let runs := runsOn rid (e'.trace.drop e.trace.length)
    (∃ (more : List (Step Shared)) (result : InferResult), (∀ s ∈ more, s.Drives j) ∧
      ((e'.steps Shared.stages more).inferences j).phase = .settled result) ∧
    ∀ result, (e'.inferences j).phase = .settled result → result ≠ .error .busy → result ≠ .error .cancelled →
      ∃ r', e'.state.requests rid = some r' ∧
        (r.Agrees d result r' ↔
          ((r.alone d).1 = .ok () → (∃ i, [(i, .start), (j, .finish)] <:+: runs) ∧
            (r.compiled.config.profiling = true → ∀ i, runs.getLast? ≠ some (i, .start)))) := by
  have hfirst : (r.first d).1 ≠ .panic := fun h => hsteady (first_panic h)
  have hstart : Later rid r d j e.trace [] e none := .of_created he.sound hj hcreated hrid hr hserves
  -- The invariant holds of the whole history; what is left is to read it off at its end.
  obtain ⟨reversed, hlater⟩ := hstart.steps hpure hfirst hhistory
  intro e' runs
  obtain ⟨window, htrace, hreversed⟩ := hlater.trace
  have hruns : runs = reversed.reverse := by
    simp only [runs, e', htrace, List.drop_left]
    rw [← hreversed, List.reverse_reverse]
  refine ⟨hlater.settles (he.steps history).awaited hpure hfirst, ?_⟩
  intro result hsettled hbusy hcancelled
  rw [hruns]
  exact hlater.agrees_iff hpure hsettled hbusy hcancelled

def retried : Engine Shared := leftover.steps Shared.stages [.infer 0]

def inTurn : List (Step Shared) := [.runQueued 1 0, .poll 1 true, .runQueued 1 0, .poll 1 true]

def between : List (Step Shared) :=
  [.poll 1 true, .runQueued 1 0, .runQueued 1 0, .poll 1 true]

theorem agrees_inTurn :
    ∃ r', (retried.steps Shared.stages inTurn).state.requests 0 = some r' ∧
      unpublished.Agrees { backend := mirror, evaluations := 1 } (.ok ()) r' := by
  have he : retried.Reachable Shared.stages := reachable_leftover.steps _
  have hj : 1 < retried.started := by decide
  have hrid : (retried.inferences 1).request = 0 := rfl
  have hr : retried.state.requests 0 = some unpublished := rfl
  have hserves : Serves 0 unpublished { backend := mirror, evaluations := 1 } retried :=
    { device := ⟨_, rfl, rfl⟩
      unpoisoned := rfl
      executors := fun hop => by cases hop <;> exact nofun
      callback := fun _ h => nomatch h }
  have hhistory : ∀ s ∈ inTurn, s.IsOrdinary := by simp [inTurn, Step.IsOrdinary]
  have hsettled : ((retried.steps Shared.stages inTurn).inferences 1).phase = .settled (.ok ()) := rfl
  have hruns : runsOn 0 ((retried.steps Shared.stages inTurn).trace.drop retried.trace.length) =
      [(0, .finish), (1, .start), (1, .finish)] := rfl
  obtain ⟨-, hall⟩ := agrees_iff_order he hj rfl hrid hr hserves (fun _ _ => rfl) nofun hhistory
  obtain ⟨r', hr', hagrees⟩ := hall _ hsettled nofun nofun
  rw [hruns] at hagrees
  exact ⟨r', hr', hagrees.mpr fun _ => ⟨⟨1, [(0, .finish)], [], rfl⟩, nofun⟩⟩

/-- The leftover task takes the tensors of the later inference, which succeeds by itself. -/
theorem notStarted_between :
    ((retried.steps Shared.stages between).inferences 1).phase = .settled (.error (.infer .notStarted)) ∧
      (loaded.alone { backend := mirror }).1 = .ok () :=
  ⟨rfl, rfl⟩

end Engine

end DevicePlugin
