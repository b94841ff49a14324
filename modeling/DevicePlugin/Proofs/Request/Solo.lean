import DevicePlugin.Proofs.Request.Frame
import DevicePlugin.Proofs.Request.Turns

/-!
# One request of many

Requests share executors and backends, and their inferences are numbered together.
What is left of an engine when every request but one is taken away is an engine again:
it has the inferences of that request, numbered anew, and its tasks in the order in
which executors keep them. How often a backend or an executor was used is forgotten.
-/

namespace DevicePlugin

/-! ## The state -/

structure Solo where
  request : Option InferRequest
  backend : PluginId → Option Backend

/-- Every evaluation is the first of its backend. -/
def Solo.stages : Stages Solo where
  run stage s :=
    match s.request with
    | none => (.ok (), s)
    | some r =>
      match Served.stages.run stage ⟨r, (s.backend r.compiled.plugin).map fun backend => { backend }⟩ with
      | (outcome, served) => (outcome, { s with request := some served.request })

theorem Served.run_uncounted (stage : InferStage) (r : InferRequest) {device : Option Device}
    (hpure : ∀ d, device = some d → d.backend.Pure) :
    let first : Served := ⟨r, (device.map Device.backend).map fun backend => { backend }⟩
    (stages.run stage first).1 = (stages.run stage ⟨r, device⟩).1 ∧
      (stages.run stage first).2.request = (stages.run stage ⟨r, device⟩).2.request := by
  have hlocal (run : InferRequest → Except InferFault Unit × InferRequest) (d d' : Option Device) :
      (runLocal ⟨r, d⟩ run).1 = (runLocal ⟨r, d'⟩ run).1 ∧
        (runLocal ⟨r, d⟩ run).2.request = (runLocal ⟨r, d'⟩ run).2.request := by
    simp only [runLocal_request, and_true]
    simp only [runLocal]
    split <;> rfl
  cases stage with
  | preprocess => exact hlocal _ _ _
  | wait => exact hlocal _ _ _
  | postprocess => exact hlocal _ _ _
  | start =>
    cases device with
    | none => exact ⟨rfl, rfl⟩
    | some d =>
      have hevaluate : d.backend.evaluate 0 = d.backend.evaluate d.evaluations := hpure d rfl _ _
      simp only [stages, Served.start, Option.map_some, start_some, hevaluate]
      split <;> exact ⟨rfl, rfl⟩

namespace Shared

def Pure (s : Shared) : Prop := ∀ p d, s.devices p = some d → d.backend.Pure

theorem Pure.congr {s s' : Shared} (h : s.Pure)
    (hbackend : ∀ p, (s'.devices p).map Device.backend = (s.devices p).map Device.backend) : s'.Pure := by
  intro p d' hd'
  have hsome : (s.devices p).map Device.backend = some d'.backend := by rw [← hbackend, hd', Option.map_some]
  obtain ⟨d, hd, heq⟩ := Option.map_eq_some_iff.mp hsome
  rw [← heq]
  exact h p d hd

def solo (s : Shared) (rid : RequestId) : Solo where
  request := s.requests rid
  backend p := (s.devices p).map Device.backend

theorem solo_congr {s s' : Shared} {rid : RequestId} (hrequest : s'.requests rid = s.requests rid)
    (hbackend : ∀ p, (s'.devices p).map Device.backend = (s.devices p).map Device.backend) :
    s'.solo rid = s.solo rid := by
  simp only [solo, hrequest, hbackend]

theorem run_solo {s : Shared} (hpure : s.Pure) (rid : RequestId) (stage : InferStage) :
    Solo.stages.run stage (s.solo rid) = (((stages rid).run stage s).1, ((stages rid).run stage s).2.solo rid) := by
  cases hr : s.requests rid with
  | none => simp only [Solo.stages, solo, stages, serve, hr]
  | some r =>
    obtain ⟨houtcome, hrequest⟩ := Served.run_uncounted stage r fun d hd => hpure r.compiled.plugin d hd
    have hbackend := Served.run_backend stage (s.served r)
    rw [run_eq hr]
    simp only [Solo.stages, solo, hr, houtcome, hrequest, setRequest, setDevice, if_pos, Shared.served]
    congr 2
    funext p
    split
    · rename_i hp
      rw [hp]
      exact hbackend.symm
    · rfl

/-- The answers of stages, and what they leave, do not depend on other requests. -/
theorem runEach_solo {s : Shared} (hpure : s.Pure) (rid : RequestId) (order : List InferStage) :
    Solo.stages.runEach order (s.solo rid) =
      (((stages rid).runEach order s).1, ((stages rid).runEach order s).2.solo rid) := by
  induction order generalizing s with
  | nil => rfl
  | cons stage rest ih =>
    have hbackend := (runEach_frame rid [stage] s).2
    simp only [Stages.runEach] at hbackend ⊢
    rw [run_solo hpure]
    generalize (stages rid).run stage s = ran at hbackend ⊢
    obtain ⟨outcome, next⟩ := ran
    cases outcome with
    | ok value => exact ih (hpure.congr hbackend)
    | error failure => rfl
    | panic => rfl

end Shared

/-! ## The engine -/

def Happening.inference : Happening → InferenceId
  | .submitted i _ _ => i
  | .ran _ i _ _ => i
  | .called i _ _ => i
  | .logged i _ => i
  | .ended i => i

def Happening.renumbered (n : InferenceId) : Happening → Happening
  | .submitted _ hop x => .submitted n hop x
  | .ran rid _ hop outcome => .ran rid n hop outcome
  | .called _ callback result => .called n callback result
  | .logged _ notice => .logged n notice
  | .ended _ => .ended n

def Task.numbered (own : List InferenceId) (t : Task) : Task := { t with inference := own.idxOf t.inference }

/-- Counting is no difference to a task. -/
def Executor.solo (own : List InferenceId) (rid : RequestId) (x : Executor Task) : Executor Task where
  name := x.name
  kind := if x.kind = .counting then .inline else x.kind
  queue := (x.queue.filter fun t => t.request = rid).map (·.numbered own)

namespace Engine

section

variable {σ : Type}

def own (e : Engine σ) (rid : RequestId) : List InferenceId :=
  (List.range e.started).filter fun i => (e.inferences i).request = rid

theorem mem_own {e : Engine σ} {rid : RequestId} {i : InferenceId} :
    i ∈ e.own rid ↔ i < e.started ∧ (e.inferences i).request = rid := by
  simp [own]

theorem nodup_own (e : Engine σ) (rid : RequestId) : (e.own rid).Nodup := List.nodup_range.filter _

theorem own_congr {e e' : Engine σ} (hrequest : ∀ i, (e'.inferences i).request = (e.inferences i).request)
    (hstarted : e'.started = e.started) (rid : RequestId) : e'.own rid = e.own rid := by
  simp only [own, hstarted, hrequest]

theorem own_setInference {e : Engine σ} {i : InferenceId} {inference : Inference}
    (hrequest : inference.request = (e.inferences i).request) (rid : RequestId) :
    (e.setInference i inference).own rid = e.own rid := by
  have hsame (j : InferenceId) : ((e.setInference i inference).inferences j).request = (e.inferences j).request := by
    simp only [setInference]
    split
    · rename_i hj
      rw [hj, hrequest]
    · rfl
  exact own_congr hsame rfl rid

theorem own_setPhase (e : Engine σ) (i : InferenceId) (phase : Phase) (rid : RequestId) :
    (e.setPhase i phase).own rid = e.own rid := own_congr (setPhase_request e i phase) rfl rid

theorem own_taken (e : Engine σ) (i : InferenceId) (rid : RequestId) : (e.taken i).own rid = e.own rid :=
  own_congr (taken_request e i) rfl rid

theorem own_moves {stages : RequestId → Stages σ} {c c' : Engine σ × Option Task} (h : Moves stages c c')
    (rid : RequestId) : c'.1.own rid = c.1.own rid := by
  induction h with
  | refl => rfl
  | tail _ hmove ih => exact (own_congr hmove.inferences.2 hmove.inferences.1 rid).trans ih

theorem own_infer (e : Engine σ) (who rid : RequestId) :
    (e.infer who).own rid = e.own rid ++ if who = rid then [e.started] else [] := by
  have hold : ∀ i ∈ List.range e.started,
      decide (((e.infer who).inferences i).request = rid) = decide ((e.inferences i).request = rid) := by
    intro i hi
    simp [infer, setInference, Nat.ne_of_lt (List.mem_range.mp hi)]
  have hnew : ((e.infer who).inferences e.started).request = who := by simp [infer, setInference]
  have hstarted : (e.infer who).started = e.started + 1 := rfl
  rw [own, hstarted, List.range_succ, List.filter_append, List.filter_congr hold, List.filter_singleton, hnew, own]
  by_cases hwho : who = rid <;> simp [hwho]

end

variable {e e' : Engine Shared} {rid : RequestId} {n : Nat} {i : InferenceId}

/-- What is left when every other request is taken away. -/
def solo (e : Engine Shared) (rid : RequestId) : Engine Solo where
  state := e.state.solo rid
  requests id := if id = rid then e.requests rid else {}
  inferences n := ((e.own rid)[n]?.map e.inferences).getD { request := rid }
  started := (e.own rid).length
  executors x := (e.executors x).solo (e.own rid) rid
  trace := (e.trace.filter fun h => h.inference ∈ e.own rid).map fun h =>
    h.renumbered ((e.own rid).idxOf h.inference)

theorem idxOf_own (h : (e.own rid)[n]? = some i) : (e.own rid).idxOf i = n := by
  obtain ⟨hn, rfl⟩ := List.getElem?_eq_some_iff.mp h
  exact (nodup_own e rid).idxOf_getElem n hn

theorem request_own (h : (e.own rid)[n]? = some i) : (e.inferences i).request = rid :=
  (mem_own.mp (List.mem_of_getElem? h)).2

theorem solo_inferences (h : (e.own rid)[n]? = some i) : (e.solo rid).inferences n = e.inferences i := by
  simp [solo, h]

theorem solo_request (h : (e.own rid)[n]? = some i) : ((e.solo rid).inferences n).request = rid := by
  rw [solo_inferences h, request_own h]

@[simp] theorem solo_requests (e : Engine Shared) (rid : RequestId) : (e.solo rid).requests rid = e.requests rid :=
  if_pos rfl

/-! ## Changes of its own -/

theorem solo_note (h : (e.own rid)[n]? = some i) {happening : Happening} (hof : happening.inference = i) :
    (e.note happening).solo rid = (e.solo rid).note (happening.renumbered n) := by
  have hsame : (e.note happening).own rid = e.own rid := rfl
  have hmem : happening.inference ∈ e.own rid := hof ▸ List.mem_of_getElem? h
  have hnumber : (e.own rid).idxOf happening.inference = n := by rw [hof, idxOf_own h]
  unfold solo
  rw [hsame]
  simp [note, List.filter_append, hmem, hnumber]

theorem solo_setRequest (e : Engine Shared) (r : AsyncRequest) :
    (e.setRequest rid r).solo rid = (e.solo rid).setRequest rid r := by
  have hrequests : (fun id => if id = rid then (e.setRequest rid r).requests rid else ({} : AsyncRequest)) =
      fun id => if id = rid then r else if id = rid then e.requests rid else {} := by
    funext id
    by_cases hid : id = rid <;> simp [hid, setRequest]
  unfold solo
  rw [hrequests]
  rfl

theorem solo_setInference (h : (e.own rid)[n]? = some i) {inference : Inference} (hrequest : inference.request = rid) :
    (e.setInference i inference).solo rid = (e.solo rid).setInference n inference := by
  have hown : (e.setInference i inference).own rid = e.own rid :=
    own_setInference (hrequest.trans (request_own h).symm) rid
  have hinferences : (fun m => ((e.own rid)[m]?.map (e.setInference i inference).inferences).getD { request := rid }) =
      ((e.solo rid).setInference n inference).inferences := by
    funext m
    simp only [setInference, solo]
    by_cases hm : m = n
    · subst hm
      simp [h]
    · rw [if_neg hm]
      cases hj : (e.own rid)[m]? with
      | none => rfl
      | some j =>
        have hne : j ≠ i := by
          rintro rfl
          have hlt := (List.getElem?_eq_some_iff.mp hj).1
          exact hm ((List.getElem?_inj hlt (nodup_own e rid)).mp (hj.trans h.symm))
        simp [hne]
  unfold solo
  rw [hown, hinferences]
  rfl

theorem solo_setExecutor (e : Engine Shared) (x : ExecutorId) (executor : Executor Task) :
    (e.setExecutor x executor).solo rid = (e.solo rid).setExecutor x (executor.solo (e.own rid) rid) := by
  have hexecutors : (fun y => ((e.setExecutor x executor).executors y).solo (e.own rid) rid) =
      ((e.solo rid).setExecutor x (executor.solo (e.own rid) rid)).executors := by
    funext y
    by_cases hy : y = x <;> simp [hy, setExecutor, solo]
  have hown : (e.setExecutor x executor).own rid = e.own rid := rfl
  unfold solo
  rw [hown, hexecutors]
  rfl

theorem solo_setExecutor_same {x : ExecutorId} {executor : Executor Task}
    (hsame : executor.solo (e.own rid) rid = (e.executors x).solo (e.own rid) rid) :
    (e.setExecutor x executor).solo rid = e.solo rid := by
  have hexecutors : (e.solo rid).executors =
      ((e.solo rid).setExecutor x (executor.solo (e.own rid) rid)).executors := by
    funext y
    by_cases hy : y = x <;> simp [hy, setExecutor, solo, hsame]
  rw [solo_setExecutor, setExecutor]
  simp only [setExecutor] at hexecutors
  rw [← hexecutors]

theorem solo_state (e : Engine Shared) (state : Shared) :
    ({ e with state } : Engine Shared).solo rid = { e.solo rid with state := state.solo rid } := rfl

theorem solo_setPhase (h : (e.own rid)[n]? = some i) (phase : Phase) :
    (e.setPhase i phase).solo rid = (e.solo rid).setPhase n phase := by
  have hrequest : ({ e.inferences i with phase } : Inference).request = rid := request_own h
  unfold setPhase
  rw [solo_setInference h hrequest, solo_inferences h]

end Engine

end DevicePlugin
