import DevicePlugin.Proofs.Request.Moves
import DevicePlugin.Proofs.Request.Stages

/-!
# What does not touch a request

Only running a task of a request touches it, its executors and its backend. All
other moves of an engine, tasks of other requests among them, leave it alone.
-/

namespace DevicePlugin

namespace Engine

def runsOn (rid : RequestId) (window : List Happening) : List (InferenceId × Hop) :=
  window.filterMap fun
    | .ran request inference hop _ => if request = rid then some (inference, hop) else none
    | _ => none

theorem runsOn_append (rid : RequestId) (window more : List Happening) :
    runsOn rid (window ++ more) = runsOn rid window ++ runsOn rid more :=
  List.filterMap_append

structure Kept (rid : RequestId) (e e' : Engine Shared) : Prop where
  request : e'.state.requests rid = e.state.requests rid
  backend : ∀ p, (e'.state.devices p).map Device.backend = (e.state.devices p).map Device.backend
  poisoned : (e'.requests rid).poisoned = (e.requests rid).poisoned
  callback : (e'.requests rid).callback = (e.requests rid).callback
  executor : ∀ hop, (e'.requests rid).executor hop = (e.requests rid).executor hop
  kind : ∀ x, (e'.executors x).kind = (e.executors x).kind
  trace : ∃ more, e'.trace = e.trace ++ more ∧ runsOn rid more = []

variable {rid : RequestId} {e e' e'' : Engine Shared}

theorem Kept.refl (rid : RequestId) (e : Engine Shared) : Kept rid e e :=
  ⟨rfl, fun _ => rfl, rfl, rfl, fun _ => rfl, fun _ => rfl, [], by simp, rfl⟩

theorem Kept.trans (h : Kept rid e e') (h' : Kept rid e' e'') : Kept rid e e'' where
  request := h'.request.trans h.request
  backend p := (h'.backend p).trans (h.backend p)
  poisoned := h'.poisoned.trans h.poisoned
  callback := h'.callback.trans h.callback
  executor hop := (h'.executor hop).trans (h.executor hop)
  kind x := (h'.kind x).trans (h.kind x)
  trace := by
    obtain ⟨more, htrace, hmore⟩ := h.trace
    obtain ⟨more', htrace', hmore'⟩ := h'.trace
    refine ⟨more ++ more', ?_, ?_⟩
    · rw [htrace', htrace, List.append_assoc]
    · rw [runsOn_append, hmore, hmore', List.append_nil]

theorem kept_note (e : Engine Shared) {h : Happening} (hnot : runsOn rid [h] = []) : Kept rid e (e.note h) :=
  { Kept.refl rid e with trace := ⟨[h], rfl, hnot⟩ }

theorem kept_setInference (e : Engine Shared) (id : InferenceId) (i : Inference) :
    Kept rid e (e.setInference id i) :=
  { Kept.refl rid e with }

theorem kept_setExecutor (e : Engine Shared) (x : ExecutorId) {executor : Executor Task}
    (hkind : executor.kind = (e.executors x).kind) : Kept rid e (e.setExecutor x executor) :=
  { Kept.refl rid e with
    kind := by
      intro y
      simp only [setExecutor]
      split
      · rename_i hy
        rw [hy, hkind]
      · rfl }

theorem kept_setRequest (e : Engine Shared) (id : RequestId) {r : AsyncRequest}
    (hpoisoned : id = rid → r.poisoned = (e.requests id).poisoned)
    (hcallback : r.callback = (e.requests id).callback)
    (hexecutor : ∀ hop, r.executor hop = (e.requests id).executor hop) : Kept rid e (e.setRequest id r) := by
  refine { Kept.refl rid e with poisoned := ?_, callback := ?_, executor := ?_ }
  · simp only [setRequest]
    split
    · rename_i hid
      rw [hpoisoned hid.symm, hid]
    · rfl
  · simp only [setRequest]
    split
    · rename_i hid
      rw [hcallback, hid]
    · rfl
  · intro hop
    simp only [setRequest]
    split
    · rename_i hid
      rw [hexecutor, hid]
    · rfl

theorem kept_answer (e : Engine Shared) (t : Task) (reply : Reply) : Kept rid e (e.answer t reply) := by
  rw [answer_eq]
  exact kept_setInference e _ _

theorem kept_finish (e : Engine Shared) (id : InferenceId) (phase : Phase) : Kept rid e (e.finish id phase) := by
  have hphase : Kept rid e (e.setPhase id phase) := kept_setInference e _ _
  refine (hphase.trans (kept_setRequest _ _ ?_ ?_ ?_)).trans (kept_note _ rfl)
  · exact fun _ => rfl
  · rfl
  · intro hop
    cases hop <;> rfl

theorem kept_logged (e : Engine Shared) (id : InferenceId) (notice : Option Notice) :
    Kept rid e (e.logged id notice) := by
  cases notice with
  | none => exact Kept.refl rid e
  | some notice => exact kept_note e rfl

theorem kept_take {x : ExecutorId} {position : Nat} {t : Task} (h : e.takeTask x position = some (t, e')) :
    Kept rid e e' := by
  unfold takeTask at h
  obtain ⟨_, -, heq⟩ := Option.map_eq_some_iff.mp h
  cases heq
  exact kept_setExecutor e x rfl

theorem kept_runTask_other (e : Engine Shared) {t : Task} (ht : t.request ≠ rid) :
    Kept rid e (e.runTask Shared.stages t).1 := by
  have hstages (order : List InferStage) :
      Kept rid e (runStages (Shared.stages t.request) order e t).1 := by
    cases hpoisoned : (e.requests t.request).poisoned with
    | true =>
      rw [runStages_poisoned _ _ hpoisoned]
      exact kept_answer e _ _
    | false =>
      obtain ⟨hrequests, hbackends⟩ := Shared.runEach_frame t.request order e.state
      generalize hrun : (Shared.stages t.request).runEach order e.state = run at hrequests hbackends
      obtain ⟨outcome, state⟩ := run
      rw [runStages_eq _ _ hpoisoned hrun]
      have hstate : Kept rid e { e with state } :=
        { Kept.refl rid e with request := hrequests rid (Ne.symm ht), backend := hbackends }
      have hnote : runsOn rid [.ran t.request t.inference t.work.hop outcome] = [] := by
        simp [runsOn, ht]
      refine ((hstate.trans (kept_note _ hnote)).trans ?_).trans (kept_answer _ _ _)
      cases outcome with
      | ok value => exact Kept.refl _ _
      | error failure => exact Kept.refl _ _
      | panic =>
        refine kept_setRequest _ _ (fun h => absurd h ht) rfl ?_
        intro hop
        cases hop <;> rfl
  unfold runTask
  split
  · exact hstages _
  · exact hstages _
  · simp only
    split
    · exact (kept_note e rfl).trans (kept_answer _ _ _)
    · exact (kept_note e rfl).trans (kept_answer _ _ _)

theorem kept_taken (e : Engine Shared) (id : InferenceId) : Kept rid e (e.taken id) := by
  refine (kept_setRequest e _ ?_ ?_ ?_).trans (kept_setInference _ _ _)
  · exact fun _ => rfl
  · rfl
  · intro hop
    cases hop <;> rfl

theorem kept_handed (e : Engine Shared) (id : InferenceId) (work : Work) : Kept rid e (e.handed id work) :=
  (kept_setInference e _ _).trans (kept_note _ rfl)

theorem kept_cancel (e : Engine Shared) (id : RequestId) : Kept rid e (e.cancel id) := by
  refine kept_setRequest e _ ?_ ?_ ?_
  · exact fun _ => rfl
  · rfl
  · intro hop
    cases hop <;> rfl

/-- Every move but the run of a task of the request. -/
theorem Move.kept {c c' : Engine Shared × Option Task} (h : Move Shared.stages c c') (rid : RequestId) :
    Kept rid c.1 c'.1 ∨ ∃ t, c.2 = some t ∧ t.request = rid ∧ c'.1 = (c.1.runTask Shared.stages t).1 := by
  cases h with
  | take htake => exact .inl (kept_take htake)
  | queue _ => exact .inl (kept_setExecutor _ _ rfl)
  | count => exact .inl (kept_setExecutor _ _ rfl)
  | lose _ => exact .inl (kept_answer _ _ _)
  | @run e t =>
    by_cases ht : t.request = rid
    · exact .inr ⟨t, rfl, ht, rfl⟩
    · exact .inl (kept_runTask_other e ht)
  | busy _ _ _ => exact .inl ((kept_setInference _ _ _).trans (kept_note _ rfl))
  | begin _ _ _ => exact .inl ((kept_taken _ _).trans (kept_handed _ _ _))
  | hand _ _ _ => exact .inl (kept_handed _ _ _)
  | settle _ _ => exact .inl ((kept_logged _ _ _).trans (kept_finish _ _ _))
  | breakOff _ _ => exact .inl (kept_finish _ _ _)

end Engine

end DevicePlugin
