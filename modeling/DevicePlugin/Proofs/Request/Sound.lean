import DevicePlugin.Proofs.Request.Moves
import Mathlib.Data.List.Nodup

/-!
# Tasks on their way

Every task that is kept anywhere belongs to an inference of its request. That
inference waits for this very task, or was cancelled or given up and will not hear
of it; and no inference has two tasks on their way.
-/

namespace DevicePlugin

def Phase.Owes (hop : Hop) (phase : Phase) : Prop :=
  phase = .awaiting hop .waiting ∨ phase = .settled (.error .cancelled) ∨ phase = .abandoned

namespace Engine

variable {σ : Type}

def Holds (e : Engine σ) (hand : Option Task) (t : Task) : Prop :=
  hand = some t ∨ ∃ x, t ∈ (e.executors x).queue

theorem holds_none {e : Engine σ} {t : Task} : e.Holds none t ↔ ∃ x, t ∈ (e.executors x).queue := by
  simp [Holds]

theorem mem_queue_setExecutor {e : Engine σ} {x y : ExecutorId} {queue : List Task} {t : Task} :
    t ∈ ((e.setExecutor x { e.executors x with queue }).executors y).queue ↔
      y = x ∧ t ∈ queue ∨ y ≠ x ∧ t ∈ (e.executors y).queue := by
  simp only [setExecutor]
  by_cases h : y = x
  · simp [h]
  · simp [h]

theorem holds_of_alike {e e' : Engine σ} {hand : Option Task} {t : Task} (h : Alike e e')
    (ht : e'.Holds hand t) : e.Holds hand t := by
  simp only [Holds, h.queue] at ht
  exact ht

theorem holds_of_answer {e : Engine σ} {t t' : Task} {reply : Reply} {hand : Option Task}
    (ht' : (e.answer t reply).Holds hand t') : e.Holds hand t' := by
  rw [answer_eq] at ht'
  exact ht'

theorem takeTask_eq {e rest : Engine σ} {x : ExecutorId} {position : Nat} {t : Task}
    (h : e.takeTask x position = some (t, rest)) :
    t ∈ (e.executors x).queue ∧ ∃ executor, rest = e.setExecutor x executor := by
  unfold takeTask at h
  obtain ⟨t', ht, heq⟩ := Option.map_eq_some_iff.mp h
  cases heq
  exact ⟨List.mem_of_getElem? ht, _, rfl⟩

theorem mem_queue_take {e e' : Engine σ} {x y : ExecutorId} {position : Nat} {t t' : Task}
    (htake : e.takeTask x position = some (t, e')) (ht' : t' ∈ (e'.executors y).queue) :
    t' ∈ (e.executors y).queue := by
  unfold takeTask at htake
  obtain ⟨_, -, heq⟩ := Option.map_eq_some_iff.mp htake
  cases heq
  rw [mem_queue_setExecutor] at ht'
  rcases ht' with ⟨rfl, ht'⟩ | ⟨-, ht'⟩
  · exact List.mem_of_mem_eraseIdx ht'
  · exact ht'

theorem holds_of_take {e e' : Engine σ} {x : ExecutorId} {position : Nat} {t t' : Task}
    (htake : e.takeTask x position = some (t, e')) (ht' : e'.Holds (some t) t') : e.Holds none t' := by
  rcases ht' with ht' | ⟨y, ht'⟩
  · cases ht'
    exact .inr ⟨x, (takeTask_eq htake).1⟩
  · exact .inr ⟨y, mem_queue_take htake ht'⟩

theorem mem_queue_queued {e : Engine σ} {x : ExecutorId} {t t' : Task}
    (ht' : t' ∈ ((e.queued t).executors x).queue) :
    t' ∈ (e.executors x).queue ∨ t' = t ∧ x = e.home t := by
  unfold queued at ht'
  rw [mem_queue_setExecutor, List.mem_append, List.mem_singleton] at ht'
  rcases ht' with ⟨hx, ht' | ht'⟩ | ⟨-, ht'⟩
  · exact .inl (hx ▸ ht')
  · exact .inr ⟨ht', hx⟩
  · exact .inl ht'

theorem holds_of_queued {e : Engine σ} {t t' : Task} (ht' : (e.queued t).Holds none t') :
    e.Holds (some t) t' := by
  obtain ⟨x, ht'⟩ := holds_none.mp ht'
  rcases mem_queue_queued ht' with ht' | ⟨rfl, -⟩
  · exact .inr ⟨x, ht'⟩
  · exact .inl rfl

structure Sound (e : Engine σ) (hand : Option Task) : Prop where
  /-- The token in use is not tripped, nor are those to come. -/
  tripped : ∀ rid, ∀ token ∈ (e.requests rid).tripped, token < (e.requests rid).token
  known : ∀ t, e.Holds hand t → t.inference < e.started
  owned : ∀ t, e.Holds hand t → t.request = (e.inferences t.inference).request
  owed : ∀ t, e.Holds hand t → (e.inferences t.inference).phase.Owes t.work.hop
  nodup : ∀ x, ((e.executors x).queue.map Task.inference).Nodup
  apart : ∀ x y t t', t ∈ (e.executors x).queue → t' ∈ (e.executors y).queue →
    t.inference = t'.inference → x = y
  single : ∀ t, hand = some t → ∀ x, ∀ t' ∈ (e.executors x).queue, t'.inference ≠ t.inference

namespace Sound

variable {e e' : Engine σ} {hand : Option Task}

theorem token_fresh (h : Sound e hand) (rid : RequestId) :
    (e.requests rid).token ∉ (e.requests rid).tripped :=
  fun hmem => Nat.lt_irrefl _ (h.tripped rid _ hmem)

theorem congr (h : Sound e hand) (hstarted : e'.started = e.started)
    (hphase : ∀ i, (e'.inferences i).phase = (e.inferences i).phase)
    (hrequest : ∀ i, (e'.inferences i).request = (e.inferences i).request)
    (hqueue : ∀ x, (e'.executors x).queue = (e.executors x).queue)
    (htoken : ∀ rid, (e'.requests rid).token = (e.requests rid).token)
    (htripped : ∀ rid, (e'.requests rid).tripped = (e.requests rid).tripped) : Sound e' hand where
  tripped rid := by
    rw [htripped, htoken]
    exact h.tripped rid
  known t ht := by
    simp only [Holds, hqueue] at ht
    rw [hstarted]
    exact h.known t ht
  owned t ht := by
    simp only [Holds, hqueue] at ht
    rw [hrequest]
    exact h.owned t ht
  owed t ht := by
    simp only [Holds, hqueue] at ht
    rw [hphase]
    exact h.owed t ht
  nodup x := by
    rw [hqueue]
    exact h.nodup x
  apart x y := by
    rw [hqueue, hqueue]
    exact h.apart x y
  single t ht x := by
    rw [hqueue]
    exact h.single t ht x

theorem alike (h : Sound e hand) (halike : Alike e e') : Sound e' hand :=
  h.congr halike.started (fun i => by rw [halike.inferences]) (fun i => by rw [halike.inferences])
    halike.queue halike.token halike.tripped

/-- An inference may go into any phase in which it owes what it has on its way. -/
theorem setPhase (h : Sound e hand) {id : InferenceId} {phase : Phase}
    (howed : ∀ t, e.Holds hand t → t.inference = id → phase.Owes t.work.hop) :
    Sound (e.setPhase id phase) hand where
  tripped := h.tripped
  known := h.known
  owned t ht := by
    rw [setPhase_inferences]
    split
    · rename_i hid
      rw [← hid]
      exact h.owned t ht
    · exact h.owned t ht
  owed t ht := by
    rw [setPhase_inferences]
    split
    · rename_i hid
      exact howed t ht hid
    · exact h.owed t ht
  nodup := h.nodup
  apart := h.apart
  single := h.single

theorem inference_ne_of_created (h : Sound e hand) {id : InferenceId}
    (hphase : (e.inferences id).phase = .created) {t : Task} (ht : e.Holds hand t) : t.inference ≠ id := by
  rintro rfl
  have howed := h.owed t ht
  rw [hphase] at howed
  rcases howed with howed | howed | howed <;> cases howed

theorem inference_ne_of_answered (h : Sound e hand) {id : InferenceId} {hop : Hop} {reply : Reply}
    (hphase : (e.inferences id).phase = .awaiting hop reply) (hreply : reply ≠ .waiting) {t : Task}
    (ht : e.Holds hand t) : t.inference ≠ id := by
  rintro rfl
  have howed := h.owed t ht
  rw [hphase] at howed
  rcases howed with howed | howed | howed <;> cases howed
  exact hreply rfl

/-- A task leaves the hand when its inference is told. -/
theorem answer {t : Task} (h : Sound e (some t)) (reply : Reply) : Sound (e.answer t reply) none := by
  rw [answer_eq]
  have hnone : Sound e none :=
    { h with
      known := fun t' ht => h.known t' (.inr (holds_none.mp ht))
      owned := fun t' ht => h.owned t' (.inr (holds_none.mp ht))
      owed := fun t' ht => h.owed t' (.inr (holds_none.mp ht))
      single := fun t' ht => nomatch ht }
  refine hnone.setPhase fun t' ht hid => ?_
  obtain ⟨x, hx⟩ := holds_none.mp ht
  exact absurd hid (h.single t rfl x t' hx)

theorem take {x : ExecutorId} {position : Nat} {t : Task} (h : Sound e none)
    (htake : e.takeTask x position = some (t, e')) : Sound e' (some t) := by
  have hstill {y : ExecutorId} {t' : Task} (ht' : t' ∈ (e'.executors y).queue) :
      t' ∈ (e.executors y).queue := mem_queue_take htake ht'
  have hheld {t' : Task} (ht' : e'.Holds (some t) t') : e.Holds none t' := holds_of_take htake ht'
  unfold takeTask at htake
  obtain ⟨t', ht, heq⟩ := Option.map_eq_some_iff.mp htake
  cases heq
  have hmem : t ∈ (e.executors x).queue := List.mem_of_getElem? ht
  exact
    { tripped := h.tripped
      known := fun t' ht' => h.known t' (hheld ht')
      owned := fun t' ht' => h.owned t' (hheld ht')
      owed := fun t' ht' => h.owed t' (hheld ht')
      nodup := by
        intro y
        simp only [setExecutor]
        split
        · exact (h.nodup x).sublist ((List.eraseIdx_sublist _ _).map _)
        · exact h.nodup y
      apart := fun y z t' t'' ht' ht'' => h.apart y z t' t'' (hstill ht') (hstill ht'')
      single := by
        intro t' ht' y t'' ht''
        cases ht'
        intro heq
        -- A second task of the inference could only be in the same queue, at the same position.
        have hyx : y = x := h.apart y x t'' t (hstill ht'') hmem heq
        subst hyx
        rw [mem_queue_setExecutor] at ht''
        obtain ⟨i, hi, hget⟩ := List.mem_eraseIdx_iff_getElem?.mp (ht''.resolve_right (fun h' => h'.1 rfl)).2
        have hlt : position < ((e.executors y).queue.map Task.inference).length := by
          rw [List.length_map]
          exact (List.getElem?_eq_some_iff.mp ht).1
        refine hi ((List.getElem?_inj hlt (h.nodup y)).mp ?_).symm
        rw [List.getElem?_map, List.getElem?_map, ht, hget, Option.map_some, Option.map_some, heq] }

theorem queued {t : Task} (h : Sound e (some t)) : Sound (e.queued t) none where
  tripped := h.tripped
  known t' ht' := h.known t' (holds_of_queued ht')
  owned t' ht' := h.owned t' (holds_of_queued ht')
  owed t' ht' := h.owed t' (holds_of_queued ht')
  nodup := by
    intro x
    simp only [Engine.queued, setExecutor]
    split
    · rw [List.map_append, List.map_singleton]
      refine List.nodup_append.mpr ⟨h.nodup _, List.nodup_singleton _, ?_⟩
      intro i hi j hj
      obtain ⟨t', ht', rfl⟩ := List.mem_map.mp hi
      rw [List.mem_singleton.mp hj]
      exact h.single t rfl _ t' ht'
    · exact h.nodup x
  apart := by
    intro x y t' t'' ht' ht'' heq
    rcases mem_queue_queued ht' with hold | ⟨rfl, rfl⟩ <;>
      rcases mem_queue_queued ht'' with hold' | ⟨rfl, rfl⟩
    · exact h.apart x y t' t'' hold hold' heq
    · exact absurd heq (h.single _ rfl x t' hold)
    · exact absurd heq.symm (h.single _ rfl y t'' hold')
    · rfl
  single := fun t' ht' => nomatch ht'

/-- An inference that has nothing on its way may let go of a task. -/
theorem handed (h : Sound e none) {id : InferenceId} (hid : id < e.started)
    (hnone : ∀ t, e.Holds none t → t.inference ≠ id) (work : Work) :
    Sound (e.handed id work) (some (e.task id work)) := by
  have hphase : Sound (e.setPhase id (.awaiting work.hop .waiting)) none :=
    h.setPhase fun t ht hid => absurd hid (hnone t ht)
  have hnew : ((e.handed id work).inferences id).phase = .awaiting work.hop .waiting := by
    simp [Engine.handed, note]
  exact
    { tripped := h.tripped
      known := by
        rintro t (ht | ht)
        · cases ht
          exact hid
        · exact hphase.known t (.inr ht)
      owned := by
        rintro t (ht | ht)
        · cases ht
          simp [task, Engine.handed, note]
        · exact hphase.owned t (.inr ht)
      owed := by
        rintro t (ht | ht)
        · cases ht
          exact .inl hnew
        · exact hphase.owed t (.inr ht)
      nodup := h.nodup
      apart := h.apart
      single := by
        intro t ht x t' ht'
        cases ht
        exact hnone t' (.inr ⟨x, ht'⟩) }

theorem finish (h : Sound e hand) {id : InferenceId} {phase : Phase}
    (howed : ∀ t, e.Holds hand t → t.inference = id → phase.Owes t.work.hop) :
    Sound (e.finish id phase) hand := by
  have hended : Sound (e.setPhase id phase) hand := h.setPhase howed
  refine hended.congr rfl (fun _ => rfl) (fun _ => rfl) (fun _ => rfl) ?_ ?_ <;>
  · intro rid
    simp only [Engine.finish, note, setRequest, Engine.setPhase, setInference]
    split
    · rename_i hrid
      rw [hrid]
    · rfl

theorem concludes_awaiting {id : InferenceId} {result : InferResult} (h : e.Concludes id result) :
    ∃ hop reply, reply ≠ .waiting ∧ (e.inferences id).phase = .awaiting hop reply := by
  cases h with
  | start failure h => exact ⟨_, _, by simp, h⟩
  | finish result h => exact ⟨_, _, by simp, h⟩
  | dropped hop hhop h executor => exact ⟨_, _, by simp, h⟩

theorem due_awaiting {id : InferenceId} {work : Work} (h : e.Due id work) :
    ∃ hop reply, reply ≠ .waiting ∧ (e.inferences id).phase = .awaiting hop reply := by
  cases h with
  | finish h => exact ⟨_, _, by simp, h⟩
  | notify callback result h hresult hcallback => exact concludes_awaiting h

/-- Only a cancelled inference settles while it waits. -/
theorem settles_awaiting {id : InferenceId} {result : InferResult} {notice : Option Notice}
    (h : e.Settles id result notice) :
    result = .error .cancelled ∨
      ∃ hop reply, reply ≠ .waiting ∧ (e.inferences id).phase = .awaiting hop reply := by
  cases h with
  | cancelled hop reply hhop h htripped executor => exact .inl rfl
  | gaveUp h executor => exact .inl rfl
  | unheard _ h hresult hcallback => exact .inr (concludes_awaiting h)
  | uncalled result callback h hresult hcallback htripped => exact .inl rfl
  | told _ h => exact .inr ⟨_, _, by simp, h⟩
  | untold h executor => exact .inr ⟨_, _, by simp, h⟩
  | unawaited reply h htripped => exact .inl rfl

theorem move {stages : RequestId → Stages σ} {c c' : Engine σ × Option Task} (hm : Move stages c c')
    (h : Sound c.1 c.2) : Sound c'.1 c'.2 := by
  cases hm with
  | take htake => exact h.take htake
  | queue _ => exact h.queued
  | count => exact h.alike (alike_count _ _ _)
  | lose _ => exact h.answer .dropped
  | @run e t =>
    obtain ⟨e', reply, halike, -, heq, -⟩ := runTask_answers stages e t
    simp only [heq]
    exact (h.alike halike).answer reply
  | busy hid hphase hflight =>
    exact (h.setPhase fun t ht hid => absurd hid (h.inference_ne_of_created hphase ht)).alike (alike_note _ _)
  | @begin e id hid hphase hflight =>
    have htaken : Sound (e.taken id) none := by
      refine h.congr rfl ?_ ?_ (fun _ => rfl) ?_ ?_ <;>
      · intro i
        simp only [taken, setRequest, setInference]
        split
        · rename_i hi
          rw [hi]
        · rfl
    have htask : (e.taken id).task id .start = e.task id .start := by
      simp [task, taken, setRequest, setInference]
    have hsound := htaken.handed hid (fun t ht => h.inference_ne_of_created hphase ht) .start
    rwa [htask] at hsound
  | hand hid hdue htripped =>
    obtain ⟨hop, reply, hreply, hphase⟩ := due_awaiting hdue
    exact h.handed hid (fun t ht => h.inference_ne_of_answered hphase hreply ht) _
  | @settle e id result notice hid hsettles =>
    have hlogged : Sound (e.logged id notice) none := by
      cases notice with
      | none => exact h
      | some notice => exact h.alike (alike_note _ _)
    refine hlogged.finish fun t ht hid => ?_
    have ht' : e.Holds none t := by cases notice <;> exact ht
    -- A task may stay on its way only when the inference is cancelled.
    rcases settles_awaiting hsettles with rfl | ⟨hop, reply, hreply, hphase⟩
    · exact .inr (.inl rfl)
    · exact absurd hid (h.inference_ne_of_answered hphase hreply ht')
  | breakOff hid hphase =>
    exact h.finish fun t ht hid => absurd hid (h.inference_ne_of_answered hphase (by simp) ht)

theorem moves {stages : RequestId → Stages σ} {c c' : Engine σ × Option Task} (hm : Moves stages c c')
    (h : Sound c.1 c.2) : Sound c'.1 c'.2 := by
  induction hm with
  | refl => exact h
  | tail _ hmove ih => exact ih.move hmove

theorem infer (h : Sound e none) (rid : RequestId) : Sound (e.infer rid) none := by
  have hold {t : Task} (ht : e.Holds none t) : t.inference ≠ e.started := Nat.ne_of_lt (h.known t ht)
  exact
    { tripped := h.tripped
      known := fun t ht => Nat.lt_succ_of_lt (h.known t ht)
      owned := by
        intro t ht
        simp only [Engine.infer, setInference, if_neg (hold ht)]
        exact h.owned t ht
      owed := by
        intro t ht
        simp only [Engine.infer, setInference, if_neg (hold ht)]
        exact h.owed t ht
      nodup := h.nodup
      apart := h.apart
      single := h.single }

theorem cancel (h : Sound e none) (rid : RequestId) : Sound (e.cancel rid) none :=
  { h with
    tripped := by
      intro rid' token htoken
      simp only [Engine.cancel, setRequest] at htoken ⊢
      split at htoken
      · rename_i hrid
        rw [if_pos hrid]
        rcases List.mem_cons.mp htoken with rfl | hmem
        · exact Nat.lt_succ_self _
        · exact Nat.lt_succ_of_lt (h.tripped rid token hmem)
      · rename_i hrid
        rw [if_neg hrid]
        exact h.tripped rid' token htoken }

theorem abandon (h : Sound e none) (id : InferenceId) : Sound (e.abandon id) none := by
  unfold Engine.abandon
  split
  · exact (h.setPhase fun _ _ _ => .inr (.inr rfl)).alike (alike_note _ _)
  · exact h.finish fun _ _ _ => .inr (.inr rfl)
  · exact h

theorem dropQueued (h : Sound e none) (x : ExecutorId) (position : Nat) :
    Sound (e.dropQueued x position) none := by
  unfold Engine.dropQueued
  split
  · exact h
  · rename_i t e' htake
    exact (h.take htake).answer .dropped

theorem setCallback (h : Sound e none) (rid : RequestId) (callback : Callback) :
    Sound (e.setCallback rid callback) none := by
  refine h.congr rfl (fun _ => rfl) (fun _ => rfl) (fun _ => rfl) ?_ ?_ <;>
  · intro i
    simp only [Engine.setCallback, setRequest]
    split
    · rename_i hi
      rw [hi]
    · rfl

theorem step (h : Sound e none) (stages : RequestId → Stages σ) (s : Step σ) :
    Sound (e.step stages s) none := by
  cases s with
  | infer rid => exact h.infer rid
  | poll id preferReply =>
    simp only [Engine.step]
    split
    · rename_i hid
      exact moves (poll_moves stages hid (h.token_fresh _) preferReply) h
    · exact h
  | abandon id =>
    simp only [Engine.step]
    split
    · exact h.abandon id
    · exact h
  | cancel rid => exact h.cancel rid
  | setCallback rid callback => exact h.setCallback rid callback
  | runQueued x position => exact moves (runQueued_moves stages e x position) h
  | dropQueued x position => exact h.dropQueued x position
  | access rid change =>
    simp only [Engine.step, access]
    split
    · exact h
    · exact h.congr rfl (fun _ => rfl) (fun _ => rfl) (fun _ => rfl) (fun _ => rfl) (fun _ => rfl)

theorem steps (h : Sound e none) (stages : RequestId → Stages σ) (history : List (Step σ)) :
    Sound (e.steps stages history) none := by
  induction history generalizing e with
  | nil => exact h
  | cons s history ih => exact ih (h.step stages s)

end Sound

/-! ## Reachable engines -/

structure IsNew (e : Engine σ) : Prop where
  started : e.started = 0
  queue : ∀ x, (e.executors x).queue = []
  tripped : ∀ rid, (e.requests rid).tripped = []
  inFlight : ∀ rid, (e.requests rid).inFlight = false
  poisoned : ∀ rid, (e.requests rid).poisoned = false

def Reachable (stages : RequestId → Stages σ) (e : Engine σ) : Prop :=
  ∃ (start : Engine σ) (history : List (Step σ)), IsNew start ∧ start.steps stages history = e

theorem Reachable.steps {stages : RequestId → Stages σ} {e : Engine σ} (h : Reachable stages e)
    (history : List (Step σ)) : Reachable stages (e.steps stages history) := by
  obtain ⟨start, before, hnew, rfl⟩ := h
  refine ⟨start, before ++ history, hnew, ?_⟩
  unfold Engine.steps
  rw [List.foldl_append]

theorem IsNew.sound {e : Engine σ} (h : IsNew e) : Sound e none := by
  have hnone {t : Task} (ht : e.Holds none t) : False := by
    obtain ⟨x, ht⟩ := holds_none.mp ht
    rw [h.queue] at ht
    cases ht
  exact
    { tripped := fun rid token ht => by rw [h.tripped] at ht; cases ht
      known := fun t ht => (hnone ht).elim
      owned := fun t ht => (hnone ht).elim
      owed := fun t ht => (hnone ht).elim
      nodup := fun x => by rw [h.queue]; exact List.nodup_nil
      apart := fun x y t t' ht => (hnone (.inr ⟨x, ht⟩)).elim
      single := fun t ht => nomatch ht }

theorem Reachable.sound {stages : RequestId → Stages σ} {e : Engine σ} (h : Reachable stages e) :
    Sound e none := by
  obtain ⟨start, history, hnew, rfl⟩ := h
  exact hnew.sound.steps stages history

end Engine

end DevicePlugin
