import DevicePlugin.Proofs.Request.Acts
import DevicePlugin.Proofs.Request.Own
import DevicePlugin.Proofs.Request.Unseen
import Mathlib.Data.List.InsertIdx

/-!
# Requests do not interfere

Of two engines in which the same is left of a request, neither can be told from the
other by acts on that request, and acts on other requests change nothing of it. So all
that is observed on a request, whatever is done with the others, is observed as well
when nothing is done with them.
-/

namespace DevicePlugin

namespace Engine

open Shared (stages)

/-! ## What is observed -/

inductive Observed where
  | told (answer : Outcome Failure Session.Answer)
  /-- What happened to an inference, and the phase that it is left in. -/
  | happened (what : Happening) (phase : Phase)

def cleared {σ : Type} (e : Engine σ) : Engine σ := { e with trace := [] }

def observed (e : Engine Shared) (rid : RequestId) : List Observed :=
  (e.solo rid).trace.map fun h => .happened h ((e.solo rid).inferences h.inference).phase

/-- All that is observed on a request while a history of acts on all requests goes on. -/
def reports (e : Engine Shared) (rid : RequestId) : List (RequestId × Act) → List Observed
  | [] => []
  | (who, a) :: history =>
    match e.cleared.act who a with
    | (answer, e) => (if who = rid then [.told answer] else []) ++ e.observed rid ++ e.reports rid history

variable {e d : Engine Shared} {rid who : RequestId}

/-! ## Taking a task -/

theorem filter_eraseIdx {queue : List Task} {p : Nat} {t : Task} (h : queue[p]? = some t) (ht : t.request ≠ rid) :
    (queue.eraseIdx p).filter (fun t => t.request = rid) = queue.filter fun t => t.request = rid := by
  induction queue generalizing p with
  | nil => rfl
  | cons first rest ih =>
    cases p with
    | zero =>
      cases h
      simp [ht]
    | succ p =>
      have hrest := ih (by simpa using h)
      simp [List.filter_cons, hrest]

theorem solo_takeTask (hs : Sound e none) {x : ExecutorId} {n p : Nat}
    (hp : (places rid (e.executors x).queue)[n]? = some p) :
    ∃ i m work rest, e.takeTask x p = some (⟨rid, i, work⟩, rest) ∧ (rest.own rid)[m]? = some i ∧
      rest.state = e.state ∧ (e.solo rid).takeTask x n = some (⟨rid, m, work⟩, rest.solo rid) := by
  obtain ⟨i, work, hget, hget', herase⟩ := places_spec hp
  have hmem : i ∈ e.own rid := hs.queued_own (List.mem_of_getElem? hget)
  let rest := e.setExecutor x { e.executors x with queue := (e.executors x).queue.eraseIdx p }
  refine ⟨i, (e.own rid).idxOf i, work, rest, ?_, List.getElem?_idxOf hmem, rfl, ?_⟩
  · simp only [takeTask, hget, Option.map_some, rest]
  · have hqueue : ((e.solo rid).executors x).queue[n]? = some ⟨rid, (e.own rid).idxOf i, work⟩ := by
      simp [solo, Executor.solo, hget', Task.numbered]
    have hrest : rest.solo rid = (e.solo rid).setExecutor x
        { (e.solo rid).executors x with queue := ((e.solo rid).executors x).queue.eraseIdx n } := by
      rw [solo_setExecutor]
      congr 1
      simp only [Executor.solo, solo, herase, List.eraseIdx_map]
    simp only [takeTask, hqueue, Option.map_some, hrest]

/-! ## Acts of others -/

theorem unseen_takeTask {x : ExecutorId} {p : Nat} {t : Task} {rest : Engine Shared}
    (htake : e.takeTask x p = some (t, rest)) (ht : t.request ≠ rid) : Unseen rid t.inference e rest := by
  unfold takeTask at htake
  obtain ⟨t', hget, heq⟩ := Option.map_eq_some_iff.mp htake
  cases heq
  refine unseen_setExecutor e ?_
  simp only [Executor.solo, filter_eraseIdx hget ht]

theorem solo_infer_other (e : Engine Shared) (hwho : who ≠ rid) : (e.infer who).solo rid = e.solo rid := by
  have hown : (e.infer who).own rid = e.own rid := by rw [own_infer, if_neg hwho, List.append_nil]
  have hinferences (n : Nat) : (e.own rid)[n]?.map (e.infer who).inferences = (e.own rid)[n]?.map e.inferences := by
    cases hi : (e.own rid)[n]? with
    | none => rfl
    | some i =>
      have hlt := (mem_own.mp (List.mem_of_getElem? hi)).1
      simp [infer, setInference, Nat.ne_of_lt hlt]
  unfold solo
  simp only [hown, hinferences]
  rfl

/-- A request does not see what is done with another one. -/
theorem act_unseen (hs : Sound e none) (hwho : who ≠ rid) (a : Act) : (e.act who a).2.solo rid = e.solo rid := by
  cases a with
  | getTensor name => rfl
  | profile => rfl
  | setTensor name t =>
    simp only [act]
    rcases setTensor_state e who name t with hsame | ⟨r, hbound⟩
    · rw [hsame]
    · have hother : (e.state.setRequest who r).requests rid = e.state.requests rid := if_neg hwho.symm
      rw [hbound]
      exact (unseen_state (i := 0) e hother fun _ => rfl).solo
  | runNow order =>
    obtain ⟨hrequests, hbackends⟩ := Shared.runEach_frame who order e.state
    exact (unseen_state (i := 0) e (hrequests rid hwho.symm) hbackends).solo
  | infer => exact solo_infer_other e hwho
  | poll n preferReply =>
    simp only [act]
    split
    · rfl
    · rename_i i hi
      have hother : (e.inferences i).request ≠ rid := by rwa [request_own hi]
      exact (unseen_poll hother preferReply).solo
  | abandon n =>
    simp only [act]
    split
    · rfl
    · rename_i i hi
      have hother : (e.inferences i).request ≠ rid := by rwa [request_own hi]
      exact (unseen_abandon hother).solo
  | cancel => exact (unseen_setRequest (i := 0) e hwho _).solo
  | setCallback callback => exact (unseen_setRequest (i := 0) e hwho _).solo
  | runQueued x n =>
    simp only [act]
    split
    · rfl
    · rename_i p hp
      obtain ⟨i, m, work, rest, htake, hm, -, -⟩ := solo_takeTask hs hp
      have hrest : Unseen rid i e rest := unseen_takeTask htake hwho
      have hother : (rest.inferences i).request ≠ rid := by rwa [request_own hm]
      simp only [runQueued, htake]
      exact (unseen_runTask hwho hother).solo.trans hrest.solo
  | dropQueued x n =>
    simp only [act]
    split
    · rfl
    · rename_i p hp
      obtain ⟨i, m, work, rest, htake, hm, -, -⟩ := solo_takeTask hs hp
      have hrest : Unseen rid i e rest := unseen_takeTask htake hwho
      have hother : (rest.inferences i).request ≠ rid := by rwa [request_own hm]
      simp only [dropQueued, htake, dropTask]
      exact (unseen_answer hother _).solo.trans hrest.solo

/-! ## Acts of its own -/

theorem solo_infer (hs : Sound e none) (htrace : e.trace = []) (rid : RequestId) :
    (e.infer rid).solo rid = (e.solo rid).infer rid := by
  let own := e.own rid ++ [e.started]
  have hown : (e.infer rid).own rid = own := by rw [own_infer, if_pos rfl]
  have hinferences : (fun n => (own[n]?.map (e.infer rid).inferences).getD { request := rid }) =
      ((e.solo rid).infer rid).inferences := by
    funext n
    have hlength : (e.solo rid).started = (e.own rid).length := rfl
    simp only [infer, setInference, hlength]
    rcases Nat.lt_trichotomy n (e.own rid).length with hn | hn | hn
    · have hi : (e.own rid)[n]? = some (e.own rid)[n] := List.getElem?_eq_getElem hn
      have hlt := (mem_own.mp (List.mem_of_getElem? hi)).1
      rw [if_neg (Nat.ne_of_lt hn), solo_inferences hi, List.getElem?_append_left hn, hi]
      simp [Nat.ne_of_lt hlt]
    · simp [own, hn]
    · have hnone : (e.own rid)[n]? = none := List.getElem?_eq_none (Nat.le_of_lt hn)
      have hnone' : own[n]? = none := by
        rw [List.getElem?_eq_none_iff, List.length_append, List.length_singleton]
        exact hn
      rw [hnone', if_neg (Nat.ne_of_gt hn)]
      simp [solo, hnone]
  have hexecutors : (fun x => ((e.infer rid).executors x).solo own rid) = (e.solo rid).executors := by
    funext x
    simp only [infer, setInference, solo, Executor.solo]
    congr 1
    refine List.map_congr_left fun t ht => ?_
    -- What is queued was numbered before the new inference is made.
    obtain ⟨hmem, hrid⟩ := List.mem_filter.mp ht
    have hold := hs.queued_own hmem
    rw [of_decide_eq_true hrid] at hold
    rw [Task.numbered, List.idxOf_append_of_mem hold, Task.numbered]
  have hnothing : ((e.infer rid).trace.filter fun h => h.inference ∈ own).map
      (fun h => h.renumbered (own.idxOf h.inference)) = (e.solo rid).trace := by
    simp [infer, setInference, solo, htrace]
  unfold solo
  rw [hown, hinferences, hexecutors, hnothing, List.length_append]
  rfl

theorem solo_state_congr (hsame : d.solo rid = e.solo rid) {state state' : Shared}
    (h : state'.solo rid = state.solo rid) :
    ({ d with state := state' } : Engine Shared).solo rid = ({ e with state } : Engine Shared).solo rid := by
  show ({ d.solo rid with state := state'.solo rid } : Engine Solo) = { e.solo rid with state := state.solo rid }
  rw [hsame, h]

theorem solo_cancel (e : Engine Shared) (rid : RequestId) : (e.cancel rid).solo rid = (e.solo rid).cancel rid := by
  simp only [cancel, solo_setRequest, solo_requests]

theorem solo_setCallback (e : Engine Shared) (rid : RequestId) (callback : Callback) :
    (e.setCallback rid callback).solo rid = (e.solo rid).setCallback rid callback := by
  simp only [setCallback, solo_setRequest, solo_requests]

theorem solo_abandon {n : Nat} {i : InferenceId} (h : (e.own rid)[n]? = some i) :
    (e.abandon i).solo rid = (e.solo rid).abandon n := by
  unfold abandon
  rw [solo_inferences h]
  split
  · exact solo_ended h _
  · exact solo_finish h _
  · rfl

theorem solo_runQueued (hs : Sound e none) (hpure : e.state.Pure) {x : ExecutorId} {n p : Nat}
    (hp : (places rid (e.executors x).queue)[n]? = some p) :
    (e.solo rid).runQueued soloStages x n =
      ((e.runQueued stages x p).1.solo rid, (e.runQueued stages x p).2) := by
  obtain ⟨i, m, work, rest, htake, hm, hstate, hsolo⟩ := solo_takeTask hs hp
  simp only [runQueued, htake, hsolo]
  exact solo_runTask hm work (hstate ▸ hpure)

theorem solo_dropQueued (hs : Sound e none) {x : ExecutorId} {n p : Nat}
    (hp : (places rid (e.executors x).queue)[n]? = some p) :
    (e.dropQueued x p).solo rid = (e.solo rid).dropQueued x n := by
  obtain ⟨i, m, work, rest, htake, hm, -, hsolo⟩ := solo_takeTask hs hp
  simp only [dropQueued, htake, hsolo, dropTask]
  exact solo_answer hm work .dropped

theorem getElem?_pair {α : Type} {l l' : List α} (h : l'.length = l.length) (n : Nat) :
    (l[n]? = none ∧ l'[n]? = none) ∨ ∃ a a', l[n]? = some a ∧ l'[n]? = some a' := by
  by_cases hn : n < l.length
  · exact .inr ⟨l[n], l'[n], List.getElem?_eq_getElem hn, List.getElem?_eq_getElem (h ▸ hn)⟩
  · have hle := Nat.le_of_not_lt hn
    exact .inl ⟨List.getElem?_eq_none hle, List.getElem?_eq_none (h ▸ hle)⟩

theorem length_places_congr (hsame : d.solo rid = e.solo rid) (x : ExecutorId) :
    (places rid (d.executors x).queue).length = (places rid (e.executors x).queue).length := by
  have hlength (e : Engine Shared) :
      (places rid (e.executors x).queue).length = ((e.solo rid).executors x).queue.length := by
    simp only [solo, Executor.solo, List.length_map, length_places]
  rw [hlength, hlength, hsame]

/-- What a request answers, and what is left of it, depends on nothing but what was left of it before. -/
theorem act_of_solo (hs : Sound e none) (hs' : Sound d none) (hpure : e.state.Pure) (hpure' : d.state.Pure)
    (htrace : e.trace = []) (htrace' : d.trace = []) (hsame : d.solo rid = e.solo rid) (a : Act) :
    (d.act rid a).1 = (e.act rid a).1 ∧ (d.act rid a).2.solo rid = (e.act rid a).2.solo rid := by
  have hrequests : d.requests rid = e.requests rid := by rw [← solo_requests d, hsame, solo_requests]
  have hstate : d.state.solo rid = e.state.solo rid := congrArg (·.state) hsame
  have hrequest : d.state.requests rid = e.state.requests rid := congrArg (·.request) hstate
  have hbackend (p : PluginId) : (d.state.devices p).map Device.backend = (e.state.devices p).map Device.backend :=
    congrFun (congrArg (·.backend) hstate) p
  have hlength : (d.own rid).length = (e.own rid).length := congrArg (·.started) hsame
  have hown (n : Nat) := getElem?_pair hlength n
  have hplaces (x : ExecutorId) (n : Nat) := getElem?_pair (length_places_congr hsame x) n
  cases a with
  | getTensor name => exact ⟨by simp only [act, getTensor, hrequests, hrequest], hsame⟩
  | profile => exact ⟨by simp only [act, profile, hrequests, hrequest], hsame⟩
  | setTensor name t =>
    simp only [act, setTensor, access, hrequests, hrequest]
    cases (e.requests rid).poisoned with
    | true => exact ⟨rfl, hsame⟩
    | false =>
      cases e.state.requests rid with
      | none => exact ⟨rfl, hsame⟩
      | some r =>
        simp only
        cases r.setTensor name t with
        | error fault => exact ⟨rfl, hsame⟩
        | ok bound =>
          refine ⟨rfl, solo_state_congr hsame ?_⟩
          simp [Shared.solo, Shared.setRequest, hbackend]
  | runNow order =>
    have hrun := Shared.runEach_solo hpure' rid order
    rw [hstate, Shared.runEach_solo hpure rid order] at hrun
    obtain ⟨houtcome, hafter⟩ := Prod.mk.inj hrun
    exact ⟨by simp only [act, houtcome], solo_state_congr hsame hafter.symm⟩
  | infer =>
    refine ⟨rfl, ?_⟩
    simp only [act]
    rw [solo_infer hs' htrace', hsame, ← solo_infer hs htrace]
  | poll n preferReply =>
    rcases hown n with ⟨hi, hi'⟩ | ⟨i, i', hi, hi'⟩
    · simp only [act, hi, hi']
      exact ⟨trivial, hsame⟩
    · simp only [act, hi, hi']
      refine ⟨trivial, ?_⟩
      rw [(Owns.mk hi' hpure').solo_poll, hsame, ← (Owns.mk hi hpure).solo_poll]
  | abandon n =>
    rcases hown n with ⟨hi, hi'⟩ | ⟨i, i', hi, hi'⟩
    · simp only [act, hi, hi']
      exact ⟨trivial, hsame⟩
    · simp only [act, hi, hi']
      refine ⟨trivial, ?_⟩
      rw [solo_abandon hi', hsame, ← solo_abandon hi]
  | cancel => exact ⟨rfl, by simp only [act, solo_cancel, hsame]⟩
  | setCallback callback => exact ⟨rfl, by simp only [act, solo_setCallback, hsame]⟩
  | runQueued x n =>
    rcases hplaces x n with ⟨hp, hp'⟩ | ⟨p, p', hp, hp'⟩
    · simp only [act, hp, hp']
      exact ⟨trivial, hsame⟩
    · have hrun := solo_runQueued hs' hpure' hp'
      rw [hsame, solo_runQueued hs hpure hp] at hrun
      obtain ⟨hafter, hbroke⟩ := Prod.mk.inj hrun
      simp only [act, hp, hp', hbroke]
      exact ⟨trivial, hafter.symm⟩
  | dropQueued x n =>
    rcases hplaces x n with ⟨hp, hp'⟩ | ⟨p, p', hp, hp'⟩
    · simp only [act, hp, hp']
      exact ⟨trivial, hsame⟩
    · simp only [act, hp, hp']
      refine ⟨trivial, ?_⟩
      rw [solo_dropQueued hs' hp', hsame, ← solo_dropQueued hs hp]

/-! ## Histories -/

theorem act_backend (hs : Sound e none) (a : Act) (p : PluginId) :
    ((e.act rid a).2.state.devices p).map Device.backend = (e.state.devices p).map Device.backend := by
  -- Backends are a part of every request, and others do not see the act.
  have hunseen : (e.act rid a).2.solo (rid + 1) = e.solo (rid + 1) := act_unseen hs (Nat.succ_ne_self rid).symm a
  exact congrFun (congrArg (·.state.backend) hunseen) p

theorem Sound.cleared (hs : Sound e none) : Sound e.cleared none :=
  hs.congr rfl (fun _ => rfl) (fun _ => rfl) (fun _ => rfl) (fun _ => rfl) (fun _ => rfl)

theorem cleared_solo (e : Engine Shared) (rid : RequestId) : e.cleared.solo rid = (e.solo rid).cleared := rfl

theorem observed_congr (hsame : d.solo rid = e.solo rid) : d.observed rid = e.observed rid := by
  rw [observed, observed, hsame]

theorem reports_of_solo {history : List (RequestId × Act)} (hs : Sound e none) (hs' : Sound d none)
    (hpure : e.state.Pure) (hpure' : d.state.Pure) (hsame : d.cleared.solo rid = e.cleared.solo rid) :
    e.reports rid history = d.reports rid (history.filter fun p => p.1 = rid) := by
  induction history generalizing e d with
  | nil => rfl
  | cons first history ih =>
    obtain ⟨who, a⟩ := first
    have hsound := sound_act hs.cleared who a
    have hnext : (e.cleared.act who a).2.state.Pure := hpure.congr (act_backend hs.cleared a)
    by_cases hwho : who = rid
    · subst hwho
      obtain ⟨hanswer, hafter⟩ := act_of_solo hs.cleared hs'.cleared hpure hpure' rfl rfl hsame a
      have hrest := ih hsound (sound_act hs'.cleared who a) hnext (hpure'.congr (act_backend hs'.cleared a))
        (by rw [cleared_solo, cleared_solo, hafter])
      simp only [List.filter_cons, decide_true, if_true, reports, hanswer, observed_congr hafter, hrest]
    · have hunseen := act_unseen hs.cleared hwho a
      have hnothing : (e.cleared.act who a).2.observed rid = [] := by
        rw [observed_congr hunseen]
        rfl
      have hrest := ih (e := (e.cleared.act who a).2) (d := d) hsound hs' hnext hpure'
        (by rw [hsame, cleared_solo (e.cleared.act who a).2, hunseen]; rfl)
      simp only [List.filter_cons, hwho, decide_false, reports, hnothing, hrest, if_false]
      rfl

/-- Whatever is done with other requests in between, and whatever becomes of them, all that is observed on a
request is observed in the same order when only its own acts are done. -/
theorem reports_own_acts {start : Engine Shared} (hstart : Visited stages (start, none)) (hpure : start.state.Pure)
    (rid : RequestId) (history : List (RequestId × Act)) :
    start.reports rid history = start.reports rid (history.filter fun p => p.1 = rid) :=
  reports_of_solo hstart.sound hstart.sound hpure hpure rfl

def besideCancelled : List (RequestId × Act) :=
  [(1, .infer), (0, .infer), (1, .poll 0 true), (0, .poll 0 true), (1, .cancel), (1, .poll 0 true),
    (0, .runQueued 1 0), (1, .runQueued 1 0), (0, .poll 0 true), (0, .getTensor "y")]

theorem reports_own_acts_besideCancelled :
    (∀ p d, deferring.state.devices p = some d → d.backend.Pure) ∧
      deferring.reports 0 besideCancelled = deferring.reports 0
        [(0, .infer), (0, .poll 0 true), (0, .runQueued 1 0), (0, .poll 0 true), (0, .getTensor "y")] ∧
      (deferring.reports 0 besideCancelled).getLast? = some (.told (.ok (.tensor byte))) := by
  have hpure : deferring.state.Pure := by
    intro p d hd
    cases hd
    exact fun _ _ => rfl
  have hstart : Visited stages (deferring, none) := ⟨deferring, isNew_deferring, .refl⟩
  exact ⟨hpure, reports_own_acts hstart hpure 0 besideCancelled, rfl⟩

end Engine

end DevicePlugin
