import DevicePlugin.Proofs.Request.Outputs
import DevicePlugin.Proofs.Request.Solo

/-!
# Acts on a request

Whatever is done with requests is done with one of them at a time: it is called, or one
of its inferences is polled, or one of its tasks is run. An act is named from within
its request, so that it means the same when other requests are taken away.
-/

namespace DevicePlugin

namespace Engine

open Shared (stages)

/-- What is done with a request. Its inferences are numbered within the request, and so are its tasks in the
queue of an executor. -/
inductive Act where
  | setTensor (name : String) (t : Tensor)
  | getTensor (name : String)
  | profile
  /-- Stages are run at once, without a task. -/
  | runNow (order : List InferStage)
  | infer
  | poll (n : Nat) (preferReply : Bool)
  | abandon (n : Nat)
  | cancel
  | setCallback (callback : Callback)
  | runQueued (x : ExecutorId) (n : Nat)
  | dropQueued (x : ExecutorId) (n : Nat)

def profile (e : Engine Shared) (rid : RequestId) : Except Failure (List InferStage) :=
  if (e.requests rid).poisoned then .error (.infer .poisoned)
  else .ok (((e.state.requests rid).map InferRequest.profile).getD [])

def places (rid : RequestId) : List Task → List Nat
  | [] => []
  | t :: rest =>
    let later := (places rid rest).map (· + 1)
    if t.request = rid then 0 :: later else later

def act (e : Engine Shared) (rid : RequestId) : Act → Outcome Failure Session.Answer × Engine Shared
  | .setTensor name t =>
    match e.setTensor rid name t with
    | (result, e) => (.ofExcept (result.map fun () => .done), e)
  | .getTensor name => (.ofExcept ((e.getTensor rid name).map .tensor), e)
  | .profile => (.ofExcept ((e.profile rid).map .profile), e)
  | .runNow order =>
    match (stages rid).runEach order e.state with
    | (outcome, state) => (outcome.map fun () => .done, { e with state })
  | .infer => (.ok .done, e.infer rid)
  | .poll n preferReply =>
    match (e.own rid)[n]? with
    | none => (.ok .done, e)
    | some i => (.ok .done, e.poll stages preferReply i)
  | .abandon n =>
    match (e.own rid)[n]? with
    | none => (.ok .done, e)
    | some i => (.ok .done, e.abandon i)
  | .cancel => (.ok .done, e.cancel rid)
  | .setCallback callback => (.ok .done, e.setCallback rid callback)
  | .runQueued x n =>
    match (places rid (e.executors x).queue)[n]? with
    | none => (.ok .done, e)
    | some p =>
      match e.runQueued stages x p with
      | (e, brokeOff) => (if brokeOff then .panic else .ok .done, e)
  | .dropQueued x n =>
    match (places rid (e.executors x).queue)[n]? with
    | none => (.ok .done, e)
    | some p => (.ok .done, e.dropQueued x p)

variable {e : Engine Shared} {rid : RequestId}

/-! ## Queued tasks -/

theorem length_places (rid : RequestId) (queue : List Task) :
    (places rid queue).length = (queue.filter fun t => t.request = rid).length := by
  induction queue with
  | nil => rfl
  | cons t rest ih => by_cases ht : t.request = rid <;> simp [places, ht, ih]

theorem places_spec {queue : List Task} {n p : Nat} (h : (places rid queue)[n]? = some p) :
    ∃ i work, queue[p]? = some ⟨rid, i, work⟩ ∧ (queue.filter fun t => t.request = rid)[n]? = some ⟨rid, i, work⟩ ∧
      (queue.eraseIdx p).filter (fun t => t.request = rid) = (queue.filter fun t => t.request = rid).eraseIdx n := by
  induction queue generalizing n p with
  | nil => cases h
  | cons t rest ih =>
    obtain ⟨request, i, work⟩ := t
    by_cases ht : request = rid
    · subst ht
      cases n with
      | zero =>
        simp only [places, if_pos, List.getElem?_cons_zero, Option.some.injEq] at h
        subst h
        exact ⟨i, work, by simp⟩
      | succ n =>
        simp only [places, if_pos, List.getElem?_cons_succ, List.getElem?_map, Option.map_eq_some_iff] at h
        obtain ⟨q, hq, rfl⟩ := h
        obtain ⟨i', work', hget, hget', herase⟩ := ih hq
        exact ⟨i', work', by simpa using hget, by simpa using hget', by simpa using herase⟩
    · simp only [places, if_neg ht, List.getElem?_map, Option.map_eq_some_iff] at h
      obtain ⟨q, hq, rfl⟩ := h
      obtain ⟨i', work', hget, hget', herase⟩ := ih hq
      exact ⟨i', work', by simpa using hget, by simpa [ht] using hget', by simpa [ht] using herase⟩

theorem mem_places {queue : List Task} {p : Nat} {t : Task} (h : queue[p]? = some t) : p ∈ places t.request queue := by
  induction queue generalizing p with
  | nil => cases h
  | cons first rest ih =>
    cases p with
    | zero =>
      cases h
      simp [places]
    | succ p =>
      have hlater : p + 1 ∈ (places t.request rest).map (· + 1) :=
        List.mem_map.mpr ⟨p, ih (by simpa using h), rfl⟩
      simp only [places]
      split
      · exact List.mem_cons_of_mem _ hlater
      · exact hlater

theorem Sound.queued_own (hs : Sound e none) {x : ExecutorId} {t : Task} (ht : t ∈ (e.executors x).queue) :
    t.inference ∈ e.own t.request := by
  have hheld : e.Holds none t := holds_none.mpr ⟨x, ht⟩
  exact mem_own.mpr ⟨hs.known t hheld, (hs.owned t hheld).symm⟩

/-- Binding a tensor changes the request that it is bound to, or nothing. -/
theorem setTensor_state (e : Engine Shared) (rid : RequestId) (name : String) (t : Tensor) :
    (e.setTensor rid name t).2 = e ∨
      ∃ r, (e.setTensor rid name t).2 = { e with state := e.state.setRequest rid r } := by
  simp only [setTensor, access]
  split
  · exact .inl rfl
  · cases e.state.requests rid with
    | none => exact .inl rfl
    | some r =>
      simp only
      cases r.setTensor name t with
      | error fault => exact .inl rfl
      | ok bound => exact .inr ⟨bound, rfl⟩

theorem sound_act (hs : Sound e none) (rid : RequestId) (a : Act) : Sound (e.act rid a).2 none := by
  have hstate (state : Shared) : Sound { e with state } none :=
    hs.congr rfl (fun _ => rfl) (fun _ => rfl) (fun _ => rfl) (fun _ => rfl) (fun _ => rfl)
  cases a with
  | getTensor name => exact hs
  | profile => exact hs
  | setTensor name t =>
    simp only [act]
    rcases setTensor_state e rid name t with hsame | ⟨r, hbound⟩
    · rwa [hsame]
    · rw [hbound]
      exact hstate _
  | runNow order => exact hstate _
  | infer => exact hs.infer rid
  | poll n preferReply =>
    simp only [act]
    split
    · exact hs
    · rename_i i hi
      have hstep := hs.step stages (.poll i preferReply)
      rwa [step, if_pos (mem_own.mp (List.mem_of_getElem? hi)).1] at hstep
  | abandon n =>
    simp only [act]
    split
    · exact hs
    · exact hs.abandon _
  | cancel => exact hs.cancel rid
  | setCallback callback => exact hs.setCallback rid callback
  | runQueued x n =>
    simp only [act]
    split
    · exact hs
    · exact hs.step stages (.runQueued x _)
  | dropQueued x n =>
    simp only [act]
    split
    · exact hs
    · exact hs.dropQueued x _

/-! ## All that an engine does -/

/-- Every step of an engine is an act on one request, but for changes of the state that come from outside. -/
theorem exists_act (e : Engine Shared) {s : Step Shared} (hinside : ∀ who change, s ≠ .access who change) :
    e.step stages s = e ∨ ∃ who a, (e.act who a).2 = e.step stages s := by
  have hnumber {i : InferenceId} (hi : i < e.started) :
      ∃ n : Nat, (e.own (e.inferences i).request)[n]? = some i :=
    List.mem_iff_getElem?.mp (mem_own.mpr ⟨hi, rfl⟩)
  have hplace {x : ExecutorId} {p : Nat} {t : Task} {rest : Engine Shared} (htake : e.takeTask x p = some (t, rest)) :
      ∃ n : Nat, (places t.request (e.executors x).queue)[n]? = some p := by
    obtain ⟨t', hget, heq⟩ := Option.map_eq_some_iff.mp htake
    cases heq
    exact List.mem_iff_getElem?.mp (mem_places hget)
  cases s with
  | access who change => exact absurd rfl (hinside who change)
  | infer who => exact .inr ⟨who, .infer, rfl⟩
  | cancel who => exact .inr ⟨who, .cancel, rfl⟩
  | setCallback who callback => exact .inr ⟨who, .setCallback callback, rfl⟩
  | poll i preferReply =>
    simp only [step]
    split
    · rename_i hi
      obtain ⟨n, hn⟩ := hnumber hi
      exact .inr ⟨(e.inferences i).request, .poll n preferReply, by simp only [act, hn]⟩
    · exact .inl rfl
  | abandon i =>
    simp only [step]
    split
    · rename_i hi
      obtain ⟨n, hn⟩ := hnumber hi
      exact .inr ⟨(e.inferences i).request, .abandon n, by simp only [act, hn]⟩
    · exact .inl rfl
  | runQueued x p =>
    cases htake : e.takeTask x p with
    | none => exact .inl (by simp only [step, runQueued, htake])
    | some taken =>
      obtain ⟨n, hn⟩ := hplace htake
      exact .inr ⟨taken.1.request, .runQueued x n, by simp only [act, hn, step]⟩
  | dropQueued x p =>
    cases htake : e.takeTask x p with
    | none => exact .inl (by simp only [step, dropQueued, htake])
    | some taken =>
      obtain ⟨n, hn⟩ := hplace htake
      exact .inr ⟨taken.1.request, .dropQueued x n, by simp only [act, hn, step]⟩

def Act.of? : Session.Handle → Session.RequestStep → Option Act
  | _, .setTensor name (.ok t) => some (.setTensor name t)
  | _, .getTensor name => some (.getTensor name)
  | _, .profile => some .profile
  | .sync _, .stage stage => some (.runNow [stage])
  | .sync _, .infer _ => some (.runNow [.preprocess, .start, .wait, .postprocess])
  | .async _, .infer _ => some .infer
  | .async _, .cancel => some .cancel
  | .async _, .callback label => some (.setCallback { label })
  | _, _ => none

end Engine

theorem Shared.setRequest_self {s : Shared} {rid : RequestId} {r : InferRequest} (hr : s.requests rid = some r) :
    s.setRequest rid r = s := by
  have hrequests : (fun i => if i = rid then some r else s.requests i) = s.requests := by
    funext i
    by_cases hi : i = rid <;> simp [hi, hr]
  unfold setRequest
  rw [hrequests]

/-- A session answers what the act does, and goes on with what the act leaves. -/
theorem Session.State.onRequest_act {s : Session.State} (hruntime : s.runtime = false) {rid : RequestId}
    {handle : Session.Handle}
    (hhandle : handle = .async rid ∨ handle = .sync rid ∧ (s.engine.requests rid).poisoned = false) {r : InferRequest}
    (hr : s.engine.state.requests rid = some r) {step : RequestStep} {a : Engine.Act}
    (ha : Engine.Act.of? handle step = some a) :
    let effect := s.onRequest handle step
    effect.reply = .answered (s.engine.act rid a).1 ∧ effect.state.engine = (s.engine.act rid a).2 := by
  intro effect
  -- What only reads a request puts it back as it was.
  have hread (f : InferRequest → Except InferFault Answer) :
      let read := s.accessRequest handle fun r => (f r).map fun answer => (answer, r)
      read.reply = .answered (.ofExcept (if (s.engine.requests rid).poisoned then .error (.infer .poisoned)
        else (f r).mapError .infer)) ∧ read.state.engine = s.engine := by
    rcases hhandle with rfl | ⟨rfl, hpoisoned⟩
    · simp only [accessRequest, Engine.access, hr]
      cases (s.engine.requests rid).poisoned with
      | true => exact ⟨rfl, rfl⟩
      | false => cases hf : f r <;> simp [Except.map, Except.mapError, Shared.setRequest_self hr]
    · simp only [accessRequest, hr, hpoisoned]
      cases hf : f r <;> simp [Except.map, Except.mapError, Shared.setRequest_self hr]
  cases step with
  | setTensor name t =>
    cases t with
    | error fault => cases ha
    | ok t =>
      cases ha
      exact onRequest_setTensor s hhandle name t
  | getTensor name =>
    cases ha
    obtain ⟨hreply, hengine⟩ := hread fun r => (r.getTensor name).map .tensor
    have hsame : effect = s.accessRequest handle fun r =>
        ((r.getTensor name).map Answer.tensor).map fun answer => (answer, r) := by
      simp only [effect, onRequest]
      congr 1
      funext r
      cases r.getTensor name <;> rfl
    rw [hsame]
    refine ⟨hreply.trans ?_, hengine⟩
    simp only [Engine.act, Engine.getTensor, hr]
    cases (s.engine.requests rid).poisoned with
    | true => rfl
    | false => cases r.getTensor name <;> rfl
  | profile =>
    cases ha
    obtain ⟨hreply, hengine⟩ := hread fun r => .ok (.profile r.profile)
    refine ⟨hreply.trans ?_, hengine⟩
    simp only [Engine.act, Engine.profile, hr]
    cases (s.engine.requests rid).poisoned <;> rfl
  | shownModel => cases ha
  | stage stage =>
    rcases hhandle with rfl | ⟨rfl, -⟩
    · cases ha
    · cases ha
      exact ⟨rfl, rfl⟩
  | infer label =>
    rcases hhandle with rfl | ⟨rfl, -⟩
    · cases ha
      simp only [effect, onRequest, inferAsync, hruntime]
      exact ⟨rfl, rfl⟩
    · cases ha
      exact ⟨rfl, rfl⟩
  | cancel =>
    rcases hhandle with rfl | ⟨rfl, -⟩ <;> cases ha
    exact ⟨rfl, rfl⟩
  | callback label =>
    rcases hhandle with rfl | ⟨rfl, -⟩ <;> cases ha
    exact ⟨rfl, rfl⟩

end DevicePlugin
