import DevicePlugin.Proofs.Request.Calls

/-!
# Outputs on their way

A start puts outputs aside, and the stage that publishes them takes them away; checking the
inputs forgets them. So the calls alone tell what is put aside: whatever was called before,
publishing succeeds if and only if there is a start whose outputs were neither forgotten
nor published. It hands over those of the latest such start, and hands them over once.
-/

namespace DevicePlugin

namespace InferRequest

/-! ## Single calls -/

inductive Method where
  | bind (name : String) (t : Tensor)
  | stage (stage : InferStage) (device : Option Device)

def invoke (r : InferRequest) : Method → Outcome Failure Unit × InferRequest
  | .bind name t =>
    match r.setTensor name t with
    | .ok bound => (.ok (), bound)
    | .error fault => (.error (.infer fault), r)
  | .stage stage device =>
    match Served.stages.run stage ⟨r, device⟩ with
    | (outcome, served) => (outcome, served.request)

def invokes (r : InferRequest) (history : List Method) : InferRequest :=
  history.foldl (fun r m => (r.invoke m).2) r

theorem invokes_append (r : InferRequest) (history later : List Method) :
    r.invokes (history ++ later) = (r.invokes history).invokes later :=
  List.foldl_append

theorem invokes_concat (r : InferRequest) (history : List Method) (m : Method) :
    r.invokes (history ++ [m]) = ((r.invokes history).invoke m).2 :=
  invokes_append r history [m]

/-! ## What a history tells -/

def At (r : InferRequest) (kind : InferRequest → Method → Prop) (history : List Method) (i : Nat) : Prop :=
  ∃ m, history[i]? = some m ∧ kind (r.invokes (history.take i)) m

/-- There was a call of one kind, and none of the other kind since. -/
def Since (r : InferRequest) (kind ending : InferRequest → Method → Prop) (history : List Method) : Prop :=
  ∃ i, r.At kind history i ∧ ∀ k, i < k → ¬r.At ending history k

variable {r : InferRequest} {kind ending : InferRequest → Method → Prop} {history : List Method} {m : Method}
  {outputs : Dict Tensor}

theorem At.lt {i : Nat} (h : r.At kind history i) : i < history.length := by
  obtain ⟨m, hm, -⟩ := h
  exact (List.getElem?_eq_some_iff.mp hm).1

theorem at_concat {i : Nat} :
    r.At kind (history ++ [m]) i ↔ r.At kind history i ∨ i = history.length ∧ kind (r.invokes history) m := by
  have hbefore (hi : i < history.length) : r.At kind (history ++ [m]) i ↔ r.At kind history i := by
    rw [At, At, List.getElem?_append_left hi, List.take_append_of_le_length (Nat.le_of_lt hi)]
  have hlast : r.At kind (history ++ [m]) history.length ↔ kind (r.invokes history) m := by simp [At]
  constructor
  · intro h
    have hlt := h.lt
    rw [List.length_append, List.length_singleton] at hlt
    rcases Nat.lt_or_eq_of_le (Nat.le_of_lt_succ hlt) with hlt | rfl
    · exact .inl ((hbefore hlt).mp h)
    · exact .inr ⟨rfl, hlast.mp h⟩
  · rintro (h | ⟨rfl, h⟩)
    · exact (hbefore h.lt).mpr h
    · exact hlast.mpr h

theorem not_since_nil : ¬r.Since kind ending [] := by
  rintro ⟨i, hi, -⟩
  exact Nat.not_lt_zero i hi.lt

theorem since_concat :
    r.Since kind ending (history ++ [m]) ↔
      kind (r.invokes history) m ∨ r.Since kind ending history ∧ ¬ending (r.invokes history) m := by
  constructor
  · rintro ⟨i, hi, hnone⟩
    rcases at_concat.mp hi with hi | ⟨-, hkind⟩
    · refine .inr ⟨⟨i, hi, fun k hk hending => ?_⟩, fun hending => ?_⟩
      · exact hnone k hk (at_concat.mpr (.inl hending))
      · exact hnone _ hi.lt (at_concat.mpr (.inr ⟨rfl, hending⟩))
    · exact .inl hkind
  · rintro (hkind | ⟨⟨i, hi, hnone⟩, hnot⟩)
    · refine ⟨history.length, at_concat.mpr (.inr ⟨rfl, hkind⟩), fun k hk h => ?_⟩
      rcases at_concat.mp h with h | ⟨rfl, -⟩
      · exact Nat.lt_asymm hk h.lt
      · exact Nat.lt_irrefl _ hk
    · refine ⟨i, at_concat.mpr (.inl hi), fun k hk h => ?_⟩
      rcases at_concat.mp h with h | ⟨-, hending⟩
      · exact hnone k hk h
      · exact hnot hending

/-! ## What a call does with outputs -/

def Checks (_ : InferRequest) (m : Method) : Prop := ∃ device, m = .stage .preprocess device

def Starts (r : InferRequest) (m : Method) : Prop := (∃ device, m = .stage .start device) ∧ (r.invoke m).1 = .ok ()

def HandsOver (r : InferRequest) (m : Method) : Prop :=
  (∃ device, m = .stage .postprocess device) ∧ (r.invoke m).1 = .ok ()

def PutsOut (outputs : Dict Tensor) (r : InferRequest) (m : Method) : Prop :=
  ∃ d, m = .stage .start (some d) ∧ d.backend.evaluate d.evaluations r.graph r.inputs = .ok outputs

def Clears (r : InferRequest) (m : Method) : Prop := r.Checks m ∨ r.HandsOver m

inductive Effect (r : InferRequest) (m : Method) (next : InferRequest) : Prop
  | forgets (h : r.Checks m) (hpending : next.pending = none) (houtputs : next.outputs = r.outputs)
  | putsOut {outputs : Dict Tensor} (h : r.PutsOut outputs m) (hpending : next.pending = some outputs)
      (houtputs : next.outputs = r.outputs)
  | handsOver (h : r.HandsOver m) (hpending : next.pending = none) (houtputs : r.pending = some next.outputs)
  | keeps (hchecks : ¬r.Checks m) (hstarts : ¬r.Starts m) (hhands : ¬r.HandsOver m)
      (hpending : next.pending = r.pending) (houtputs : next.outputs = r.outputs)

theorem invoke_bind (r : InferRequest) (name : String) (t : Tensor) :
    ∃ inputs, (r.invoke (.bind name t)).2 = { r with inputs } := by
  simp only [invoke]
  split
  · rename_i hset
    exact ⟨_, (setTensor_eq_ok hset).2⟩
  · exact ⟨r.inputs, rfl⟩

theorem invoke_preprocess (r : InferRequest) (device : Option Device) :
    r.invoke (.stage .preprocess device) =
      match r.unset with
      | some p => (.error (.infer (.inputNotSet p.name)), r.forgotten)
      | none => (.ok (), r.begun) := by
  cases hunset : r.unset with
  | some p => simp only [invoke, Served.stages, Served.runLocal, Served.preprocess_of_unset hunset]
  | none => simp only [invoke, Served.stages, Served.runLocal, Served.preprocess_of_set hunset]

theorem invoke_start (r : InferRequest) (d : Device) :
    r.invoke (.stage .start (some d)) =
      match d.backend.evaluate d.evaluations r.graph r.inputs with
      | .ok outputs => (.ok (), ({ r with pending := some outputs } : InferRequest).record .start)
      | .error error => (.error (.infer (.backend d.backend.name error)), r)
      | .panic => (.panic, r) := by
  simp only [invoke, Served.stages, Served.start, Served.start_some]
  cases d.backend.evaluate d.evaluations r.graph r.inputs <;> rfl

theorem invoke_wait (r : InferRequest) (device : Option Device) :
    r.invoke (.stage .wait device) =
      match r.pending with
      | none => (.error (.infer .notStarted), r)
      | some outputs =>
        match checkOutputs outputs r.graph.results with
        | .error fault => (.error (.infer fault), r)
        | .ok () => (.ok (), r.record .wait) := by
  simp only [invoke, Served.stages, Served.runLocal, wait]
  cases r.pending with
  | none => rfl
  | some outputs => cases hcheck : checkOutputs outputs r.graph.results <;> simp only [hcheck]

theorem invoke_postprocess (r : InferRequest) (device : Option Device) :
    r.invoke (.stage .postprocess device) =
      match r.pending with
      | none => (.error (.infer .notStarted), r)
      | some outputs => (.ok (), ({ r with pending := none, outputs } : InferRequest).record .postprocess) := by
  simp only [invoke, Served.stages, Served.runLocal, postprocess]
  cases r.pending <;> rfl

theorem starts_iff : r.Starts m ↔ ∃ outputs, r.PutsOut outputs m := by
  constructor
  · rintro ⟨⟨device, rfl⟩, hok⟩
    cases device with
    | none => cases hok
    | some d =>
      rw [invoke_start] at hok
      cases hanswer : d.backend.evaluate d.evaluations r.graph r.inputs with
      | ok outputs => exact ⟨outputs, d, rfl, hanswer⟩
      | error error => rw [hanswer] at hok; cases hok
      | panic => rw [hanswer] at hok; cases hok
  · rintro ⟨outputs, d, rfl, hanswer⟩
    exact ⟨⟨some d, rfl⟩, by rw [invoke_start, hanswer]⟩

theorem effect_bind (r : InferRequest) (name : String) (t : Tensor) :
    Effect r (.bind name t) (r.invoke (.bind name t)).2 := by
  obtain ⟨inputs, hrun⟩ := invoke_bind r name t
  rw [hrun]
  exact .keeps (by simp [Checks]) (by simp [Starts]) (by simp [HandsOver]) rfl rfl

theorem effect_preprocess (r : InferRequest) (device : Option Device) :
    Effect r (.stage .preprocess device) (r.invoke (.stage .preprocess device)).2 := by
  have hchecks : r.Checks (.stage .preprocess device) := ⟨device, rfl⟩
  rw [invoke_preprocess]
  cases r.unset with
  | some p => exact .forgets hchecks rfl rfl
  | none => exact .forgets hchecks (record_pending _ _) (record_outputs _ _)

theorem effect_start (r : InferRequest) (device : Option Device) :
    Effect r (.stage .start device) (r.invoke (.stage .start device)).2 := by
  have hkeeps (hfails : (r.invoke (.stage .start device)).1 ≠ .ok ()) :
      Effect r (.stage .start device) r :=
    .keeps (by simp [Checks]) (fun h => hfails h.2) (by simp [HandsOver]) rfl rfl
  cases device with
  | none => exact hkeeps nofun
  | some d =>
    rw [invoke_start] at hkeeps ⊢
    cases hanswer : d.backend.evaluate d.evaluations r.graph r.inputs with
    | ok outputs => exact .putsOut ⟨d, rfl, hanswer⟩ (record_pending _ _) (record_outputs _ _)
    | error error => exact hkeeps (by simp [hanswer])
    | panic => exact hkeeps (by simp [hanswer])

theorem effect_wait (r : InferRequest) (device : Option Device) :
    Effect r (.stage .wait device) (r.invoke (.stage .wait device)).2 := by
  have hkept : (r.invoke (.stage .wait device)).2.pending = r.pending ∧
      (r.invoke (.stage .wait device)).2.outputs = r.outputs := by
    rw [invoke_wait]
    cases hpending : r.pending with
    | none => exact ⟨hpending, rfl⟩
    | some outputs =>
      simp only
      cases checkOutputs outputs r.graph.results with
      | error fault => exact ⟨hpending, rfl⟩
      | ok value => exact ⟨(record_pending _ _).trans hpending, record_outputs _ _⟩
  exact .keeps (by simp [Checks]) (by simp [Starts]) (by simp [HandsOver]) hkept.1 hkept.2

theorem effect_postprocess (r : InferRequest) (device : Option Device) :
    Effect r (.stage .postprocess device) (r.invoke (.stage .postprocess device)).2 := by
  have hrun := invoke_postprocess r device
  cases hpending : r.pending with
  | none =>
    rw [hpending] at hrun
    rw [hrun]
    exact .keeps (by simp [Checks]) (by simp [Starts]) (by simp [HandsOver, hrun]) rfl rfl
  | some outputs =>
    rw [hpending] at hrun
    have hhands : r.HandsOver (.stage .postprocess device) := ⟨⟨device, rfl⟩, by rw [hrun]⟩
    rw [hrun]
    exact .handsOver hhands (record_pending _ _) (by rw [record_outputs, hpending])

theorem effect_invoke (r : InferRequest) (m : Method) : Effect r m (r.invoke m).2 := by
  cases m with
  | bind name t => exact effect_bind r name t
  | stage stage device =>
    cases stage with
    | preprocess => exact effect_preprocess r device
    | start => exact effect_start r device
    | wait => exact effect_wait r device
    | postprocess => exact effect_postprocess r device

theorem PutsOut.unique {outputs' : Dict Tensor} (h : r.PutsOut outputs m) (h' : r.PutsOut outputs' m) :
    outputs = outputs' := by
  obtain ⟨d, rfl, hanswer⟩ := h
  obtain ⟨d', heq, hanswer'⟩ := h'
  cases heq
  cases hanswer.symm.trans hanswer'
  rfl

theorem PutsOut.not_clears (h : r.PutsOut outputs m) : ¬r.Clears m := by
  obtain ⟨d, rfl, -⟩ := h
  rintro (⟨device, heq⟩ | ⟨⟨device, heq⟩, -⟩) <;> cases heq

theorem pending_invoke :
    (r.invoke m).2.pending = some outputs ↔
      r.PutsOut outputs m ∨ r.pending = some outputs ∧ ¬(r.Clears m ∨ r.Starts m) := by
  cases effect_invoke r m with
  | forgets h hpending _ =>
    have hnot : ¬r.PutsOut outputs m := fun hputs => hputs.not_clears (.inl h)
    simp [hpending, hnot, Clears, h]
  | handsOver h hpending _ =>
    have hnot : ¬r.PutsOut outputs m := fun hputs => hputs.not_clears (.inr h)
    simp [hpending, hnot, Clears, h]
  | putsOut h hpending _ =>
    rw [hpending, Option.some.injEq]
    constructor
    · rintro rfl
      exact .inl h
    · rintro (h' | ⟨-, hnot⟩)
      · exact h.unique h'
      · exact absurd (.inr (starts_iff.mpr ⟨_, h⟩)) hnot
  | keeps hchecks hstarts hhands hpending _ =>
    have hnot : ¬r.PutsOut outputs m := fun h => hstarts (starts_iff.mpr ⟨_, h⟩)
    simp [hpending, hnot, Clears, hchecks, hstarts, hhands]

theorem outputs_invoke (h : ¬r.HandsOver m) : (r.invoke m).2.outputs = r.outputs := by
  cases effect_invoke r m with
  | forgets _ _ houtputs => exact houtputs
  | putsOut _ _ houtputs => exact houtputs
  | handsOver hhands _ _ => exact absurd hhands h
  | keeps _ _ _ _ houtputs => exact houtputs

theorem postprocess_eq_ok_iff {device : Option Device} :
    (r.invoke (.stage .postprocess device)).1 = .ok () ↔ ∃ outputs, r.pending = some outputs := by
  rw [invoke_postprocess]
  cases r.pending <;> simp

theorem pending_of_postprocess {device : Option Device} (hok : (r.invoke (.stage .postprocess device)).1 = .ok ()) :
    r.pending = some (r.invoke (.stage .postprocess device)).2.outputs := by
  obtain ⟨outputs, hpending⟩ := postprocess_eq_ok_iff.mp hok
  rw [invoke_postprocess, hpending, record_outputs]

theorem postprocess_pending (r : InferRequest) (device : Option Device) :
    (r.invoke (.stage .postprocess device)).2.pending = none := by
  rw [invoke_postprocess]
  cases hpending : r.pending with
  | none => exact hpending
  | some outputs => exact record_pending _ _

theorem wait_eq_ok_iff {device : Option Device} :
    (r.invoke (.stage .wait device)).1 = .ok () ↔
      ∃ outputs, r.pending = some outputs ∧ checkOutputs outputs r.graph.results = .ok () := by
  rw [invoke_wait]
  cases r.pending with
  | none => simp
  | some outputs => cases hcheck : checkOutputs outputs r.graph.results <;> simp [hcheck]

/-! ## What is put aside after a history -/

/-- A start has succeeded, since inputs were checked last and since outputs were handed over last. -/
def Started (r : InferRequest) (history : List Method) : Prop := r.Since Starts Clears history

def StartedWith (r : InferRequest) (outputs : Dict Tensor) (history : List Method) : Prop :=
  r.Since (PutsOut outputs) (fun r m => r.Clears m ∨ r.Starts m) history

theorem started_iff : r.Started history ↔ ∃ outputs, r.StartedWith outputs history := by
  induction history using List.reverseRecOn with
  | nil => exact iff_of_false not_since_nil fun ⟨_, h⟩ => not_since_nil h
  | append_singleton history m ih =>
    simp only [Started, StartedWith, since_concat] at ih ⊢
    rw [ih]
    constructor
    · rintro (hstarts | ⟨⟨outputs, h⟩, hclears⟩)
      · obtain ⟨outputs, h⟩ := starts_iff.mp hstarts
        exact ⟨outputs, .inl h⟩
      · -- A start that succeeds is the latest one, whatever was put aside before.
        by_cases hstarts : (r.invokes history).Starts m
        · obtain ⟨outputs', h'⟩ := starts_iff.mp hstarts
          exact ⟨outputs', .inl h'⟩
        · exact ⟨outputs, .inr ⟨h, not_or.mpr ⟨hclears, hstarts⟩⟩⟩
    · rintro ⟨outputs, h | ⟨h, hnot⟩⟩
      · exact .inl (starts_iff.mpr ⟨outputs, h⟩)
      · exact .inr ⟨⟨outputs, h⟩, (not_or.mp hnot).1⟩

/-- If nothing was put aside at first, then what is put aside is what the latest start has put out. -/
theorem pending_invokes (hr : r.pending = none) :
    (r.invokes history).pending = some outputs ↔ r.StartedWith outputs history := by
  induction history using List.reverseRecOn with
  | nil => exact iff_of_false (by simp [invokes, hr]) not_since_nil
  | append_singleton history m ih =>
    rw [invokes_concat, pending_invoke, ih]
    exact since_concat.symm

theorem postprocess_after (hr : r.pending = none) (history : List Method) (device : Option Device) :
    (((r.invokes history).invoke (.stage .postprocess device)).1 = .ok () ↔ r.Started history) ∧
      (((r.invokes history).invoke (.stage .postprocess device)).1 = .ok () →
        r.StartedWith ((r.invokes history).invoke (.stage .postprocess device)).2.outputs history) := by
  refine ⟨?_, fun hok => (pending_invokes hr).mp (pending_of_postprocess hok)⟩
  rw [postprocess_eq_ok_iff, started_iff]
  exact exists_congr fun outputs => pending_invokes hr

theorem invoke_compiled (r : InferRequest) (m : Method) : (r.invoke m).2.compiled = r.compiled := by
  cases m with
  | bind name t =>
    obtain ⟨inputs, hrun⟩ := invoke_bind r name t
    rw [hrun]
  | stage stage device => exact Served.run_compiled stage ⟨r, device⟩

theorem invokes_compiled (r : InferRequest) (history : List Method) : (r.invokes history).compiled = r.compiled := by
  induction history using List.reverseRecOn with
  | nil => rfl
  | append_singleton history m ih => rw [invokes_concat, invoke_compiled, ih]

/-- Whatever was called before on a request, publishing succeeds if and only if a start has succeeded since the
inputs were checked last, be it with success or not, and since outputs were published last. What is stored then
is what the latest such start has put out. Waiting succeeds if and only if there is such a start and what the
latest has put out matches every result. No other call changes what is stored, nor does one that fails. And
what is published later was put out later, so that nothing is published twice. -/
theorem handedOver_once (c : CompiledModel) (history : List Method) (device : Option Device) :
    let new : InferRequest := { compiled := c }
    let r := new.invokes history
    let waited := r.invoke (.stage .wait device)
    let published := r.invoke (.stage .postprocess device)
    (published.1 = .ok () ↔ new.Started history) ∧
      (published.1 = .ok () → new.StartedWith published.2.outputs history) ∧
      (waited.1 = .ok () ↔ new.Started history ∧ ∀ outputs, new.StartedWith outputs history →
        ∀ node ∈ c.graph.results, ∃ t, outputs.find? node.name = some t ∧ t.desc = node.desc) ∧
      (∀ m, ((r.invoke m).1 ≠ .ok () ∨ ∀ device, m ≠ .stage .postprocess device) →
        (r.invoke m).2.outputs = r.outputs) ∧
      ∀ later device',
        let again := (published.2.invokes later).invoke (.stage .postprocess device')
        again.1 = .ok () → published.2.StartedWith again.2.outputs later := by
  intro new r waited published
  have hnew : new.pending = none := rfl
  have hgraph : r.graph = c.graph := congrArg CompiledModel.graph (invokes_compiled new history)
  obtain ⟨hok, hstored⟩ := postprocess_after hnew history device
  refine ⟨hok, hstored, ?_, fun m hm => outputs_invoke ?_, fun later device' => ?_⟩
  · have hpending (outputs : Dict Tensor) : r.pending = some outputs ↔ new.StartedWith outputs history :=
      pending_invokes hnew
    rw [wait_eq_ok_iff, started_iff, hgraph]
    simp only [← hpending, ← checkOutputs_eq_ok_iff]
    constructor
    · rintro ⟨outputs, hput, hcheck⟩
      refine ⟨⟨outputs, hput⟩, fun outputs' hput' => ?_⟩
      cases hput.symm.trans hput'
      exact hcheck
    · rintro ⟨⟨outputs, hput⟩, hcheck⟩
      exact ⟨outputs, hput, hcheck outputs hput⟩
  · rintro ⟨⟨device', rfl⟩, hsucceeds⟩
    rcases hm with hfails | hother
    · exact hfails hsucceeds
    · exact hother device' rfl
  · exact (postprocess_after (postprocess_pending r device) later device').2

/-- A start that fails leaves what an earlier one has put out. It is published once, and then what the next
start has put out. -/
theorem handedOver_once_restarted :
    let new : InferRequest := { compiled := Engine.mirrored }
    let alive : Option Device := some { backend := Engine.mirror }
    let history : List Method :=
      [.bind "x" Engine.byte, .stage .preprocess alive, .stage .start alive, .stage .start none]
    let published := (new.invokes history).invoke (.stage .postprocess alive)
    let again := (published.2.invokes [.stage .start alive]).invoke (.stage .postprocess alive)
    published.1 = .ok () ∧ new.StartedWith published.2.outputs history ∧
      (published.2.invoke (.stage .postprocess alive)).1 ≠ .ok () ∧
      again.1 = .ok () ∧ published.2.StartedWith again.2.outputs [.stage .start alive] := by
  intro new alive history published again
  obtain ⟨-, hstored, -, -, hlater⟩ := handedOver_once Engine.mirrored history alive
  have hok : published.1 = .ok () := rfl
  have hagain : again.1 = .ok () := rfl
  have hsecond : (published.2.invoke (.stage .postprocess alive)).1 ≠ .ok () := fun h =>
    not_since_nil (hlater [] alive h)
  exact ⟨hok, hstored hok, hsecond, hagain, hlater _ alive hagain⟩

/-! ## Calls in a row -/

/-- Stages that are run in a row come to single calls, the last of which may have failed. -/
theorem exists_invokes_runEach (order : List InferStage) (s : Served) :
    ∃ history, (Served.stages.runEach order s).2.request = s.request.invokes history := by
  induction order generalizing s with
  | nil => exact ⟨[], rfl⟩
  | cons stage rest ih =>
    have hstage : (Served.stages.run stage s).2.request = s.request.invokes [.stage stage s.device] := rfl
    simp only [Stages.runEach]
    generalize Served.stages.run stage s = ran at hstage
    obtain ⟨outcome, next⟩ := ran
    cases outcome with
    | ok value =>
      obtain ⟨history, hrest⟩ := ih next
      exact ⟨[.stage stage s.device] ++ history, by rw [invokes_append, ← hstage, hrest]⟩
    | error failure => exact ⟨_, hstage⟩
    | panic => exact ⟨_, hstage⟩

theorem exists_invokes_call (r : InferRequest) (call : Call) : ∃ history, r.call call = r.invokes history := by
  cases call with
  | bind name t =>
    refine ⟨[.bind name t], ?_⟩
    simp only [InferRequest.call, invokes, List.foldl, invoke]
    cases r.setTensor name t <;> rfl
  | run order device => exact exists_invokes_runEach order ⟨r, device⟩

theorem exists_invokes_calls (r : InferRequest) (history : List Call) :
    ∃ singly, r.calls history = r.invokes singly := by
  induction history generalizing r with
  | nil => exact ⟨[], rfl⟩
  | cons call later ih =>
    obtain ⟨first, hfirst⟩ := exists_invokes_call r call
    obtain ⟨rest, hrest⟩ := ih (r.call call)
    refine ⟨first ++ rest, ?_⟩
    rw [invokes_append, ← hfirst, ← hrest]
    rfl

end InferRequest

/-! ## Single calls in sessions and engines -/

theorem Stages.runEach_singleton {σ : Type} (stages : Stages σ) (stage : InferStage) (s : σ) :
    stages.runEach [stage] s = stages.run stage s := by
  simp only [runEach]
  generalize stages.run stage s = ran
  obtain ⟨outcome, next⟩ := ran
  cases outcome <;> rfl

open InferRequest

/-- This is what a session does when it is to run one stage. -/
theorem Session.State.onRequest_stage {s : Session.State} {rid : RequestId} {r : InferRequest}
    (hr : s.engine.state.requests rid = some r) (stage : InferStage) :
    let ran := r.invoke (.stage stage (s.engine.state.devices r.compiled.plugin))
    let effect := s.onRequest (.sync rid) (.stage stage)
    effect.reply = .answered (ran.1.map fun () => .done) ∧ effect.state.engine.state.requests rid = some ran.2 := by
  obtain ⟨houtcome, hrequest, -⟩ := Shared.runEach_spec [stage] hr
  rw [Served.stages.runEach_singleton] at houtcome hrequest
  refine ⟨?_, hrequest⟩
  simp only [onRequest, runSync]
  rw [houtcome]
  rfl

/-- And this is what it does when it is to bind a tensor. -/
theorem Session.State.onRequest_bind {s : Session.State} {rid : RequestId} {r : InferRequest}
    (hr : s.engine.state.requests rid = some r) (name : String) (t : Tensor) :
    let ran := r.invoke (.bind name t)
    let effect := s.onRequest (.sync rid) (.setTensor name (.ok t))
    effect.reply = .answered (ran.1.map fun () => .done) ∧ effect.state.engine.state.requests rid = some ran.2 := by
  simp only [onRequest, accessRequest, hr, invoke]
  cases r.setTensor name t with
  | error fault => exact ⟨rfl, hr⟩
  | ok bound => exact ⟨rfl, by simp [Except.map, Shared.setRequest]⟩

/-- Whatever is done with a request in an engine, tasks of several inferences among it, comes to single calls. -/
theorem Engine.Uses.exists_invokes {rid : RequestId} {c : CompiledModel} {start : Engine Shared}
    {m : Engine Shared × Option Task} {bound : List (String × Tensor)}
    (hstart : start.state.requests rid = some { compiled := c }) (h : Uses rid start m bound) :
    ∃ history, m.1.state.requests rid = some (({ compiled := c } : InferRequest).invokes history) := by
  obtain ⟨history, hr⟩ := h.exists_calls hstart
  obtain ⟨singly, hsingly⟩ := exists_invokes_calls { compiled := c } history
  exact ⟨singly, by rw [hr, hsingly]⟩

end DevicePlugin
