import DevicePlugin.Proofs.Request.Part
import DevicePlugin.Proofs.Request.Progress

/-!
# Fair schedules

Steps may come in any order for ever. If an inference is polled again as long as it
is open, and no executor keeps one of its tasks for ever, then the inference ends.
-/

namespace DevicePlugin

theorem Phase.rank_answered_le (hop : Hop) (reply : Reply) (phase : Phase) : (phase.answered hop reply).rank ≤ phase.rank := by
  unfold answered
  split
  · rename_i waited
    split
    · cases waited <;> cases reply <;> simp [rank]
    · exact Nat.le_refl _
  · exact Nat.le_refl _

/-- Waiting for a task of the hop is told by the rank alone. -/
theorem Phase.eq_waiting_of_rank {phase : Phase} {hop : Hop} (h : phase.rank = (Phase.awaiting hop .waiting).rank) :
    phase = .awaiting hop .waiting := by
  cases phase with
  | awaiting hop' reply => cases hop <;> cases hop' <;> cases reply <;> simp_all [rank]
  | _ => cases hop <;> simp [rank] at h

theorem Phase.isOpen_of_rank_pos {phase : Phase} (h : 0 < phase.rank) : phase.isOpen = true := by
  cases phase with
  | created => rfl
  | awaiting hop reply => rfl
  | settled result => cases h
  | panicked => cases h
  | abandoned => cases h

namespace Engine

variable {σ : Type} {stages : RequestId → Stages σ} {allowed : Step σ → Prop}

theorem Due.rank_lt {e : Engine σ} {j : InferenceId} {work : Work} (h : e.Due j work) :
    (Phase.awaiting work.hop .waiting).rank < (e.inferences j).phase.rank := by
  cases h with
  | finish hphase => simp [hphase, Work.hop, Phase.rank]
  | notify callback result hc hresult hcallback =>
    cases hc with
    | start failure hphase => simp [hphase, Work.hop, Phase.rank]
    | finish _ hphase => simp [hphase, Work.hop, Phase.rank]
    | dropped hop hhop hphase executor =>
      rw [hphase]
      cases hop with
      | start => simp [Work.hop, Phase.rank]
      | finish => simp [Work.hop, Phase.rank]
      | notify => exact absurd rfl hhop

theorem Turn.rank_le {c c' : Engine σ × Option Task} (h : Turn stages allowed c c') {j : InferenceId}
    (hj : j < c.1.started) : (c'.1.inferences j).phase.rank ≤ (c.1.inferences j).phase.rank := by
  obtain ⟨more, -, hpart⟩ := h.part j
  cases hpart with
  | aside hsame hquiet hknown => exact Nat.le_of_eq (by rw [hsame])
  | made hnew hstarted hphase => exact absurd hj (hnew ▸ Nat.lt_irrefl _)
  | busy _ hphase hnext =>
    rw [hnext]
    exact Nat.zero_le _
  | begin _ hphase hnext hhand =>
    rw [hnext, hphase]
    simp [Phase.rank]
  | hand _ hdue htripped hnext hhand =>
    rw [hnext]
    exact Nat.le_of_lt hdue.rank_lt
  | ran hhand htask hends hnext =>
    rw [hnext]
    exact Phase.rank_answered_le _ _ _
  | lost hheld htask hlost hnext =>
    rw [hnext]
    exact Phase.rank_answered_le _ _ _
  | settle _ hsettles hnext =>
    rw [hnext]
    exact Nat.zero_le _
  | breakOff _ hphase hnext =>
    rw [hnext]
    exact Nat.zero_le _
  | abandon _ hopen hnext =>
    rw [hnext]
    exact Nat.zero_le _

theorem Turns.rank_le {c c' : Engine σ × Option Task} (h : Turns stages allowed c c') {j : InferenceId}
    (hj : j < c.1.started) :
    j < c'.1.started ∧ (c'.1.inferences j).phase.rank ≤ (c.1.inferences j).phase.rank := by
  induction h with
  | refl => exact ⟨hj, Nat.le_refl _⟩
  | tail _ hturn ih =>
    exact ⟨Nat.lt_of_lt_of_le ih.1 hturn.started_le, Nat.le_trans (hturn.rank_le ih.1) ih.2⟩

/-- An inference that is new was made by a call that is allowed. -/
theorem Turn.made {c c' : Engine σ × Option Task} (h : Turn stages allowed c c') {j : InferenceId}
    (hj : ¬ j < c.1.started) (hj' : j < c'.1.started) : allowed (.infer (c'.1.inferences j).request) := by
  cases h with
  | move hmove => exact absurd (hmove.inferences.1 ▸ hj') hj
  | defer => exact absurd hj' hj
  | @call e s hcall hallowed =>
    have hdoes := step_does stages e hcall
    generalize e.step stages s = next at hdoes hj' ⊢
    cases hdoes with
    | infer rid =>
      have heq : j = e.started := Nat.le_antisymm (Nat.le_of_lt_succ hj') (Nat.le_of_not_lt hj)
      simpa [Engine.infer, setInference, heq] using hallowed
    | lose htake =>
      obtain ⟨-, executor, rfl⟩ := takeTask_eq htake
      simp only [answer_started] at hj'
      exact absurd hj' hj
    | _ => exact absurd hj' hj

theorem Awaited.turn {c c' : Engine σ × Option Task} (h : Awaited c.1 c.2) (hs : Sound c.1 c.2)
    (ht : Turn stages allowed c c') : Awaited c'.1 c'.2 := by
  cases ht with
  | move hmove => exact h.move hmove
  | defer => exact h.queued
  | call hcall hallowed => exact h.step hs stages _

theorem Visited.awaited {c : Engine σ × Option Task} (h : Visited stages c) : Awaited c.1 c.2 := by
  refine h.invariant (p := fun c => Awaited c.1 c.2) (fun start hnew => ?_) fun c c' hc hawaited ht => ?_
  · intro id hid
    rw [hnew.started] at hid
    cases hid
  · exact hawaited.turn hc.sound ht

/-! ## Schedules -/

def after (stages : RequestId → Stages σ) (e : Engine σ) (schedule : Nat → Step σ) : Nat → Engine σ
  | 0 => e
  | n + 1 => (after stages e schedule n).step stages (schedule n)

/-- An inference is polled again while it is open, and none of its tasks is kept for ever. -/
structure Fair (stages : RequestId → Stages σ) (e : Engine σ) (schedule : Nat → Step σ) (j : InferenceId) : Prop where
  polled : ∀ n, ((e.after stages schedule n).inferences j).phase.isOpen = true →
    ∃ m ≥ n, ∃ preferReply, schedule m = .poll j preferReply
  ran : ∀ n x t, t ∈ ((e.after stages schedule n).executors x).queue → t.inference = j →
    ∃ m ≥ n, ∃ y position, schedule m = .runQueued y position ∧
      ((e.after stages schedule m).executors y).queue[position]? = some t

section

variable {e : Engine σ} {schedule : Nat → Step σ}

theorem after_add (n k : Nat) :
    e.after stages schedule (n + k) = (e.after stages schedule n).after stages (fun m => schedule (n + m)) k := by
  induction k with
  | zero => rfl
  | succ k ih => rw [← Nat.add_assoc, after, ih, after]

theorem sound_after (hs : Sound e none) (n : Nat) : Sound (e.after stages schedule n) none := by
  induction n with
  | zero => exact hs
  | succ n ih => exact ih.step stages (schedule n)

theorem awaited_after (hs : Sound e none) (ha : Awaited e none) (n : Nat) :
    Awaited (e.after stages schedule n) none := by
  induction n with
  | zero => exact ha
  | succ n ih => exact ih.step (sound_after hs n) stages (schedule n)

theorem after_turns (hs : Sound e none) (hallowed : ∀ n, allowed (schedule n)) (n : Nat) :
    Turns stages allowed (e, none) (e.after stages schedule n, none) := by
  induction n with
  | zero => exact .refl
  | succ n ih => exact ih.trans (step_turns (sound_after hs n) (hallowed n))

theorem after_rank_le (hs : Sound e none) {j : InferenceId} (hj : j < e.started) {n m : Nat} (hnm : n ≤ m) :
    ((e.after stages schedule m).inferences j).phase.rank ≤ ((e.after stages schedule n).inferences j).phase.rank := by
  obtain ⟨k, rfl⟩ := Nat.exists_eq_add_of_le hnm
  have hbefore : Turns stages (fun _ => True) (e, none) (e.after stages schedule n, none) :=
    after_turns hs (fun _ => trivial) n
  have hsince : Turns stages (fun _ => True) (e.after stages schedule n, none)
      ((e.after stages schedule n).after stages (fun m => schedule (n + m)) k, none) :=
    after_turns (sound_after hs n) (fun _ => trivial) k
  rw [after_add]
  exact (Turns.rank_le hsince (Turns.rank_le hbefore hj).1).2

/-- Polling brings an inference on that does not wait, and so does running the task that it waits for. -/
theorem Fair.rank_lt (hs : Sound e none) (ha : Awaited e none) {j : InferenceId} (hj : j < e.started)
    (hfair : Fair stages e schedule j) {n : Nat} (hrank : 0 < ((e.after stages schedule n).inferences j).phase.rank) :
    ∃ m, ((e.after stages schedule m).inferences j).phase.rank <
      ((e.after stages schedule n).inferences j).phase.rank := by
  have hknown (m : Nat) : j < (e.after stages schedule m).started :=
    (Turns.rank_le (after_turns hs (fun _ => trivial) m : Turns stages (fun _ => True) _ _) hj).1
  by_cases hwaiting : ∃ hop, ((e.after stages schedule n).inferences j).phase = .awaiting hop .waiting
  · obtain ⟨hop, hwaiting⟩ := hwaiting
    obtain ⟨t, ht, htask, hhop⟩ := awaited_after hs ha n j (hknown n) hop hwaiting
    obtain ⟨x, hx⟩ := holds_none.mp ht
    obtain ⟨m, hm, y, position, hstep, hget⟩ := hfair.ran n x t hx htask
    rcases Nat.lt_or_eq_of_le (after_rank_le hs hj hm) with hlt | heq
    · exact ⟨m, hlt⟩
    · -- The inference still waits for this task when it runs.
      rw [hwaiting] at heq
      have hphase := Phase.eq_waiting_of_rank heq
      subst htask hhop
      refine ⟨m + 1, ?_⟩
      rw [after, hstep, step, hwaiting, ← heq]
      exact runQueued_rank_lt stages hget hphase
  · obtain ⟨m, hm, preferReply, hstep⟩ := hfair.polled n (Phase.isOpen_of_rank_pos hrank)
    rcases Nat.lt_or_eq_of_le (after_rank_le hs hj hm) with hlt | heq
    · exact ⟨m, hlt⟩
    · refine ⟨m + 1, ?_⟩
      rw [after, hstep, step, if_pos (hknown m), ← heq]
      refine poll_rank_lt stages (heq ▸ hrank) (fun hop hphase => hwaiting ⟨hop, ?_⟩) preferReply
      rw [hphase] at heq
      exact Phase.eq_waiting_of_rank heq.symm

theorem Fair.ended (hs : Sound e none) (ha : Awaited e none) {j : InferenceId} (hj : j < e.started)
    (hfair : Fair stages e schedule j) : ∃ n, ((e.after stages schedule n).inferences j).phase.isOpen = false := by
  -- By induction on the rank, which some later step lowers as long as it is positive.
  have hfrom : ∀ rank n, ((e.after stages schedule n).inferences j).phase.rank = rank →
      ∃ n, ((e.after stages schedule n).inferences j).phase.isOpen = false := by
    intro rank
    induction rank using Nat.strongRecOn with
    | ind rank ih =>
      intro n hn
      by_cases hrank : 0 < ((e.after stages schedule n).inferences j).phase.rank
      · obtain ⟨m, hlt⟩ := hfair.rank_lt hs ha hj hrank
        exact ih _ (hn ▸ hlt) m rfl
      · exact ⟨n, Phase.isOpen_of_rank_eq_zero (Nat.eq_zero_of_not_pos hrank)⟩
  exact hfrom _ 0 rfl

end

end Engine

end DevicePlugin
