import DevicePlugin.Proofs.Request.Besides
import DevicePlugin.Proofs.Request.Cancelled
import DevicePlugin.Proofs.Request.Confined
import DevicePlugin.Proofs.Request.Fair

/-!
# Stages and callbacks that break off

A stage that breaks off spoils its request. The request is not stuck: whoever begins
later ends, and is told why. A callback that breaks off spoils nothing, and is not
noticed by anybody but its own inference.
-/

namespace DevicePlugin

namespace Engine

variable {σ : Type} {stages : RequestId → Stages σ} {allowed : Step σ → Prop} {c c' : Engine σ × Option Task}

/-! ## A request that is spoilt -/

structure Spoils (stages : RequestId → Stages σ) (e : Engine σ) (t : Task) : Prop where
  work : t.work = .start ∨ t.work = .finish
  sane : (e.requests t.request).poisoned = false
  breaks : ((stages t.request).runEach (stagesOf t.work) e.state).1 = .panic

theorem runTask_of_stages (stages : RequestId → Stages σ) (e : Engine σ) {t : Task}
    (hwork : t.work = .start ∨ t.work = .finish) :
    e.runTask stages t = runStages (stages t.request) (stagesOf t.work) e t := by
  rcases hwork with hwork | hwork <;> simp only [runTask, hwork, stagesOf]

theorem Spoils.left {e : Engine σ} {t : Task} (h : Spoils stages e t) :
    (((e.runTask stages t).1).requests t.request).poisoned = true ∧
      ((e.runTask stages t).1).inferences t.inference =
        { e.inferences t.inference with phase := (e.inferences t.inference).phase.answered t.work.hop .dropped } := by
  have hbreaks := h.breaks
  generalize hrun : (stages t.request).runEach (stagesOf t.work) e.state = run at hbreaks
  obtain ⟨outcome, state⟩ := run
  cases hbreaks
  rw [runTask_of_stages stages e h.work, runStages_eq _ _ h.sane hrun]
  refine ⟨?_, answer_inferences_self _ t .dropped⟩
  rw [poisoned_answer]
  simp [marked, setRequest]

section

variable {start : Engine σ × Option Task} {rid : RequestId} (hstart : Visited stages start)
  (hpoisoned : (start.1.requests rid).poisoned = true) (hkeeping : Keeping rid start.1 allowed)
include hstart hpoisoned hkeeping

end

theorem request_turns (ht : Turns stages allowed c c') {j : InferenceId} (hj : j < c.1.started) :
    j < c'.1.started ∧ (c'.1.inferences j).request = (c.1.inferences j).request := by
  induction ht with
  | refl => exact ⟨hj, rfl⟩
  | tail _ hturn ih => exact ⟨Nat.lt_of_lt_of_le ih.1 hturn.started_le, (hturn.request ih.1).trans ih.2⟩

/-- The inference that waited for the stages does not come to a good end. -/
theorem Spoils.failed {d : Engine σ} {t : Task} (h : Spoils stages d t) (hd : Visited stages (d, some t))
    (ht : Turns stages allowed ((d.runTask stages t).1, none) c) :
    (c.1.inferences t.inference).phase ≠ .settled (.ok ()) := by
  have hs : Sound d (some t) := hd.sound
  have hran : Turn stages (fun _ => True) (d, some t) ((d.runTask stages t).1, none) := .move .run
  have hknown : t.inference < d.started := hs.known t (.inl rfl)
  have hmade : t.inference < (d.runTask stages t).1.started := Nat.lt_of_lt_of_le hknown hran.started_le
  have hlost (x : String) : (.error (.infer (.droppedTask x)) : InferResult) ≠ .ok () := nofun
  -- No other task of the inference is on its way, so the loss of this one is all it can be told.
  have hconfined : Confined (· ≠ .ok ()) (fun _ => True) t.inference ((d.runTask stages t).1, none) [] := by
    refine ⟨fun t' hheld hj => absurd hj (hs.ran_alone hheld), by simp, ?_⟩
    rw [h.left.2]
    rcases hs.owed t (.inl rfl) with hphase | hphase | hphase <;> simp only [hphase]
    · rw [Phase.answered_awaiting]
      exact .inl hlost
    · exact .inr (.inr (.inl rfl))
    · trivial
  obtain ⟨hmade', hrequest⟩ := request_turns ht hmade
  have howned : ((d.runTask stages t).1.inferences t.inference).request = t.request :=
    (hran.request hknown).trans (hs.owned t (.inl rfl)).symm
  obtain ⟨more, -, -, hall⟩ := confined_turns (p := (· ≠ .ok ())) (hd.turns (.single hran)) h.left.1 nofun
    (.inl hlost) (fun _ _ => trivial) (.inr hconfined) ht
  intro hphase
  have htold := (hall hmade' (hrequest.trans howned)).phase
  rw [hphase] at htold
  exact (htold.told (by simp) (by simp) (by simp)).1 rfl

end Engine

end DevicePlugin
