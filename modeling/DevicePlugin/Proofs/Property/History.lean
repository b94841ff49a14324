import Mathlib.Data.List.Induction
import DevicePlugin.Property.Script
import DevicePlugin.Proofs.Property.Layers

/-!
# Configurations over whole histories

A configuration that started as the default has a stream at least, keeps nothing
under the names of settings, and keeps each other name with the value that the
last relaxed step gave it.
-/

namespace DevicePlugin

/-! ## Streams -/

namespace StreamsConfig

structure InRange (c : StreamsConfig) : Prop where
  one_le_streams : 1 ≤ c.streams.toNat
  streams_lt : c.streams.toNat < UInt32.size
  threads_lt : c.threads.toNat < UInt32.size
  threadsPerStream_lt : c.threadsPerStream.toNat < UInt32.size

theorem inRange_iff {c : StreamsConfig} : c.InRange ↔ c.streams ≠ 0 := by
  have hstreams : c.streams ≠ 0 ↔ c.streams.toNat ≠ 0 := not_congr UInt32.toNat_inj.symm
  constructor
  · intro h
    have hone := h.one_le_streams
    exact hstreams.2 (by omega)
  · intro h
    exact ⟨Nat.one_le_iff_ne_zero.2 (hstreams.1 h), c.streams.toNat_lt_size, c.threads.toNat_lt_size,
      c.threadsPerStream.toNat_lt_size⟩

variable {host : Host}

theorem assign_streams_ne_zero (hauto : host.parallelism ≠ 0) {c next : StreamsConfig} {option : StreamOption}
    {value : PropertyValue} (hc : c.streams ≠ 0) (h : c.assign host option value = .ok next) :
    next.streams ≠ 0 := by
  rcases (Setting.stream option).reads_or_refuses host value with ⟨a, ha⟩ | ⟨fault, hfault⟩
  · obtain ⟨_, hnext, hsets⟩ := assign_of_reads ha c
    cases h.symm.trans hnext
    by_cases hcount : option = .count
    · subst hcount
      exact Setting.Reads.streams_ne_zero hauto (hsets.option ▸ ha)
    · rw [ofNat32_inj (hsets.others .count (Ne.symm hcount))]
      exact hc
  · cases h.symm.trans (assign_of_refuses hfault c)

theorem step_streams_ne_zero (hauto : host.parallelism ≠ 0) {c : StreamsConfig} (hc : c.streams ≠ 0)
    (s : StreamsStep) : (c.step host s).2.streams ≠ 0 := by
  cases s with
  | set name value =>
    simp only [step]
    split
    · rename_i next hnext
      unfold setProperty at hnext
      split at hnext
      · exact assign_streams_ne_zero hauto hc hnext
      · cases hnext
    · exact hc
  | get name => exact hc
  | isSupported name => exact hc

def after (c : StreamsConfig) (history : List (Host × StreamsStep)) : StreamsConfig :=
  history.foldl (fun c move => (c.step move.1 move.2).2) c

theorem run_eq_after (host : Host) (c : StreamsConfig) (steps : List StreamsStep) :
    (c.run host steps).2 = c.after (steps.map (Prod.mk host)) := by
  induction steps generalizing c with
  | nil => rfl
  | cons s steps ih => exact ih (c.step host s).2

theorem after_streams_ne_zero {history : List (Host × StreamsStep)}
    (hauto : ∀ move ∈ history, move.1.parallelism ≠ 0) {c : StreamsConfig} (hc : c.streams ≠ 0) :
    (c.after history).streams ≠ 0 := by
  induction history generalizing c with
  | nil => exact hc
  | cons move history ih =>
    have hnext : (c.step move.1 move.2).2.streams ≠ 0 :=
      step_streams_ne_zero (hauto move List.mem_cons_self) hc move.2
    exact ih (fun later hlater => hauto later (List.mem_cons_of_mem _ hlater)) hnext

end StreamsConfig

open Setting (Recognized)

namespace Configuration

variable {host : Host}

structure InRange (c : Configuration) : Prop where
  deviceId_lt : c.deviceId.toNat < UInt32.size
  streams : c.streams.InRange

/-! ## One layer of properties -/

section
variable {strict : Bool} {c next : Configuration} {properties : PropertyMap}

theorem apply_streams_ne_zero (hauto : host.parallelism ≠ 0) (hc : c.streams.streams ≠ 0)
    (h : c.apply host properties strict = .ok next) : next.streams.streams ≠ 0 := by
  have hlayered := (apply_eq_ok_iff.1 h).2
  cases hgiven : properties.find? (Setting.stream .count).name with
  | some v => exact (hlayered.read (.stream .count) v hgiven).streams_ne_zero hauto
  | none =>
    rw [ofNat32_inj (hlayered.kept (.stream .count) hgiven)]
    exact hc

theorem apply_extra (h : c.apply host properties strict = .ok next) (name : String) :
    next.extra.find? name =
      if Setting.ofName? name = none then (properties.find? name).or (c.extra.find? name)
      else c.extra.find? name := by
  have hlayered := (apply_eq_ok_iff.1 h).2
  split
  · rename_i hname
    exact hlayered.stored name (Setting.ofName?_eq_none_iff.1 hname)
  · rename_i hname
    exact hlayered.settingsNotStored name (not_not.1 (mt Setting.ofName?_eq_none_iff.2 hname))

/-- What a strict reading accepts is no more than settings. -/
theorem apply_strict_extra (h : c.apply host properties true = .ok next) : next.extra = c.extra := by
  obtain ⟨haccepts, hlayered⟩ := apply_eq_ok_iff.1 h
  refine Dict.ext_find? fun name => ?_
  by_cases hname : Recognized name
  · exact hlayered.settingsNotStored name hname
  · rw [hlayered.stored name hname]
    cases hgiven : properties.find? name with
    | none => rfl
    | some v =>
      cases haccepts name v hgiven with
      | read => exact absurd ⟨_, rfl⟩ hname
      | stored _ hstrict => cases hstrict

end

/-! ## One step -/

theorem default_streams_ne_zero : ({} : Configuration).streams.streams ≠ 0 := by decide

theorem replaced_streams_ne_zero (hauto : host.parallelism ≠ 0) {c : Configuration} (hc : c.streams.streams ≠ 0)
    (properties : PropertyMap) (strict : Bool) :
    (c.replaced (c.apply host properties strict)).2.streams.streams ≠ 0 := by
  cases happly : c.apply host properties strict with
  | error fault => exact hc
  | ok next => exact apply_streams_ne_zero hauto hc happly

theorem step_streams_ne_zero (hauto : host.parallelism ≠ 0) {c : Configuration} (hc : c.streams.streams ≠ 0)
    (s : ConfigStep) : (c.step host s).2.streams.streams ≠ 0 := by
  cases s with
  | apply properties strict => exact replaced_streams_ne_zero hauto hc properties strict
  | merge properties => exact replaced_streams_ne_zero hauto hc properties true
  | yaml text =>
    simp only [step, applyYaml]
    split
    · exact hc
    · exact replaced_streams_ne_zero hauto hc _ true
  | reset => exact default_streams_ne_zero
  | get name => exact hc

theorem replaced_strict_extra (c : Configuration) (properties : PropertyMap) :
    (c.replaced (c.apply host properties true)).2.extra = c.extra := by
  cases happly : c.apply host properties true with
  | error fault => rfl
  | ok next => exact apply_strict_extra happly

end Configuration

def ConfigStep.Stores (host : Host) (c : Configuration) (s : ConfigStep) (name : String) (value : PropertyValue) :
    Prop :=
  ∃ properties next, s = .apply properties false ∧ c.apply host properties false = .ok next ∧
    Setting.ofName? name = none ∧ properties.find? name = some value

namespace Configuration

variable {host : Host}

def StoredAfter (host : Host) (c : Configuration) (s : ConfigStep) (name : String) (value : PropertyValue) : Prop :=
  s.Stores host c name value ∨
    (c.extra.find? name = some value ∧ s ≠ .reset ∧ ∀ other, ¬ s.Stores host c name other)

theorem storedAfter_of_extra (c : Configuration) (s : ConfigStep) (hextra : (c.step host s).2.extra = c.extra)
    (hreset : s ≠ .reset) (hnone : ∀ name value, ¬ s.Stores host c name value) (name : String)
    (value : PropertyValue) :
    (c.step host s).2.extra.find? name = some value ↔ StoredAfter host c s name value := by
  rw [hextra]
  constructor
  · intro h
    exact .inr ⟨h, hreset, hnone name⟩
  · rintro (h | ⟨h, -⟩)
    · exact absurd h (hnone name value)
    · exact h

theorem stored_relaxed (c : Configuration) (properties : PropertyMap) (name : String) (value : PropertyValue) :
    (c.step host (.apply properties false)).2.extra.find? name = some value ↔
      StoredAfter host c (.apply properties false) name value := by
  cases happly : c.apply host properties false with
  | error fault =>
    refine storedAfter_of_extra c (.apply properties false) ?_ nofun ?_ name value
    · simp only [step, happly, replaced]
    · rintro name value ⟨_, next, ⟨⟩, hnext, -⟩
      rw [happly] at hnext
      cases hnext
  | ok next =>
    have hnext : (c.step host (.apply properties false)).2 = next := by simp only [step, happly, replaced]
    have hstores : ∀ value, (ConfigStep.apply properties false).Stores host c name value ↔
        Setting.ofName? name = none ∧ properties.find? name = some value := by
      intro value
      constructor
      · rintro ⟨_, _, ⟨⟩, -, h⟩
        exact h
      · intro h
        exact ⟨properties, next, rfl, happly, h⟩
    rw [hnext, apply_extra happly, StoredAfter]
    simp only [hstores]
    by_cases hname : Setting.ofName? name = none
    · cases properties.find? name <;> simp [hname]
    · simp [hname]

theorem stored_step (c : Configuration) (s : ConfigStep) (name : String) (value : PropertyValue) :
    (c.step host s).2.extra.find? name = some value ↔ StoredAfter host c s name value := by
  cases s with
  | apply properties strict =>
    cases strict with
    | true =>
      refine storedAfter_of_extra c (.apply properties true) (replaced_strict_extra c properties) nofun ?_ name value
      rintro _ _ ⟨_, _, ⟨⟩, -⟩
    | false => exact stored_relaxed c properties name value
  | merge properties =>
    refine storedAfter_of_extra c (.merge properties) (replaced_strict_extra c properties) nofun ?_ name value
    rintro _ _ ⟨_, _, ⟨⟩, -⟩
  | yaml text =>
    refine storedAfter_of_extra c (.yaml text) ?_ nofun ?_ name value
    · simp only [step, applyYaml]
      split
      · rfl
      · exact replaced_strict_extra c _
    · rintro _ _ ⟨_, _, ⟨⟩, -⟩
  | reset =>
    constructor
    · intro h
      cases h
    · rintro (⟨_, _, ⟨⟩, -⟩ | ⟨-, hreset, -⟩)
      exact absurd rfl hreset
  | get asked =>
    refine storedAfter_of_extra c (.get asked) rfl nofun ?_ name value
    rintro _ _ ⟨_, _, ⟨⟩, -⟩

/-! ## Histories -/

def reached (history : List (Host × ConfigStep)) : Configuration :=
  history.foldl (fun c move => (c.step move.1 move.2).2) {}

theorem run_eq_reached (host : Host) (steps : List ConfigStep) :
    (run host {} steps).2 = reached (steps.map (Prod.mk host)) := by
  unfold reached
  generalize ({} : Configuration) = c
  induction steps generalizing c with
  | nil => rfl
  | cons s steps ih => exact ih (c.step host s).2

theorem reached_concat (history : List (Host × ConfigStep)) (host : Host) (s : ConfigStep) :
    reached (history ++ [(host, s)]) = ((reached history).step host s).2 :=
  List.foldl_concat _ _ _ _

/-- Of all steps, the last that stores something under the name stores the value, and none after it starts
again from the default. -/
def LastStored (history : List (Host × ConfigStep)) (name : String) (value : PropertyValue) : Prop :=
  ∃ (i : Nat) (host : Host) (s : ConfigStep), history[i]? = some (host, s) ∧
    s.Stores host (reached (history.take i)) name value ∧
    ∀ (j : Nat) (host : Host) (later : ConfigStep), i < j → history[j]? = some (host, later) →
      later ≠ .reset ∧ ∀ other, ¬ later.Stores host (reached (history.take j)) name other

theorem not_lastStored_nil {name : String} {value : PropertyValue} : ¬ LastStored [] name value := by
  rintro ⟨i, host, s, hs, -⟩
  simp at hs

theorem getElem?_concat_iff {α : Type} {as : List α} {a b : α} {i : Nat} :
    (as ++ [a])[i]? = some b ↔ i < as.length ∧ as[i]? = some b ∨ i = as.length ∧ a = b := by
  rcases Nat.lt_trichotomy i as.length with hlt | rfl | hgt
  · simp [List.getElem?_append_left hlt, hlt, Nat.ne_of_lt hlt]
  · simp
  · have hlength : (as ++ [a]).length ≤ i := by
      rw [List.length_append, List.length_singleton]
      exact hgt
    simp [List.getElem?_eq_none hlength, Nat.not_lt_of_gt hgt, Nat.ne_of_gt hgt]

section
variable {history : List (Host × ConfigStep)} {s : ConfigStep} {name : String} {value : PropertyValue}

theorem lastStored_concat_of_stores (h : s.Stores host (reached history) name value) :
    LastStored (history ++ [(host, s)]) name value := by
  refine ⟨history.length, host, s, getElem?_concat_iff.2 (.inr ⟨rfl, rfl⟩), ?_, fun j _ later hj hget => ?_⟩
  · rwa [List.take_left]
  · rcases getElem?_concat_iff.1 hget with ⟨hlt, -⟩ | ⟨heq, -⟩ <;> omega

theorem lastStored_concat_of_kept (h : LastStored history name value) (hreset : s ≠ .reset)
    (hnone : ∀ other, ¬ s.Stores host (reached history) name other) :
    LastStored (history ++ [(host, s)]) name value := by
  obtain ⟨i, first, step, hstep, hstores, hlater⟩ := h
  have hi : i < history.length := (List.getElem?_eq_some_iff.1 hstep).1
  refine ⟨i, first, step, getElem?_concat_iff.2 (.inl ⟨hi, hstep⟩), ?_, fun j host' later hij hget => ?_⟩
  · rwa [List.take_append_of_le_length (Nat.le_of_lt hi)]
  · rcases getElem?_concat_iff.1 hget with ⟨hlt, hget⟩ | ⟨rfl, hlast⟩
    · rw [List.take_append_of_le_length (Nat.le_of_lt hlt)]
      exact hlater j host' later hij hget
    · cases hlast
      rw [List.take_left]
      exact ⟨hreset, hnone⟩

end

theorem lastStored_concat (history : List (Host × ConfigStep)) (s : ConfigStep) (name : String)
    (value : PropertyValue) :
    LastStored (history ++ [(host, s)]) name value ↔
      s.Stores host (reached history) name value ∨
        (LastStored history name value ∧ s ≠ .reset ∧ ∀ other, ¬ s.Stores host (reached history) name other) := by
  constructor
  · rintro ⟨i, first, step, hstep, hstores, hlater⟩
    rcases getElem?_concat_iff.1 hstep with ⟨hi, hstep⟩ | ⟨rfl, hlast⟩
    · -- The last step comes after the one that has stored the value.
      obtain ⟨hreset, hnone⟩ := hlater history.length host s hi (getElem?_concat_iff.2 (.inr ⟨rfl, rfl⟩))
      rw [List.take_left] at hnone
      rw [List.take_append_of_le_length (Nat.le_of_lt hi)] at hstores
      refine .inr ⟨⟨i, first, step, hstep, hstores, fun j host' later hij hget => ?_⟩, hreset, hnone⟩
      have hj : j < history.length := (List.getElem?_eq_some_iff.1 hget).1
      rw [← List.take_append_of_le_length (Nat.le_of_lt hj)]
      exact hlater j host' later hij (getElem?_concat_iff.2 (.inl ⟨hj, hget⟩))
    · cases hlast
      rw [List.take_left] at hstores
      exact .inl hstores
  · rintro (hstores | ⟨hstored, hreset, hnone⟩)
    · exact lastStored_concat_of_stores hstores
    · exact lastStored_concat_of_kept hstored hreset hnone

theorem reached_streams_ne_zero {history : List (Host × ConfigStep)}
    (hauto : ∀ move ∈ history, move.1.parallelism ≠ 0) : (reached history).streams.streams ≠ 0 := by
  induction history using List.reverseRecOn with
  | nil => exact default_streams_ne_zero
  | append_singleton history move ih =>
    rw [reached_concat]
    have hbefore := ih fun earlier hearlier => hauto earlier (List.mem_append_left _ hearlier)
    exact step_streams_ne_zero (hauto move (by simp)) hbefore move.2

theorem reached_extra (history : List (Host × ConfigStep)) (name : String) (value : PropertyValue) :
    (reached history).extra.find? name = some value ↔ LastStored history name value := by
  induction history using List.reverseRecOn with
  | nil =>
    refine iff_of_false ?_ not_lastStored_nil
    intro h
    cases h
  | append_singleton history move ih => rw [reached_concat, stored_step, StoredAfter, ih, lastStored_concat]

theorem reached_setting (history : List (Host × ConfigStep)) (s : Setting) :
    (reached history).extra.find? s.name = none := by
  cases hfound : (reached history).extra.find? s.name with
  | none => rfl
  | some value =>
    obtain ⟨i, host, step, -, ⟨_, _, -, -, hnone, -⟩, -⟩ := (reached_extra history s.name value).1 hfound
    rw [Setting.ofName?_name] at hnone
    cases hnone

/-- Over any history from the default configuration, or from the default stream settings, there is always a
stream and all numbers are in range, no setting's name is stored, and what is stored is what successful relaxed
steps gave to other names, each with its last value. Each step may be taken on a host of its own, which has some
parallelism; a run takes all of them on one. -/
theorem history_invariant :
    (∀ history : List (Host × ConfigStep), (∀ move ∈ history, 1 ≤ move.1.parallelism.toNat) →
      (reached history).InRange ∧
        (∀ s : Setting, (reached history).extra.find? s.name = none) ∧
        ∀ name value, (reached history).extra.find? name = some value ↔ LastStored history name value) ∧
    (∀ history : List (Host × StreamsStep), (∀ move ∈ history, 1 ≤ move.1.parallelism.toNat) →
      (StreamsConfig.after {} history).InRange) ∧
    ∀ host : Host,
      (∀ steps : List ConfigStep, (run host {} steps).2 = reached (steps.map (Prod.mk host))) ∧
        ∀ steps : List StreamsStep, (StreamsConfig.run host {} steps).2 = .after {} (steps.map (Prod.mk host)) := by
  have hne {host : Host} (hauto : 1 ≤ host.parallelism.toNat) : host.parallelism ≠ 0 := by
    rintro hzero
    rw [hzero] at hauto
    exact absurd hauto (by decide)
  refine ⟨?_, ?_, fun host => ⟨run_eq_reached host, StreamsConfig.run_eq_after host {}⟩⟩
  · intro history hauto
    have hstreams := StreamsConfig.inRange_iff.2 (reached_streams_ne_zero fun move hmove => hne (hauto move hmove))
    exact ⟨⟨(reached history).deviceId.toNat_lt_size, hstreams⟩, reached_setting history, reached_extra history⟩
  · intro history hauto
    refine StreamsConfig.inRange_iff.2 (StreamsConfig.after_streams_ne_zero (fun move hmove => ?_) (by decide))
    exact hne (hauto move hmove)

/-- The hosts differ, and two steps are refused. -/
theorem history_invariant_refused :
    let history : List (Host × ConfigStep) :=
      [(⟨8⟩, .apply (.ofList [("num_streams", .text "Auto"), ("x", .bool true)]) false),
        (⟨8⟩, .apply (.ofList [("num_streams", .int 0), ("x", .bool false)]) false),
        (⟨2⟩, .merge (.ofList [("x", .uint 1)])),
        (⟨2⟩, .apply (.ofList [("device_id", .text " +3"), ("x", .texts [])]) false),
        (⟨4⟩, .merge (.ofList [("num_streams", .text "AUTO")]))]
    (∀ move ∈ history, 1 ≤ move.1.parallelism.toNat) ∧ (reached history).InRange ∧
      (reached history).streams.streams = 4 ∧ (reached history).extra.find? "device_id" = none ∧
      LastStored history "x" (.texts []) := by
  intro history
  have hauto : ∀ move ∈ history, 1 ≤ move.1.parallelism.toNat := by
    simp [history]
  have h := history_invariant.1 history hauto
  have hfound : (reached history).extra.find? "x" = some (.texts []) := by decide +kernel
  exact ⟨hauto, h.1, by decide +kernel, h.2.1 .deviceId, (h.2.2 "x" (.texts [])).1 hfound⟩

end Configuration

end DevicePlugin
