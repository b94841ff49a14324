import DevicePlugin.Proofs.Property.History

/-!
# A configuration from its answers

A configuration answers for every setting and every name that it stores. Laid over
the default configuration, these answers make it again, since it has a stream at
least and stores nothing under the name of a setting.
-/

namespace DevicePlugin

/-- Pairs that all tell the same of a key may be added in any order. -/
theorem Dict.find?_insertMany_of_forall {α : Type} (f : String → Option α) {pairs : List (String × α)}
    (h : ∀ p ∈ pairs, f p.1 = some p.2) (d : Dict α) (k : String) :
    (d.insertMany pairs).find? k = if k ∈ pairs.map Prod.fst then f k else d.find? k := by
  induction pairs generalizing d with
  | nil => rfl
  | cons p pairs ih =>
    have hrest := ih (fun p hp => h p (List.mem_cons_of_mem _ hp)) (d.insert p.1 p.2)
    have hfirst := h p (List.mem_cons_self ..)
    rw [insertMany, List.foldl_cons, ← insertMany, hrest, find?_insert, List.map_cons]
    by_cases hk : k = p.1
    · subst hk
      rw [if_pos rfl, if_pos (List.mem_cons_self ..), hfirst, ite_self]
    · simp only [List.mem_cons, hk, false_or, if_false]

theorem Dict.exists_least {α : Type} {d : Dict α} (h : d ≠ .empty) :
    ∃ name v, d.find? name = some v ∧ ∀ other w, d.find? other = some w → other ≠ name → name < other := by
  obtain ⟨entries, hsorted⟩ := d
  cases entries with
  | nil => exact absurd rfl h
  | cons e entries =>
    obtain ⟨name, v⟩ := e
    refine ⟨name, v, mem_entries_iff.1 (List.mem_cons_self ..), fun other w hother hne => ?_⟩
    rcases List.mem_cons.1 (mem_entries_iff.2 hother) with heq | hmem
    · cases heq
      exact absurd rfl hne
    · exact (List.pairwise_cons.1 hsorted).1 (other, w) hmem

theorem Setting.mem_all (s : Setting) : s ∈ all := by
  cases s with
  | deviceId => decide
  | profiling => decide
  | untransformed => decide
  | stream o => cases o <;> decide

open Setting (Recognized)

namespace Configuration

inductive Reachable : Configuration → Prop
  | default : Reachable {}
  | apply {host : Host} {c next : Configuration} {properties : PropertyMap} {strict : Bool} :
      1 ≤ host.parallelism.toNat → Reachable c → c.apply host properties strict = .ok next → Reachable next
  | merged {host : Host} {c next : Configuration} {overrides : PropertyMap} :
      1 ≤ host.parallelism.toNat → Reachable c → c.merged host overrides = .ok next → Reachable next
  | yaml {host : Host} {c next : Configuration} {text : String} :
      1 ≤ host.parallelism.toNat → Reachable c → c.applyYaml host text = .ok next → Reachable next

/-! ## What readings keep -/

structure Sound (c : Configuration) : Prop where
  streams_ne_zero : c.streams.streams ≠ 0
  settings_not_stored : ∀ name, Recognized name → c.extra.find? name = none
  executor : c.streams.name = ({} : StreamsConfig).name

theorem Sound.apply {host : Host} (hhost : 1 ≤ host.parallelism.toNat) {c next : Configuration} (hc : c.Sound)
    {properties : PropertyMap} {strict : Bool} (h : c.apply host properties strict = .ok next) : next.Sound := by
  have hauto : host.parallelism ≠ 0 := fun hzero => by simp [hzero] at hhost
  have hlayered := (apply_eq_ok_iff.1 h).2
  refine ⟨apply_streams_ne_zero hauto hc.streams_ne_zero h, fun name hname => ?_,
    hlayered.executor.trans hc.executor⟩
  rw [hlayered.settingsNotStored name hname, hc.settings_not_stored name hname]

theorem Reachable.sound {c : Configuration} (h : c.Reachable) : c.Sound := by
  induction h with
  | default => exact ⟨default_streams_ne_zero, fun _ _ => rfl, rfl⟩
  | apply hhost _ h ih => exact ih.apply hhost h
  | merged hhost _ h ih => exact ih.apply hhost h
  | yaml hhost _ h ih =>
    unfold applyYaml at h
    split at h
    · cases h
    · exact ih.apply hhost h

/-! ## Answers -/

def names (c : Configuration) : List String := Setting.all.map Setting.name ++ c.extra.entries.map Prod.fst

def answers (c : Configuration) : PropertyMap :=
  .ofList (c.names.filterMap fun name => (c.get name).toOption.map fun v => (name, v))

theorem get_name (c : Configuration) (s : Setting) : c.get s.name = .ok (c.setting s) := by
  rw [get, Setting.ofName?_name]

theorem get_eq_of_not_recognized (c : Configuration) {name : String} (h : ¬Recognized name) :
    (c.get name).toOption = c.extra.find? name := by
  rw [get, Setting.ofName?_eq_none_iff.2 h]
  cases c.extra.find? name <;> rfl

theorem mem_names_iff {c : Configuration} {name : String} :
    name ∈ c.names ↔ Recognized name ∨ ∃ v, c.extra.find? name = some v := by
  rw [names, List.mem_append]
  refine or_congr ?_ ?_
  · constructor
    · intro h
      obtain ⟨s, -, hs⟩ := List.mem_map.1 h
      exact ⟨s, hs⟩
    · rintro ⟨s, rfl⟩
      exact List.mem_map_of_mem s.mem_all
  · constructor
    · intro h
      obtain ⟨e, he, rfl⟩ := List.mem_map.1 h
      exact ⟨e.2, Dict.mem_entries_iff.1 he⟩
    · rintro ⟨v, hv⟩
      exact List.mem_map_of_mem (f := Prod.fst) (Dict.mem_entries_iff.2 hv)

theorem mem_names_iff_get {c : Configuration} {name : String} : name ∈ c.names ↔ ∃ v, c.get name = .ok v := by
  rw [mem_names_iff]
  by_cases h : Recognized name
  · obtain ⟨s, rfl⟩ := h
    exact iff_of_true (.inl ⟨s, rfl⟩) ⟨_, c.get_name s⟩
  · rw [← get_eq_of_not_recognized c h]
    cases c.get name <;> simp [h, Except.toOption]

theorem find?_answers (c : Configuration) (name : String) : c.answers.find? name = (c.get name).toOption := by
  have hpairs : ∀ p ∈ c.names.filterMap fun name => (c.get name).toOption.map fun v => (name, v),
      (c.get p.1).toOption = some p.2 := by
    intro p hp
    obtain ⟨name, -, hname⟩ := List.mem_filterMap.1 hp
    obtain ⟨v, hv, rfl⟩ := Option.map_eq_some_iff.1 hname
    exact hv
  rw [answers, Dict.ofList, Dict.find?_insertMany_of_forall (fun name => (c.get name).toOption) hpairs, Dict.find?_empty]
  split
  · rfl
  · rename_i hnot
    cases hget : c.get name with
    | error fault => rfl
    | ok v =>
      refine absurd ?_ hnot
      refine List.mem_map.2 ⟨(name, v), List.mem_filterMap.2 ⟨name, mem_names_iff_get.2 ⟨v, hget⟩, ?_⟩, rfl⟩
      simp [hget, Except.toOption]

/-! ## Answers laid over the default -/

section
variable {c : Configuration} (hc : c.Sound)
include hc

theorem Sound.layered (host : Host) : ({} : Configuration).Layered host c.answers.find? c := by
  refine ⟨fun s v hv => ?_, fun s hs => ?_, hc.settings_not_stored, fun name hname => ?_, hc.executor⟩
  · rw [find?_answers, get_name] at hv
    cases hv
    exact s.reads_setting host hc.streams_ne_zero
  · rw [find?_answers, get_name] at hs
    cases hs
  · rw [find?_answers, get_eq_of_not_recognized c hname]
    exact (Option.or_none).symm

theorem Sound.accepts (host : Host) (strict : Bool) {name : String} (h : Recognized name) {v : PropertyValue}
    (hv : c.answers.find? name = some v) : Accepts host strict name v := by
  obtain ⟨s, rfl⟩ := h
  rw [find?_answers, get_name] at hv
  cases hv
  exact .read (s.reads_setting host hc.streams_ne_zero)

theorem Sound.apply_relaxed (host : Host) : ({} : Configuration).apply host c.answers false = .ok c := by
  refine apply_eq_ok_iff.2 ⟨fun name v hv => ?_, hc.layered host⟩
  by_cases hname : Recognized name
  · exact hc.accepts host false hname hv
  · exact .stored hname rfl

theorem Sound.apply_strict_of_empty (host : Host) (hempty : c.extra = .empty) :
    ({} : Configuration).apply host c.answers true = .ok c := by
  refine apply_eq_ok_iff.2 ⟨fun name v hv => ?_, hc.layered host⟩
  by_cases hname : Recognized name
  · exact hc.accepts host true hname hv
  · rw [find?_answers, get_eq_of_not_recognized c hname, hempty] at hv
    cases hv

/-- The first stored name is the first that a strict reading does not know. -/
theorem Sound.apply_strict_of_stored (host : Host) {name : String} {v : PropertyValue}
    (hfound : c.extra.find? name = some v)
    (hleast : ∀ other w, c.extra.find? other = some w → other ≠ name → name < other) :
    ({} : Configuration).apply host c.answers true = .error (.unknown name) := by
  have hname : ¬Recognized name := fun h => by
    rw [hc.settings_not_stored name h] at hfound
    cases hfound
  refine apply_eq_error_iff.2 ⟨name, v, ?_, .unknown hname rfl, fun other w hother hlt => ?_⟩
  · rw [find?_answers, get_eq_of_not_recognized c hname, hfound]
  · by_cases hrecognized : Recognized other
    · exact hc.accepts host true hrecognized hother
    · rw [find?_answers, get_eq_of_not_recognized c hrecognized] at hother
      have hne : other ≠ name := fun heq => String.lt_irrefl name (heq ▸ hlt)
      exact absurd (String.lt_trans hlt (hleast other w hother hne)) (String.lt_irrefl _)

end

/-- A configuration that readings have made of the default answers all its names, and these answers make it again
of the default. A strict reading of them makes it exactly if nothing is stored, and otherwise does not know the
stored name with the least bytes. -/
theorem apply_answers {c : Configuration} (h : c.Reachable) (host : Host) :
    let again (strict : Bool) := ({} : Configuration).apply host c.answers strict
    (∀ s : Setting, s.name ∈ c.names) ∧ (∀ name v, c.extra.find? name = some v → name ∈ c.names) ∧
    (∀ name ∈ c.names, ∃ v, c.get name = .ok v ∧ c.answers.find? name = some v) ∧
    (∀ name, name ∉ c.names → c.answers.find? name = none) ∧
    again false = .ok c ∧
    (again true = .ok c ↔ c.extra = .empty) ∧
    (c.extra ≠ .empty → ∃ name v, c.extra.find? name = some v ∧
      (∀ other w, c.extra.find? other = some w → other ≠ name → Bytes.ofText name < Bytes.ofText other) ∧
      again true = .error (.unknown name)) := by
  intro again
  have hc := h.sound
  refine ⟨fun s => mem_names_iff.2 (.inl ⟨s, rfl⟩), fun name v hv => mem_names_iff.2 (.inr ⟨v, hv⟩),
    fun name hname => ?_, fun name hname => ?_, hc.apply_relaxed host, ⟨fun hok => ?_, hc.apply_strict_of_empty host⟩,
    fun hempty => ?_⟩
  · obtain ⟨v, hv⟩ := mem_names_iff_get.1 hname
    exact ⟨v, hv, by rw [find?_answers, hv]; rfl⟩
  · rw [find?_answers]
    cases hget : c.get name with
    | error fault => rfl
    | ok v => exact absurd (mem_names_iff_get.2 ⟨v, hget⟩) hname
  · by_contra hempty
    obtain ⟨name, v, hfound, hleast⟩ := Dict.exists_least hempty
    cases hok.symm.trans (hc.apply_strict_of_stored host hfound hleast)
  · obtain ⟨name, v, hfound, hleast⟩ := Dict.exists_least hempty
    refine ⟨name, v, hfound, ?_, hc.apply_strict_of_stored host hfound hleast⟩
    simpa only [Bytes.ofText_lt_iff] using hleast

/-- Readings of all kinds, on hosts that differ. -/
theorem apply_answers_tuned :
    let c : Configuration :=
      { deviceId := 3, profiling := true, streams := { streams := 12, threadsPerStream := 2 }
        extra := .ofList [("knob", .names []), ("über", .texts ["x"])] }
    c.Reachable ∧ apply ⟨1⟩ {} c.answers false = .ok c ∧ apply ⟨1⟩ {} c.answers true = .error (.unknown "knob") := by
  intro c
  let first : PropertyMap := .ofList [("num_streams", .text "AUTO"), ("über", .texts ["x"]), ("knob", .int (-1))]
  let second : PropertyMap := .ofList [("knob", .names []), ("enable_profiling", .text "yes")]
  let third : PropertyMap := .ofList [("threads_per_stream", .text "02")]
  let c₁ : Configuration :=
    { streams := { streams := 12 }, extra := .ofList [("knob", .int (-1)), ("über", .texts ["x"])] }
  let c₂ : Configuration := { c₁ with profiling := true, extra := c.extra }
  let c₃ : Configuration := { c₂ with streams := c.streams }
  have h₁ : apply ⟨12⟩ {} first false = .ok c₁ := by decide +kernel
  have h₂ : c₁.apply ⟨8⟩ second false = .ok c₂ := by decide +kernel
  have h₃ : c₂.merged ⟨4⟩ third = .ok c₃ := by decide +kernel
  have h₄ : c₃.applyYaml ⟨6⟩ "device_id: 3" = .ok c := by decide +kernel
  have hreachable : c.Reachable :=
    .yaml (by decide) (.merged (by decide) (.apply (by decide) (.apply (by decide) .default h₁) h₂) h₃) h₄
  obtain ⟨-, -, -, -, hrelaxed, -, hstrict⟩ := apply_answers hreachable ⟨1⟩
  obtain ⟨name, v, hfound, hleast, herror⟩ := hstrict (by decide +kernel)
  have hknob : c.extra.find? "knob" = some (.names []) := by decide +kernel
  by_cases hname : name = "knob"
  · subst hname
    exact ⟨hreachable, hrelaxed, herror⟩
  · have hmem : name ∈ c.extra.entries.map Prod.fst :=
      List.mem_map_of_mem (f := Prod.fst) (Dict.mem_entries_iff.2 hfound)
    have hless : ∀ other ∈ c.extra.entries.map Prod.fst, ¬Bytes.ofText other < Bytes.ofText "knob" := by decide +kernel
    exact absurd (hleast "knob" _ hknob (Ne.symm hname)) (hless name hmem)

end Configuration

end DevicePlugin
