import DevicePlugin.Proofs.Property.Reading
import DevicePlugin.Proofs.Text.Order

/-!
# Layers of properties

Properties laid over a configuration are taken one by one, but what comes out can
be said of all at once: each setting has what it reads under its name, or what it
had, and the other names are stored. Whether an entry is accepted depends on the
entry alone, and of the entries that are not, the one with the least name gives
the fault.
-/

namespace DevicePlugin

namespace Setting

def Recognized (name : String) : Prop := ∃ s : Setting, s.name = name

theorem ofName?_eq_none_iff {name : String} : ofName? name = none ↔ ¬Recognized name := by
  constructor
  · rintro h ⟨s, rfl⟩
    rw [ofName?_name] at h
    cases h
  · intro h
    cases hs : ofName? name with
    | none => rfl
    | some s => exact absurd ⟨s, name_of_ofName? hs⟩ h

theorem recognized_iff {name : String} :
    Recognized name ↔
      name ∈ ["device_id", "enable_profiling", "disable_transformations"] ++ StreamsConfig.supportedNames := by
  constructor
  · rintro ⟨s, rfl⟩
    cases s with
    | deviceId => decide
    | profiling => decide
    | untransformed => decide
    | stream o => cases o <;> decide
  · intro h
    simp only [StreamsConfig.supportedNames, StreamOption.all, List.map_cons, List.map_nil, List.cons_append,
      List.nil_append, List.mem_cons, List.not_mem_nil, or_false] at h
    rcases h with rfl | rfl | rfl | rfl | rfl | rfl
    · exact ⟨.deviceId, rfl⟩
    · exact ⟨.profiling, rfl⟩
    · exact ⟨.untransformed, rfl⟩
    · exact ⟨.stream .count, rfl⟩
    · exact ⟨.stream .threads, rfl⟩
    · exact ⟨.stream .threadsPerStream, rfl⟩

theorem name_injective {s t : Setting} (h : s.name = t.name) : s = t := by
  have hs := ofName?_name s
  rw [h, ofName?_name] at hs
  exact (Option.some.inj hs).symm

end Setting

open Setting (Recognized)

namespace Configuration

/-! ## One entry -/

inductive Accepts (host : Host) (strict : Bool) : String → PropertyValue → Prop
  | read {s : Setting} {v a : PropertyValue} : s.Reads host v a → Accepts host strict s.name v
  | stored {name : String} {v : PropertyValue} : ¬Recognized name → strict = false → Accepts host strict name v

inductive Faults (strict : Bool) : String → PropertyValue → PropertyFault → Prop
  | refused {s : Setting} {v : PropertyValue} {fault : ValueFault} : s.Refuses v fault →
      Faults strict s.name v (.invalid s.name fault)
  | unknown {name : String} {v : PropertyValue} : ¬Recognized name → strict = true →
      Faults strict name v (.unknown name)

/-- The configuration `next` is `c` with properties over it, given by name. -/
structure Layered (host : Host) (c : Configuration) (given : String → Option PropertyValue) (next : Configuration) :
    Prop where
  read : ∀ (s : Setting) (v : PropertyValue), given s.name = some v → s.Reads host v (next.setting s)
  kept : ∀ s : Setting, given s.name = none → next.setting s = c.setting s
  settingsNotStored : ∀ name, Recognized name → next.extra.find? name = c.extra.find? name
  stored : ∀ name, ¬Recognized name → next.extra.find? name = (given name).or (c.extra.find? name)
  executor : next.streams.name = c.streams.name

section
variable {host : Host} {strict : Bool}

theorem accepts_or_faults (host : Host) (strict : Bool) (name : String) (v : PropertyValue) :
    Accepts host strict name v ∨ ∃ fault, Faults strict name v fault := by
  by_cases h : Recognized name
  · obtain ⟨s, rfl⟩ := h
    rcases s.reads_or_refuses host v with ⟨a, ha⟩ | ⟨fault, hfault⟩
    · exact .inl (.read ha)
    · exact .inr ⟨_, .refused hfault⟩
  · cases strict with
    | false => exact .inl (.stored h rfl)
    | true => exact .inr ⟨_, .unknown h rfl⟩

def only (name : String) (v : PropertyValue) (k : String) : Option PropertyValue := if k = name then some v else none

theorem put_of_accepts {name : String} {v : PropertyValue} (h : Accepts host strict name v) (c : Configuration) :
    ∃ next, c.put host strict name v = .ok next ∧ c.Layered host (only name v) next := by
  cases h with
  | @read s _ a h =>
    obtain ⟨next, hnext, hsets⟩ := assign_of_reads h c
    refine ⟨next, by rw [put, Setting.ofName?_name]; exact hnext, ?_, ?_, fun _ _ => by rw [hsets.extra], ?_,
      hsets.executor⟩
    · intro other w hw
      obtain ⟨hname, hw⟩ := Option.ite_none_right_eq_some.1 hw
      cases hw
      obtain rfl := Setting.name_injective hname
      rwa [hsets.setting]
    · intro other hother
      refine hsets.others other ?_
      rintro rfl
      simp [only] at hother
    · intro name hname
      have hne : name ≠ s.name := fun heq => hname ⟨s, heq.symm⟩
      rw [only, if_neg hne, hsets.extra, Option.none_or]
  | @stored name _ hname hstrict =>
    subst hstrict
    have hother {k : String} (hk : Recognized k) : k ≠ name := fun heq => hname (heq ▸ hk)
    refine ⟨{ c with extra := c.extra.insert name v }, by simp [put, Setting.ofName?_eq_none_iff.2 hname], ?_,
      fun s _ => by cases s <;> rfl, ?_, ?_, rfl⟩
    · intro s w hw
      rw [only, if_neg (hother ⟨s, rfl⟩)] at hw
      cases hw
    · intro k hk
      rw [Dict.find?_insert, if_neg (hother hk)]
    · intro k _
      rw [Dict.find?_insert, only]
      split <;> simp

theorem put_of_faults {name : String} {v : PropertyValue} {fault : PropertyFault} (h : Faults strict name v fault)
    (c : Configuration) : c.put host strict name v = .error fault := by
  cases h with
  | refused h =>
    rw [put, Setting.ofName?_name]
    exact assign_of_refuses h c
  | unknown hname hstrict =>
    subst hstrict
    simp [put, Setting.ofName?_eq_none_iff.2 hname]

theorem Accepts.not_faults {name : String} {v : PropertyValue} (h : Accepts host strict name v)
    {fault : PropertyFault} : ¬Faults strict name v fault := by
  intro hfault
  obtain ⟨next, hnext, -⟩ := put_of_accepts h {}
  cases hnext.symm.trans (put_of_faults hfault {})

end

/-! ## One layer over another -/

/-- A configuration is no more than its settings, what it stores and the name of its executor. -/
theorem ext_setting {c d : Configuration} (hsetting : ∀ s, c.setting s = d.setting s)
    (hextra : ∀ name, c.extra.find? name = d.extra.find? name) (hname : c.streams.name = d.streams.name) : c = d := by
  obtain ⟨deviceId, profiling, untransformed, ⟨name, streams, threads, threadsPerStream⟩, extra⟩ := c
  obtain ⟨deviceId', profiling', untransformed', ⟨name', streams', threads', threadsPerStream'⟩, extra'⟩ := d
  have hdevice : deviceId = deviceId' := ofNat32_inj (hsetting .deviceId)
  have hprofiling : profiling = profiling' := PropertyValue.bool.inj (hsetting .profiling)
  have huntransformed : untransformed = untransformed' := PropertyValue.bool.inj (hsetting .untransformed)
  have hstreams : streams = streams' := ofNat32_inj (hsetting (.stream .count))
  have hthreads : threads = threads' := ofNat32_inj (hsetting (.stream .threads))
  have hperStream : threadsPerStream = threadsPerStream' := ofNat32_inj (hsetting (.stream .threadsPerStream))
  have hsame : extra = extra' := Dict.ext_find? hextra
  cases hname
  subst hdevice hprofiling huntransformed hstreams hthreads hperStream hsame
  rfl

namespace Layered

variable {host : Host} {c c₁ c₂ : Configuration} {given given₁ given₂ : String → Option PropertyValue}

theorem refl (host : Host) (c : Configuration) : c.Layered host (fun _ => none) c :=
  ⟨nofun, fun _ _ => rfl, fun _ _ => rfl, fun _ _ => (Option.none_or).symm, rfl⟩

/-- The layer on top counts where it gives something. -/
theorem trans (h₁ : c.Layered host given₁ c₁) (h₂ : c₁.Layered host given₂ c₂) :
    c.Layered host (fun name => (given₂ name).or (given₁ name)) c₂ := by
  refine ⟨fun s v hv => ?_, fun s hs => ?_, fun name hname => ?_, fun name hname => ?_, ?_⟩
  · cases htop : given₂ s.name with
    | some w =>
      simp only [htop, Option.some_or, Option.some.injEq] at hv
      exact h₂.read s v (hv ▸ htop)
    | none =>
      simp only [htop, Option.none_or] at hv
      rw [h₂.kept s htop]
      exact h₁.read s v hv
  · obtain ⟨htop, hbelow⟩ := Option.or_eq_none_iff.1 hs
    rw [h₂.kept s htop, h₁.kept s hbelow]
  · rw [h₂.settingsNotStored name hname, h₁.settingsNotStored name hname]
  · rw [h₂.stored name hname, h₁.stored name hname, Option.or_assoc]
  · rw [h₂.executor, h₁.executor]

theorem unique (h₁ : c.Layered host given c₁) (h₂ : c.Layered host given c₂) : c₁ = c₂ := by
  refine ext_setting (fun s => ?_) (fun name => ?_) (h₁.executor.trans h₂.executor.symm)
  · cases hgiven : given s.name with
    | some v => exact (h₁.read s v hgiven).unique (h₂.read s v hgiven)
    | none => rw [h₁.kept s hgiven, h₂.kept s hgiven]
  · by_cases hname : Recognized name
    · rw [h₁.settingsNotStored name hname, h₂.settingsNotStored name hname]
    · rw [h₁.stored name hname, h₂.stored name hname]

end Layered

/-! ## All entries -/

section
variable {host : Host} {strict : Bool} {entries : List (String × PropertyValue)}

theorem putAll_of_accepts (hsorted : Entries.Sorted entries) (h : ∀ e ∈ entries, Accepts host strict e.1 e.2)
    (c : Configuration) :
    ∃ next, c.putAll host strict entries = .ok next ∧ c.Layered host (fun name => Entries.find? name entries) next := by
  induction entries generalizing c with
  | nil => exact ⟨c, rfl, .refl host c⟩
  | cons e entries ih =>
    obtain ⟨name, v⟩ := e
    obtain ⟨hless, hrest⟩ := List.pairwise_cons.1 hsorted
    obtain ⟨middle, hmiddle, hfirst⟩ := put_of_accepts (h (name, v) (List.mem_cons_self ..)) c
    obtain ⟨next, hnext, hlayered⟩ := ih hrest (fun e he => h e (List.mem_cons_of_mem _ he)) middle
    refine ⟨next, by simp only [putAll, hmiddle, hnext], ?_⟩
    have hgiven : (fun k => Entries.find? k ((name, v) :: entries)) =
        fun k => (Entries.find? k entries).or (only name v k) := by
      funext k
      by_cases hk : k = name
      · -- The entries after this one have greater names.
        subst hk
        have hlater : Entries.find? k entries = none := Entries.find?_eq_none_of_lt hless
        simp [Entries.find?, only, hlater]
      · simp [Entries.find?, only, hk]
    rw [hgiven]
    exact hfirst.trans hlayered

theorem putAll_of_faults {before after : List (String × PropertyValue)} {name : String} {v : PropertyValue}
    {fault : PropertyFault} (h : ∀ e ∈ before, Accepts host strict e.1 e.2) (hfault : Faults strict name v fault)
    (c : Configuration) : c.putAll host strict (before ++ (name, v) :: after) = .error fault := by
  induction before generalizing c with
  | nil => simp only [List.nil_append, putAll, put_of_faults hfault c]
  | cons e before ih =>
    obtain ⟨middle, hmiddle, -⟩ := put_of_accepts (h e (List.mem_cons_self ..)) c
    simp only [List.cons_append, putAll, hmiddle]
    exact ih (fun e he => h e (List.mem_cons_of_mem _ he)) middle

/-- In order of names, each entry is accepted or there is a first that is not. -/
theorem exists_first_fault (host : Host) (strict : Bool) (entries : List (String × PropertyValue)) :
    (∀ e ∈ entries, Accepts host strict e.1 e.2) ∨
      ∃ before name v after fault, entries = before ++ (name, v) :: after ∧
        (∀ e ∈ before, Accepts host strict e.1 e.2) ∧ Faults strict name v fault := by
  induction entries with
  | nil => exact .inl nofun
  | cons e entries ih =>
    obtain ⟨name, v⟩ := e
    rcases accepts_or_faults host strict name v with haccepts | ⟨fault, hfault⟩
    · rcases ih with hall | ⟨before, name', v', after, fault, rfl, hbefore, hfault⟩
      · exact .inl (List.forall_mem_cons.2 ⟨haccepts, hall⟩)
      · exact .inr ⟨(name, v) :: before, name', v', after, fault, rfl,
          List.forall_mem_cons.2 ⟨haccepts, hbefore⟩, hfault⟩
    · exact .inr ⟨[], name, v, entries, fault, rfl, nofun, hfault⟩

theorem mem_before_iff {before after : List (String × PropertyValue)} {name : String} {v : PropertyValue}
    (hsorted : Entries.Sorted (before ++ (name, v) :: after)) {e : String × PropertyValue} :
    e ∈ before ↔ e ∈ before ++ (name, v) :: after ∧ e.1 < name := by
  obtain ⟨-, hafter, hbefore⟩ := List.pairwise_append.1 hsorted
  constructor
  · intro he
    exact ⟨List.mem_append_left _ he, hbefore e he (name, v) (List.mem_cons_self ..)⟩
  · rintro ⟨he, hlt⟩
    rcases List.mem_append.1 he with he | he
    · exact he
    · rcases List.mem_cons.1 he with rfl | he
      · exact absurd hlt (String.lt_irrefl _)
      · exact absurd (String.lt_trans hlt ((List.pairwise_cons.1 hafter).1 e he)) (String.lt_irrefl _)

end

/-! ## A property map -/

section
variable {host : Host} {strict : Bool} {properties : PropertyMap}

theorem apply_of_accepts (h : ∀ name v, properties.find? name = some v → Accepts host strict name v)
    (c : Configuration) :
    ∃ next, c.apply host properties strict = .ok next ∧ c.Layered host properties.find? next :=
  putAll_of_accepts properties.sorted (fun e he => h e.1 e.2 (Dict.mem_entries_iff.1 he)) c

theorem apply_of_faults {name : String} {v : PropertyValue} {fault : PropertyFault}
    (hfound : properties.find? name = some v) (hfault : Faults strict name v fault)
    (hless : ∀ other w, properties.find? other = some w → other < name → Accepts host strict other w)
    (c : Configuration) : c.apply host properties strict = .error fault := by
  obtain ⟨before, after, hentries⟩ := List.append_of_mem (Dict.mem_entries_iff.2 hfound)
  have hsorted := properties.sorted
  rw [hentries] at hsorted
  rw [apply, hentries]
  refine putAll_of_faults (fun e he => ?_) hfault c
  obtain ⟨hmem, hlt⟩ := (mem_before_iff hsorted).1 he
  exact hless e.1 e.2 (Dict.mem_entries_iff.1 (hentries ▸ hmem)) hlt

theorem accepts_or_least_faults (host : Host) (strict : Bool) (properties : PropertyMap) :
    (∀ name v, properties.find? name = some v → Accepts host strict name v) ∨
      ∃ name v fault, properties.find? name = some v ∧ Faults strict name v fault ∧
        ∀ other w, properties.find? other = some w → other < name → Accepts host strict other w := by
  rcases exists_first_fault host strict properties.entries with hall | ⟨before, name, v, after, fault, hentries, hbefore, hfault⟩
  · exact .inl fun name v hfound => hall (name, v) (Dict.mem_entries_iff.2 hfound)
  · have hsorted := properties.sorted
    rw [hentries] at hsorted
    refine .inr ⟨name, v, fault, ?_, hfault, fun other w hfound hlt => ?_⟩
    · rw [← Dict.mem_entries_iff, hentries]
      exact List.mem_append_right _ (List.mem_cons_self ..)
    · have hmem := Dict.mem_entries_iff.2 hfound
      rw [hentries] at hmem
      exact hbefore (other, w) ((mem_before_iff hsorted).2 ⟨hmem, hlt⟩)

theorem apply_eq_ok_iff {c next : Configuration} :
    c.apply host properties strict = .ok next ↔
      (∀ name v, properties.find? name = some v → Accepts host strict name v) ∧
        c.Layered host properties.find? next := by
  constructor
  · intro h
    rcases accepts_or_least_faults host strict properties with hall | ⟨name, v, fault, hfound, hfault, hless⟩
    · obtain ⟨next', hnext', hlayered⟩ := apply_of_accepts hall c
      cases h.symm.trans hnext'
      exact ⟨hall, hlayered⟩
    · cases h.symm.trans (apply_of_faults hfound hfault hless c)
  · rintro ⟨hall, hlayered⟩
    obtain ⟨next', hnext', hlayered'⟩ := apply_of_accepts hall c
    rw [hnext', hlayered.unique hlayered']

theorem apply_eq_error_iff {c : Configuration} {fault : PropertyFault} :
    c.apply host properties strict = .error fault ↔
      ∃ name v, properties.find? name = some v ∧ Faults strict name v fault ∧
        ∀ other w, properties.find? other = some w → other < name → Accepts host strict other w := by
  constructor
  · intro h
    rcases accepts_or_least_faults host strict properties with hall | ⟨name, v, fault', hfound, hfault, hless⟩
    · obtain ⟨next, hnext, -⟩ := apply_of_accepts hall c
      cases h.symm.trans hnext
    · cases h.symm.trans (apply_of_faults hfound hfault hless c)
      exact ⟨name, v, hfound, hfault, hless⟩
  · rintro ⟨name, v, hfound, hfault, hless⟩
    exact apply_of_faults hfound hfault hless c

theorem accepts_iff_not_faults {name : String} {v : PropertyValue} :
    Accepts host strict name v ↔ ∀ fault, ¬Faults strict name v fault := by
  constructor
  · exact fun h fault => h.not_faults
  · intro h
    rcases accepts_or_faults host strict name v with haccepts | ⟨fault, hfault⟩
    · exact haccepts
    · exact absurd hfault (h fault)

end

/-! ## Which names are known -/

theorem get_eq_error_iff {c : Configuration} {name : String} {fault : PropertyFault} :
    c.get name = .error fault ↔ fault = .unknown name ∧ ¬Recognized name ∧ c.extra.find? name = none := by
  rw [← Setting.ofName?_eq_none_iff, get]
  cases Setting.ofName? name with
  | some s => simp
  | none => cases c.extra.find? name <;> simp [eq_comm]

end Configuration

namespace StreamsConfig

/-- All that goes by a name takes it for the name of an option. -/
structure Knows (host : Host) (c : StreamsConfig) (name : String) : Prop where
  supported : isSupported name = true
  listed : name ∈ supportedNames
  answers : ∃ v, c.getProperty name = .ok v
  assigns : ∃ v next, c.setProperty host name v = .ok next
  refuses : ∀ v fault, c.setProperty host name v = .error fault → ∃ reason, fault = .invalid name reason

structure Ignores (host : Host) (c : StreamsConfig) (name : String) : Prop where
  supported : isSupported name = false
  listed : name ∉ supportedNames
  answers : c.getProperty name = .error (.unknown name)
  assigns : ∀ v, c.setProperty host name v = .error (.unknown name)

theorem mem_supportedNames_iff {name : String} : name ∈ supportedNames ↔ isSupported name = true := by
  constructor
  · intro h
    obtain ⟨o, -, rfl⟩ := List.mem_map.1 h
    rw [isSupported, StreamOption.ofName?_name, Option.isSome_some]
  · intro h
    obtain ⟨o, ho⟩ := Option.isSome_iff_exists.1 h
    have hall : o ∈ StreamOption.all := by cases o <;> decide
    exact List.mem_map.2 ⟨o, hall, StreamOption.name_of_ofName? ho⟩

theorem knows_name (host : Host) (c : StreamsConfig) (o : StreamOption) : c.Knows host o.name := by
  have hsupported : isSupported o.name = true := by rw [isSupported, StreamOption.ofName?_name, Option.isSome_some]
  have hset (v : PropertyValue) : c.setProperty host o.name v = c.assign host o v := by
    rw [setProperty, StreamOption.ofName?_name]
  refine ⟨hsupported, mem_supportedNames_iff.2 hsupported, ⟨c.get o, ?_⟩, ?_, fun v fault h => ?_⟩
  · rw [getProperty, StreamOption.ofName?_name]
  · have hone : (Setting.stream o).Reads host (.uint 1) (.uint 1) :=
      .number (by cases o <;> decide) (.uint 1) (by decide) (fun _ => by decide)
    obtain ⟨next, hnext, -⟩ := assign_of_reads hone c
    exact ⟨_, next, (hset _).trans hnext⟩
  · rw [hset] at h
    rcases (Setting.stream o).reads_or_refuses host v with ⟨a, ha⟩ | ⟨reason, hreason⟩
    · obtain ⟨next, hnext, -⟩ := assign_of_reads ha c
      cases h.symm.trans hnext
    · cases h.symm.trans (assign_of_refuses hreason c)
      exact ⟨reason, rfl⟩

theorem knows_or_ignores (host : Host) (c : StreamsConfig) (name : String) :
    c.Knows host name ∨ c.Ignores host name := by
  cases ho : StreamOption.ofName? name with
  | some o =>
    obtain rfl := StreamOption.name_of_ofName? ho
    exact .inl (c.knows_name host o)
  | none =>
    have hsupported : isSupported name = false := by rw [isSupported, ho, Option.isSome_none]
    refine .inr ⟨hsupported, ?_, by rw [getProperty, ho], fun v => by rw [setProperty, ho]⟩
    rw [mem_supportedNames_iff, hsupported]
    decide

end StreamsConfig

namespace Configuration

/-! A configuration leaves the names of stream options to its stream settings. -/

theorem put_of_isSupported {name : String} (h : StreamsConfig.isSupported name = true) (host : Host) (strict : Bool)
    (c : Configuration) (v : PropertyValue) :
    c.put host strict name v = (c.streams.setProperty host name v).map fun streams => { c with streams } := by
  obtain ⟨o, ho⟩ := Option.isSome_iff_exists.1 h
  obtain rfl := StreamOption.name_of_ofName? ho
  have hname : Setting.ofName? o.name = some (.stream o) := Setting.ofName?_name (.stream o)
  rw [put, hname, StreamsConfig.setProperty, ho]
  exact assign_stream

theorem get_of_isSupported {name : String} (h : StreamsConfig.isSupported name = true) (c : Configuration) :
    c.get name = c.streams.getProperty name := by
  obtain ⟨o, ho⟩ := Option.isSome_iff_exists.1 h
  obtain rfl := StreamOption.name_of_ofName? ho
  have hname : Setting.ofName? o.name = some (.stream o) := Setting.ofName?_name (.stream o)
  rw [get, hname, StreamsConfig.getProperty, ho]
  rfl

/-! ## The meaning of all properties at once -/

/-- Properties are accepted exactly when each of them is, and then each setting has what it reads under its name,
or its older value, and all other names are stored over the older ones. Otherwise the fault is that of the entry
whose name has the least bytes of those that are not accepted. What comes out answers every name that is
recognized or stored and no other, and the recognized names are three and those that stream settings know. -/
theorem apply_entrywise (host : Host) (defaults : Configuration) (properties : PropertyMap) (strict : Bool) :
    let outcome := defaults.apply host properties strict
    ((∃ next, outcome = .ok next) ↔ ∀ name v, properties.find? name = some v → Accepts host strict name v) ∧
    (∀ next, outcome = .ok next →
      defaults.Layered host properties.find? next ∧
        ∀ name fault, next.get name = .error fault ↔
          fault = .unknown name ∧ ¬Recognized name ∧ next.extra.find? name = none) ∧
    (∀ fault, outcome = .error fault ↔
      ∃ name v, properties.find? name = some v ∧ Faults strict name v fault ∧
        ∀ other w, properties.find? other = some w → Bytes.ofText other < Bytes.ofText name →
          Accepts host strict other w) ∧
    (∀ name v, Accepts host strict name v ↔ ∀ fault, ¬Faults strict name v fault) ∧
    (∀ name, Recognized name ↔
      name ∈ ["device_id", "enable_profiling", "disable_transformations"] ++ StreamsConfig.supportedNames) ∧
    ∀ (streams : StreamsConfig) (name : String), streams.Knows host name ∨ streams.Ignores host name := by
  intro outcome
  refine ⟨⟨?_, fun hall => ?_⟩, ?_, fun fault => ?_, fun _ _ => accepts_iff_not_faults, fun _ => Setting.recognized_iff,
    fun streams name => streams.knows_or_ignores host name⟩
  · rintro ⟨next, h⟩
    exact (apply_eq_ok_iff.1 h).1
  · obtain ⟨next, h, -⟩ := apply_of_accepts hall defaults
    exact ⟨next, h⟩
  · intro next h
    exact ⟨(apply_eq_ok_iff.1 h).2, fun name fault => get_eq_error_iff⟩
  · simp only [Bytes.ofText_lt_iff]
    exact apply_eq_error_iff

/-- One fault of three is reported, and a relaxed reading takes a number from text beside names it only stores. -/
theorem apply_entrywise_mixed :
    let host : Host := ⟨8⟩
    let defaults : Configuration := { profiling := true, extra := .ofList [("b", .uint 1)] }
    let properties : PropertyMap := .ofList [("b", .bool false), ("a", .texts []), ("device_id", .text " +07")]
    let next : Configuration :=
      { deviceId := 7, profiling := true, extra := .ofList [("a", .texts []), ("b", .bool false)] }
    let faulty : PropertyMap := .ofList [("num_streams", .int 0), ("device_id", .text "-1"), ("ä", .bool true)]
    defaults.apply host properties false = .ok next ∧ defaults.Layered host properties.find? next ∧
      next.get "c" = .error (.unknown "c") ∧
      defaults.apply host faulty true = .error (.invalid "device_id" (.notDevice (.text "-1"))) := by
  intro host defaults properties next faulty
  have happly : defaults.apply host properties false = .ok next := by decide +kernel
  obtain ⟨hlayered, hget⟩ := (apply_entrywise host defaults properties false).2.1 next happly
  have hnumber : ∀ n < UInt64.size, ¬(PropertyValue.text "-1").MeansNumber n :=
    PropertyValue.asNat?_eq_none_iff.1 (by decide +kernel)
  refine ⟨happly, hlayered, ?_, ?_⟩
  · exact (hget "c" (.unknown "c")).2 ⟨rfl, Setting.ofName?_eq_none_iff.1 (by decide +kernel), by decide +kernel⟩
  · refine ((apply_entrywise host defaults faulty true).2.2.1 _).2
      ⟨"device_id", .text "-1", by decide +kernel, .refused (.notDevice hnumber), fun other w hfound hlt => ?_⟩
    have hentries : faulty.entries = [("device_id", .text "-1"), ("num_streams", .int 0), ("ä", .bool true)] := by
      decide +kernel
    have hmem := Dict.mem_entries_iff.2 hfound
    rw [hentries] at hmem
    have hleast : ∀ e ∈ ["device_id", "num_streams", "ä"], ¬Bytes.ofText e < Bytes.ofText "device_id" := by
      decide +kernel
    exact absurd hlt (hleast other (by simpa using List.mem_map_of_mem (f := Prod.fst) hmem))

end Configuration

end DevicePlugin
