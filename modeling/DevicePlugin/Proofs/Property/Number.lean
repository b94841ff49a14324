import DevicePlugin.Property.Script
import DevicePlugin.Proofs.Property.Layers

/-!
# Settings that are numbers

The four settings that are numbers take a number alike however it is written, as an
unsigned or a signed number or as text, with zeros in front of it or not. They take
it if 32 bits hold it, and refuse all that is no number of 64 bits.
-/

namespace DevicePlugin

theorem Setting.not_mem_flags {s : Setting} (h : s ∈ numbers) : s ∉ flags := by
  revert s
  decide

/-! ## The setting that changes decides the rest -/

theorem Configuration.Sets.unique {c next next' : Configuration} {s : Setting} {a : PropertyValue}
    (h : c.Sets s a next) (h' : c.Sets s a next') : next = next' := by
  refine Configuration.ext_setting (fun other => ?_) (fun name => ?_) (h.executor.trans h'.executor.symm)
  · by_cases hother : other = s
    · rw [hother, h.setting, h'.setting]
    · rw [h.others other hother, h'.others other hother]
  · rw [h.extra, h'.extra]

theorem StreamsConfig.Sets.unique {c next next' : StreamsConfig} {o : StreamOption} {a : PropertyValue}
    (h : c.Sets o a next) (h' : c.Sets o a next') : next = next' := by
  have hsame := Configuration.Sets.unique (c := { streams := c }) (Configuration.sets_stream h)
    (Configuration.sets_stream h')
  exact congrArg Configuration.streams hsame

/-! ## Taking numbers -/

section
variable {α γ : Type}

/-- Giving the setting a value makes of the state `before` an answer and a state. A number is taken alike however
it is written; in range it is the new value and nothing else changes, out of range it is refused, and so is every
value that is no number of 64 bits. What is refused changes nothing. -/
structure TakesNumbers (s : Setting) (answer : γ → α) (set : PropertyValue → Except PropertyFault α × γ) (before : γ)
    (Sets : PropertyValue → γ → Prop) : Prop where
  alike : ∀ (v w : PropertyValue) (n : Nat), v.MeansNumber n → w.MeansNumber n → n < UInt64.size → set v = set w
  taken : ∀ (v : PropertyValue) (n : Nat), v.MeansNumber n → n < UInt32.size → (s = .stream .count → n ≠ 0) →
    ∃ next, set v = (.ok (answer next), next) ∧ Sets (.uint (UInt64.ofNat n)) next
  outOfRange : ∀ (v : PropertyValue) (n : Nat), v.MeansNumber n → UInt32.size ≤ n → n < UInt64.size →
    set v = (.error (.invalid s.name (.outOfRange n)), before)
  noStreams : s = .stream .count → ∀ v : PropertyValue, v.MeansNumber 0 →
    set v = (.error (.invalid s.name .noStreams), before)
  others : ∀ v : PropertyValue, (∀ n < UInt64.size, ¬v.MeansNumber n) →
    (s = .stream .count → StreamsConfig.isAuto v = false) →
    ∃ reason, set v = (.error (.invalid s.name reason), before)

variable {s : Setting} {answer : γ → α} {set : PropertyValue → Except PropertyFault α × γ} {before : γ}
  {Sets : PropertyValue → γ → Prop}

theorem takesNumbers_of (host : Host) (hs : s ∈ Setting.numbers)
    (hreads : ∀ v a, s.Reads host v a → ∃ next, set v = (.ok (answer next), next) ∧ Sets a next)
    (hrefuses : ∀ v fault, s.Refuses v fault → set v = (.error (.invalid s.name fault), before))
    (hunique : ∀ a next next', Sets a next → Sets a next' → next = next') :
    TakesNumbers s answer set before Sets where
  alike v w n hv hw hn := by
    -- The faults agree since they name the number and not the value it was written as.
    by_cases hlt : n < UInt32.size
    · by_cases hzero : s = .stream .count ∧ n = 0
      · obtain ⟨rfl, rfl⟩ := hzero
        rw [hrefuses v _ (.noStreams hv), hrefuses w _ (.noStreams hw)]
      · obtain ⟨next, hnext, hsets⟩ := hreads v _ (.number hs hv hlt (not_and.1 hzero))
        obtain ⟨next', hnext', hsets'⟩ := hreads w _ (.number hs hw hlt (not_and.1 hzero))
        rw [hnext, hnext', hunique _ _ _ hsets hsets']
    · have hle : UInt32.size ≤ n := Nat.le_of_not_lt hlt
      rw [hrefuses v _ (.outOfRange hs hv hle hn), hrefuses w _ (.outOfRange hs hw hle hn)]
  taken v n hv hn hzero := hreads v _ (.number hs hv hn hzero)
  outOfRange v n hv hle hn := hrefuses v _ (.outOfRange hs hv hle hn)
  noStreams hcount v hv := by
    subst hcount
    exact hrefuses v _ (.noStreams hv)
  others v hnone hauto := by
    rcases s.reads_or_refuses host v with ⟨a, ha⟩ | ⟨reason, hreason⟩
    · cases ha with
      | flag hflag => exact absurd hflag (Setting.not_mem_flags hs)
      | number _ hv hn => exact absurd hv (hnone _ (Nat.lt_trans hn (by decide)))
      | auto hv => exact absurd (hauto rfl) (by simp [hv])
    · exact ⟨reason, hrefuses v reason hreason⟩

end

namespace Configuration

theorem apply_single (host : Host) (strict : Bool) (c : Configuration) (name : String) (v : PropertyValue) :
    c.apply host (.ofList [(name, v)]) strict = c.put host strict name v := by
  have hentries : (Dict.ofList [(name, v)]).entries = [(name, v)] := rfl
  rw [apply, hentries, putAll]
  cases c.put host strict name v <;> rfl

/-- The settings that are numbers take numbers alike, as properties of a configuration and as options of stream
settings. -/
theorem takesNumbers (host : Host) (strict : Bool) (c : Configuration) {s : Setting} (hs : s ∈ Setting.numbers) :
    TakesNumbers s .config (fun v => c.step host (.apply (.ofList [(s.name, v)]) strict)) c (c.Sets s) ∧
      ∀ (o : StreamOption) (streams : StreamsConfig), s = .stream o →
        TakesNumbers s .state (fun v => streams.step host (.set o.name v)) streams (streams.Sets o) := by
  have hput (v : PropertyValue) :
      c.step host (.apply (.ofList [(s.name, v)]) strict) = c.replaced (c.assign host s v) := by
    rw [step, apply_single, put, Setting.ofName?_name]
  constructor
  · refine takesNumbers_of host hs (fun v a h => ?_) (fun v fault h => ?_) fun _ _ _ => Sets.unique
    · obtain ⟨next, hnext, hsets⟩ := assign_of_reads h c
      exact ⟨next, by rw [hput, hnext, replaced], hsets⟩
    · rw [hput, assign_of_refuses h, replaced]
  · rintro o streams rfl
    have hset (v : PropertyValue) : streams.setProperty host o.name v = streams.assign host o v := by
      rw [StreamsConfig.setProperty, StreamOption.ofName?_name]
    refine takesNumbers_of host hs (fun v a h => ?_) (fun v fault h => ?_) fun _ _ _ => StreamsConfig.Sets.unique
    · obtain ⟨next, hnext, hsets⟩ := StreamsConfig.assign_of_reads h streams
      exact ⟨next, by simp only [StreamsConfig.step, hset, hnext], hsets⟩
    · simp only [StreamsConfig.step, hset, StreamsConfig.assign_of_refuses h streams]
      rfl

/-- Seven streams, no streams and too many of them, each as text and as a number, and a word that is almost `AUTO`. -/
theorem takesNumbers_streams :
    let host : Host := ⟨8⟩
    let set (v : PropertyValue) := step host {} (.apply (.ofList [("num_streams", v)]) true)
    let setOption (v : PropertyValue) := StreamsConfig.step host {} (.set "num_streams" v)
    set (.text "\u2003+0007 ") = set (.uint 7) ∧
      (∃ next, setOption (.int 7) = (.ok (.state next), next) ∧ StreamsConfig.Sets {} .count (.uint 7) next) ∧
      set (.text "00") = (.error (.invalid "num_streams" .noStreams), {}) ∧
      setOption (.text "4294967296\n") = (.error (.invalid "num_streams" (.outOfRange 4294967296)), {}) ∧
      ∃ reason, set (.text " auto") = (.error (.invalid "num_streams" reason), {}) := by
  intro host set setOption
  obtain ⟨hset, hoptions⟩ := takesNumbers host true {} (s := .stream .count) (by decide)
  have hoption := hoptions .count {} rfl
  have hnumeral {s : String} {n : Nat} (h : Text.numeralBelow? UInt64.size s = some n) :
      (PropertyValue.text s).MeansNumber n :=
    .text (Text.numeralBelow?_eq_some_iff.1 h).1
  have hseven := hnumeral (s := "\u2003+0007 ") (n := 7) (by decide +kernel)
  have hzero := hnumeral (s := "00") (n := 0) (by decide +kernel)
  have hlarge := hnumeral (s := "4294967296\n") (n := 4294967296) (by decide +kernel)
  exact ⟨hset.alike _ _ 7 hseven (.uint 7) (by decide), hoption.taken _ 7 (.int rfl) (by decide) (fun _ => by decide),
    hset.noStreams rfl _ hzero, hoption.outOfRange _ _ hlarge (by decide) (by decide),
    hset.others _ (PropertyValue.asNat?_eq_none_iff.1 (by decide +kernel)) fun _ => by decide +kernel⟩

end Configuration

end DevicePlugin
