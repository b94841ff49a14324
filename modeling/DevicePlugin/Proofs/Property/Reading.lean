import DevicePlugin.Property.Configuration
import DevicePlugin.Proofs.Text.Numeral

/-!
# What a value means to a setting

Every setting either reads a value, as a flag, a number or the word that leaves
the stream count to the host, or refuses it for one reason. What a setting reads
replaces its own value and nothing else.
-/

namespace DevicePlugin

namespace PropertyValue

inductive MeansFlag : PropertyValue → Bool → Prop
  | bool (b : Bool) : MeansFlag (.bool b) b
  | yes {s : String} : s.toList.map Char.toUpper ∈ ["YES".toList, "TRUE".toList] → MeansFlag (.text s) true
  | no {s : String} : s.toList.map Char.toUpper ∈ ["NO".toList, "FALSE".toList] → MeansFlag (.text s) false

inductive MeansNumber : PropertyValue → Nat → Prop
  | uint (v : UInt64) : MeansNumber (.uint v) v.toNat
  | int {v : Int64} {n : Nat} : v.toInt = n → MeansNumber (.int v) n
  | text {s : String} {n : Nat} : Text.Numeral s n → MeansNumber (.text s) n

theorem asBool?_eq_some_iff {v : PropertyValue} {b : Bool} : v.asBool? = some b ↔ v.MeansFlag b := by
  cases v with
  | bool value =>
    constructor
    · intro h
      cases h
      exact .bool _
    · intro h
      cases h
      rfl
  | text s =>
    have hyes : (s.toList.map Char.toUpper = "YES".toList ∨ s.toList.map Char.toUpper = "TRUE".toList) ↔
        s.toList.map Char.toUpper ∈ ["YES".toList, "TRUE".toList] := by simp
    have hno : (s.toList.map Char.toUpper = "NO".toList ∨ s.toList.map Char.toUpper = "FALSE".toList) ↔
        s.toList.map Char.toUpper ∈ ["NO".toList, "FALSE".toList] := by simp
    simp only [asBool?, flagOfText?, hyes, hno]
    constructor
    · intro h
      split at h
      · cases h
        exact .yes ‹_›
      · split at h
        · cases h
          exact .no ‹_›
        · cases h
    · intro h
      cases h with
      | yes h => rw [if_pos h]
      | no h =>
        have hother : s.toList.map Char.toUpper ∉ ["YES".toList, "TRUE".toList] := by
          rcases List.mem_pair.1 h with h | h <;> rw [h] <;> decide
        rw [if_neg hother, if_pos h]
  | uint value => exact ⟨nofun, nofun⟩
  | int value => exact ⟨nofun, nofun⟩
  | texts items => exact ⟨nofun, nofun⟩
  | names items => exact ⟨nofun, nofun⟩

theorem MeansFlag.unique {v : PropertyValue} {a b : Bool} (ha : v.MeansFlag a) (hb : v.MeansFlag b) : a = b := by
  rw [← asBool?_eq_some_iff] at ha hb
  exact Option.some.inj (ha.symm.trans hb)

theorem asNat?_eq_some_iff {v : PropertyValue} {n : Nat} : v.asNat? = some n ↔ v.MeansNumber n ∧ n < UInt64.size := by
  cases v with
  | uint value =>
    constructor
    · rintro ⟨⟩
      exact ⟨.uint value, value.toNat_lt_size⟩
    · rintro ⟨⟨⟩, -⟩
      rfl
  | int value =>
    simp only [asNat?]
    constructor
    · intro h
      split at h
      · rename_i hvalue
        cases h
        have hlt : value.toInt < 2 ^ 63 := value.toInt_lt
        exact ⟨.int (Int.toNat_of_nonneg hvalue).symm, by rw [UInt64.size]; omega⟩
      · cases h
    · rintro ⟨⟨h⟩, -⟩
      rename_i h
      rw [h, if_pos (Int.natCast_nonneg n), Int.toNat_natCast]
  | text s =>
    rw [asNat?, Text.numeralBelow?_eq_some_iff]
    constructor
    · rintro ⟨h, hn⟩
      exact ⟨.text h, hn⟩
    · rintro ⟨⟨h⟩, hn⟩
      rename_i h
      exact ⟨h, hn⟩
  | bool value => exact ⟨nofun, nofun⟩
  | texts items => exact ⟨nofun, nofun⟩
  | names items => exact ⟨nofun, nofun⟩

theorem asNat?_eq_none_iff {v : PropertyValue} : v.asNat? = none ↔ ∀ n < UInt64.size, ¬v.MeansNumber n := by
  rw [Option.eq_none_iff_forall_ne_some]
  constructor
  · intro h n hn hv
    exact h n (asNat?_eq_some_iff.2 ⟨hv, hn⟩)
  · intro h n hn
    obtain ⟨hv, hlt⟩ := asNat?_eq_some_iff.1 hn
    exact h n hlt hv

theorem MeansNumber.unique {v : PropertyValue} {m n : Nat} (hm : v.MeansNumber m) (hn : v.MeansNumber n) : m = n := by
  cases hm with
  | uint value =>
    cases hn
    rfl
  | int hm =>
    cases hn with
    | int hn => exact Int.natCast_inj.1 (hm.symm.trans hn)
  | text hm =>
    cases hn with
    | text hn => exact hm.unique hn

/-- The word that leaves the stream count to the host has no digit. -/
theorem MeansNumber.not_isAuto {v : PropertyValue} {n : Nat} (h : v.MeansNumber n) : StreamsConfig.isAuto v = false := by
  cases h with
  | uint value => rfl
  | int h => rfl
  | text h =>
    obtain ⟨c, hc, hdigit⟩ := h.exists_digit
    rw [StreamsConfig.isAuto, decide_eq_false_iff_not]
    intro hauto
    have hmem : c.toUpper ∈ "AUTO".toList := hauto ▸ List.mem_map_of_mem hc
    have hnone : ∀ d < 10, d.digitChar.toUpper ∉ "AUTO".toList := by decide
    obtain ⟨d, hd, rfl⟩ := Text.exists_digitChar hdigit
    exact hnone d hd hmem

end PropertyValue

/-! ## Settings -/

namespace Setting

def flags : List Setting := [.profiling, .untransformed]

def numbers : List Setting := [.deviceId, .stream .count, .stream .threads, .stream .threadsPerStream]

/-- The setting accepts the value and then answers with what was read. -/
inductive Reads (host : Host) : Setting → PropertyValue → PropertyValue → Prop
  | flag {s : Setting} {v : PropertyValue} {b : Bool} : s ∈ flags → v.MeansFlag b → Reads host s v (.bool b)
  | number {s : Setting} {v : PropertyValue} {n : Nat} : s ∈ numbers → v.MeansNumber n → n < UInt32.size →
      (s = .stream .count → n ≠ 0) → Reads host s v (.uint (UInt64.ofNat n))
  | auto {v : PropertyValue} : StreamsConfig.isAuto v = true → Reads host (.stream .count) v (.ofNat32 host.parallelism)

inductive Refuses : Setting → PropertyValue → ValueFault → Prop
  | notFlag {s : Setting} {v : PropertyValue} : s ∈ flags → (∀ b, ¬v.MeansFlag b) → Refuses s v (.notFlag v)
  | notDevice {v : PropertyValue} : (∀ n < UInt64.size, ¬v.MeansNumber n) → Refuses .deviceId v (.notDevice v)
  | notCount {o : StreamOption} {v : PropertyValue} : (∀ n < UInt64.size, ¬v.MeansNumber n) →
      (o = .count → StreamsConfig.isAuto v = false) → Refuses (.stream o) v (.notCount v)
  | outOfRange {s : Setting} {v : PropertyValue} {n : Nat} : s ∈ numbers → v.MeansNumber n → UInt32.size ≤ n →
      n < UInt64.size → Refuses s v (.outOfRange n)
  | noStreams {v : PropertyValue} : v.MeansNumber 0 → Refuses (.stream .count) v .noStreams

end Setting

/-! ## Reading numbers -/

/-- Devices and counts are read alike, up to what is said of a value that is no number. -/
def readNumber (missing : ValueFault) (name : String) (v : PropertyValue) : Except PropertyFault UInt32 :=
  match v.asNat? with
  | none => .error (.invalid name missing)
  | some n => if n < UInt32.size then .ok (UInt32.ofNat n) else .error (.invalid name (.outOfRange n))

theorem readDevice_eq (name : String) (v : PropertyValue) :
    Configuration.readDevice name v = readNumber (.notDevice v) name v := rfl

theorem readCount_eq (name : String) (v : PropertyValue) :
    StreamsConfig.readCount name v = readNumber (.notCount v) name v := rfl

section
variable {missing : ValueFault} {name : String} {v : PropertyValue} {n : Nat}

theorem readNumber_of_lt (h : v.MeansNumber n) (hn : n < UInt32.size) :
    readNumber missing name v = .ok (UInt32.ofNat n) := by
  have hnat : v.asNat? = some n := PropertyValue.asNat?_eq_some_iff.2 ⟨h, Nat.lt_trans hn (by decide)⟩
  simp only [readNumber, hnat, if_pos hn]

theorem readNumber_of_le (h : v.MeansNumber n) (hn : UInt32.size ≤ n) (hlt : n < UInt64.size) :
    readNumber missing name v = .error (.invalid name (.outOfRange n)) := by
  have hnat : v.asNat? = some n := PropertyValue.asNat?_eq_some_iff.2 ⟨h, hlt⟩
  simp only [readNumber, hnat, if_neg (Nat.not_lt_of_le hn)]

theorem readNumber_of_none (h : ∀ n < UInt64.size, ¬v.MeansNumber n) :
    readNumber missing name v = .error (.invalid name missing) := by
  simp only [readNumber, PropertyValue.asNat?_eq_none_iff.2 h]

theorem ofNat32_inj {m n : UInt32} (h : PropertyValue.ofNat32 m = .ofNat32 n) : m = n := by
  rw [PropertyValue.ofNat32, PropertyValue.ofNat32, PropertyValue.uint.injEq, ← UInt64.toNat_inj,
    UInt32.toNat_toUInt64, UInt32.toNat_toUInt64] at h
  exact UInt32.toNat_inj.1 h

theorem ofNat32_ofNat (hn : n < UInt32.size) : PropertyValue.ofNat32 (UInt32.ofNat n) = .uint (UInt64.ofNat n) := by
  rw [PropertyValue.ofNat32, PropertyValue.uint.injEq, ← UInt64.toNat_inj, UInt32.toNat_toUInt64,
    UInt32.toNat_ofNat_of_lt' hn, UInt64.toNat_ofNat_of_lt' (Nat.lt_trans hn (by decide))]

end

/-! ## One stream option -/

namespace StreamsConfig

structure Sets (c : StreamsConfig) (o : StreamOption) (value : PropertyValue) (next : StreamsConfig) : Prop where
  option : next.get o = value
  others : ∀ other, other ≠ o → next.get other = c.get other
  name : next.name = c.name

def update (c : StreamsConfig) : StreamOption → UInt32 → StreamsConfig
  | .count, n => { c with streams := n }
  | .threads, n => { c with threads := n }
  | .threadsPerStream, n => { c with threadsPerStream := n }

theorem sets_update (c : StreamsConfig) (o : StreamOption) (n : UInt32) : c.Sets o (.ofNat32 n) (c.update o n) := by
  constructor
  · cases o <;> rfl
  · intro other hne
    cases o <;> cases other <;> first | rfl | exact absurd rfl hne
  · cases o <;> rfl

def read (host : Host) (o : StreamOption) (v : PropertyValue) : Except PropertyFault UInt32 :=
  match o with
  | .count => readStreams host v
  | .threads => readCount o.name v
  | .threadsPerStream => readCount o.name v

variable {host : Host} {o : StreamOption} {v : PropertyValue}

theorem assign_eq (c : StreamsConfig) : c.assign host o v = (read host o v).map (c.update o) := by
  cases o <;> rfl

theorem read_of_number {n : Nat} (hv : v.MeansNumber n) (hn : n < UInt32.size) (hzero : o = .count → n ≠ 0) :
    read host o v = .ok (UInt32.ofNat n) := by
  have hcount : readCount o.name v = .ok (UInt32.ofNat n) := by rw [readCount_eq, readNumber_of_lt hv hn]
  cases o with
  | count =>
    have hne : UInt32.ofNat n ≠ 0 := by
      rw [ne_eq, ← UInt32.toNat_inj, UInt32.toNat_ofNat_of_lt' hn]
      exact hzero rfl
    simp [read, readStreams, hv.not_isAuto, hcount, hne]
  | _ => exact hcount

/-- A fault of the count itself is a fault of every option that is no `AUTO`. -/
theorem read_of_readCount {fault : PropertyFault} (h : readCount o.name v = .error fault)
    (hauto : o = .count → isAuto v = false) : read host o v = .error fault := by
  cases o with
  | count => simp [read, readStreams, hauto rfl, h]
  | _ => exact h

theorem read_of_zero (hv : v.MeansNumber 0) :
    read host .count v = .error (.invalid StreamOption.count.name .noStreams) := by
  have hcount : readCount StreamOption.count.name v = .ok (UInt32.ofNat 0) := by
    rw [readCount_eq, readNumber_of_lt hv (by decide)]
  simp [read, readStreams, hv.not_isAuto, hcount]

theorem read_of_reads {a : PropertyValue} (h : (Setting.stream o).Reads host v a) :
    ∃ n, read host o v = .ok n ∧ .ofNat32 n = a := by
  cases h with
  | flag hs => exact absurd hs (by cases o <;> decide)
  | number _ hv hn hzero => exact ⟨_, read_of_number hv hn (fun ho => hzero (by rw [ho])), ofNat32_ofNat hn⟩
  | auto hv => exact ⟨_, if_pos hv, rfl⟩

theorem read_of_refuses {fault : ValueFault} (h : (Setting.stream o).Refuses v fault) :
    read host o v = .error (.invalid o.name fault) := by
  cases h with
  | notFlag hs => exact absurd hs (by cases o <;> decide)
  | notCount hv hauto => exact read_of_readCount (by rw [readCount_eq, readNumber_of_none hv]) hauto
  | outOfRange _ hv hn hlt =>
    exact read_of_readCount (by rw [readCount_eq, readNumber_of_le hv hn hlt]) fun _ => hv.not_isAuto
  | noStreams hv => exact read_of_zero hv

theorem assign_of_reads {a : PropertyValue} (h : (Setting.stream o).Reads host v a) (c : StreamsConfig) :
    ∃ next, c.assign host o v = .ok next ∧ c.Sets o a next := by
  obtain ⟨n, hread, rfl⟩ := read_of_reads h
  exact ⟨c.update o n, by rw [assign_eq, hread, Except.map], c.sets_update o n⟩

theorem assign_of_refuses {fault : ValueFault} (h : (Setting.stream o).Refuses v fault) (c : StreamsConfig) :
    c.assign host o v = .error (.invalid o.name fault) := by
  rw [assign_eq, read_of_refuses h, Except.map]

end StreamsConfig

/-! ## One setting of a configuration -/

namespace Configuration

structure Sets (c : Configuration) (s : Setting) (value : PropertyValue) (next : Configuration) : Prop where
  setting : next.setting s = value
  others : ∀ other, other ≠ s → next.setting other = c.setting other
  extra : next.extra = c.extra
  executor : next.streams.name = c.streams.name

theorem sets_stream {c : Configuration} {o : StreamOption} {value : PropertyValue} {next : StreamsConfig}
    (h : c.streams.Sets o value next) : c.Sets (.stream o) value { c with streams := next } := by
  refine ⟨h.option, ?_, rfl, h.name⟩
  intro other hne
  cases other with
  | stream other => exact h.others other fun heq => hne (heq ▸ rfl)
  | _ => rfl

theorem readFlag_of_means {v : PropertyValue} {name : String} {b : Bool} (h : v.MeansFlag b) :
    readFlag name v = .ok b := by
  rw [readFlag, PropertyValue.asBool?_eq_some_iff.2 h]

theorem readFlag_of_none {v : PropertyValue} {name : String} (h : ∀ b, ¬v.MeansFlag b) :
    readFlag name v = .error (.invalid name (.notFlag v)) := by
  have hnone : v.asBool? = none := by
    rw [Option.eq_none_iff_forall_ne_some]
    exact fun b hb => h b (PropertyValue.asBool?_eq_some_iff.1 hb)
  rw [readFlag, hnone]

end Configuration

namespace Setting

/-- What a configuration keeps of a value that the setting reads. -/
def Kept : Setting → Type
  | .deviceId => UInt32
  | .profiling => Bool
  | .untransformed => Bool
  | .stream _ => UInt32

def answer : (s : Setting) → s.Kept → PropertyValue
  | .deviceId, n => .ofNat32 n
  | .profiling, b => .bool b
  | .untransformed, b => .bool b
  | .stream _, n => .ofNat32 n

def read (host : Host) (v : PropertyValue) : (s : Setting) → Except PropertyFault s.Kept
  | .deviceId => Configuration.readDevice deviceId.name v
  | .profiling => Configuration.readFlag profiling.name v
  | .untransformed => Configuration.readFlag untransformed.name v
  | .stream o => StreamsConfig.read host o v

variable {host : Host} {s : Setting} {v : PropertyValue}

theorem read_of_reads {a : PropertyValue} (h : s.Reads host v a) :
    ∃ kept, s.read host v = .ok kept ∧ s.answer kept = a := by
  cases s with
  | deviceId =>
    cases h with
    | flag hs => exact absurd hs (by decide)
    | number _ hv hn => exact ⟨_, (readDevice_eq _ v).trans (readNumber_of_lt hv hn), ofNat32_ofNat hn⟩
  | stream o => exact StreamsConfig.read_of_reads h
  | _ =>
    cases h with
    | flag _ hv => exact ⟨_, Configuration.readFlag_of_means hv, rfl⟩
    | number hs => exact absurd hs (by decide)

theorem read_of_refuses {fault : ValueFault} (h : s.Refuses v fault) :
    s.read host v = .error (.invalid s.name fault) := by
  cases s with
  | deviceId =>
    cases h with
    | notFlag hs => exact absurd hs (by decide)
    | notDevice hv => exact (readDevice_eq _ v).trans (readNumber_of_none hv)
    | outOfRange _ hv hn hlt => exact (readDevice_eq _ v).trans (readNumber_of_le hv hn hlt)
  | stream o => exact StreamsConfig.read_of_refuses h
  | _ =>
    cases h with
    | notFlag _ hv => exact Configuration.readFlag_of_none hv
    | outOfRange hs => exact absurd hs (by decide)

end Setting

namespace Configuration

def update (c : Configuration) : (s : Setting) → s.Kept → Configuration
  | .deviceId, n => { c with deviceId := n }
  | .profiling, b => { c with profiling := b }
  | .untransformed, b => { c with untransformed := b }
  | .stream o, n => { c with streams := c.streams.update o n }

theorem sets_update (c : Configuration) (s : Setting) (kept : s.Kept) : c.Sets s (s.answer kept) (c.update s kept) := by
  cases s with
  | stream o => exact sets_stream (c.streams.sets_update o kept)
  | _ =>
    refine ⟨rfl, ?_, rfl, rfl⟩
    intro other hne
    cases other <;> first | rfl | exact absurd rfl hne

variable {host : Host} {s : Setting} {v : PropertyValue}

theorem assign_stream {c : Configuration} {o : StreamOption} :
    c.assign host (.stream o) v = (c.streams.assign host o v).map fun streams => { c with streams } := rfl

theorem assign_eq (c : Configuration) : c.assign host s v = (s.read host v).map (c.update s) := by
  cases s with
  | stream o =>
    rw [assign_stream, StreamsConfig.assign_eq, Setting.read]
    cases StreamsConfig.read host o v <;> rfl
  | _ => rfl

theorem assign_of_reads {a : PropertyValue} (h : s.Reads host v a) (c : Configuration) :
    ∃ next, c.assign host s v = .ok next ∧ c.Sets s a next := by
  obtain ⟨kept, hread, rfl⟩ := Setting.read_of_reads h
  exact ⟨c.update s kept, by rw [assign_eq, hread, Except.map], c.sets_update s kept⟩

theorem assign_of_refuses {fault : ValueFault} (h : s.Refuses v fault) (c : Configuration) :
    c.assign host s v = .error (.invalid s.name fault) := by
  rw [assign_eq, Setting.read_of_refuses h, Except.map]

end Configuration

/-! ## Each value is read or refused -/

namespace Setting

section
variable {s : Setting} {v : PropertyValue}

theorem flag_reads_or_refuses (host : Host) (hs : s ∈ flags) (v : PropertyValue) :
    (∃ a, s.Reads host v a) ∨ ∃ fault, s.Refuses v fault := by
  by_cases h : ∃ b, v.MeansFlag b
  · obtain ⟨b, hb⟩ := h
    exact .inl ⟨_, .flag hs hb⟩
  · exact .inr ⟨_, .notFlag hs (not_exists.1 h)⟩

theorem number_reads_or_refuses (host : Host) (hs : s ∈ numbers) {n : Nat} (hv : v.MeansNumber n)
    (hn : n < UInt64.size) : (∃ a, s.Reads host v a) ∨ ∃ fault, s.Refuses v fault := by
  by_cases hlt : n < UInt32.size
  · by_cases hzero : s = .stream .count ∧ n = 0
    · obtain ⟨rfl, rfl⟩ := hzero
      exact .inr ⟨_, .noStreams hv⟩
    · exact .inl ⟨_, .number hs hv hlt (not_and.1 hzero)⟩
  · exact .inr ⟨_, .outOfRange hs hv (Nat.le_of_not_lt hlt) hn⟩

theorem reads_or_refuses (host : Host) (s : Setting) (v : PropertyValue) :
    (∃ a, s.Reads host v a) ∨ ∃ fault, s.Refuses v fault := by
  -- What a number of 64 bits is to a setting is settled before the word `AUTO` is looked for.
  by_cases h : ∃ n < UInt64.size, v.MeansNumber n
  · obtain ⟨n, hn, hv⟩ := h
    cases s with
    | deviceId => exact number_reads_or_refuses host (by decide) hv hn
    | stream o => exact number_reads_or_refuses host (by cases o <;> decide) hv hn
    | _ => exact flag_reads_or_refuses host (by decide) v
  · have hnone : ∀ n < UInt64.size, ¬v.MeansNumber n := fun n hn hv => h ⟨n, hn, hv⟩
    cases s with
    | deviceId => exact .inr ⟨_, .notDevice hnone⟩
    | stream o =>
      by_cases hauto : o = .count ∧ StreamsConfig.isAuto v = true
      · obtain ⟨rfl, hauto⟩ := hauto
        exact .inl ⟨_, .auto hauto⟩
      · exact .inr ⟨_, .notCount hnone fun ho => Bool.eq_false_iff.2 (not_and.1 hauto ho)⟩
    | _ => exact flag_reads_or_refuses host (by decide) v

theorem Reads.unique {host : Host} {a b : PropertyValue} (ha : s.Reads host v a) (hb : s.Reads host v b) : a = b := by
  obtain ⟨kept, hread, rfl⟩ := read_of_reads ha
  obtain ⟨kept', hread', rfl⟩ := read_of_reads hb
  cases hread.symm.trans hread'
  rfl

theorem Refuses.unique {a b : ValueFault} (ha : s.Refuses v a) (hb : s.Refuses v b) : a = b := by
  have ha : s.read ⟨1⟩ v = .error (.invalid s.name a) := read_of_refuses ha
  have hb : s.read ⟨1⟩ v = .error (.invalid s.name b) := read_of_refuses hb
  cases ha.symm.trans hb
  rfl

end

/-- On a host with some parallelism no setting reads that there are no streams. -/
theorem Reads.streams_ne_zero {host : Host} (hauto : host.parallelism ≠ 0) {v : PropertyValue} {n : UInt32}
    (h : (Setting.stream .count).Reads host v (.ofNat32 n)) : n ≠ 0 := by
  generalize ha : PropertyValue.ofNat32 n = a at h
  cases h with
  | flag hs => exact absurd hs (by decide)
  | number _ _ hn hzero =>
    rw [← ofNat32_ofNat hn] at ha
    rw [ofNat32_inj ha, ne_eq, ← UInt32.toNat_inj, UInt32.toNat_ofNat_of_lt' hn]
    exact hzero rfl
  | auto =>
    rw [ofNat32_inj ha]
    exact hauto

/-- A setting reads its own answer, if there is a stream at least. -/
theorem reads_setting (host : Host) {c : Configuration} (hc : c.streams.streams ≠ 0) (s : Setting) :
    s.Reads host (c.setting s) (c.setting s) := by
  have hnumber {s : Setting} (hs : s ∈ numbers) (n : UInt32) (hzero : s = .stream .count → n ≠ 0) :
      s.Reads host (.ofNat32 n) (.ofNat32 n) := by
    have hn : n.toUInt64.toNat = n.toNat := UInt32.toNat_toUInt64 n
    have hread : s.Reads host (.ofNat32 n) (.uint (UInt64.ofNat n.toUInt64.toNat)) := by
      refine .number hs (.uint n.toUInt64) ?_ fun h => ?_
      · rw [hn]
        exact n.toNat_lt_size
      · rw [hn]
        exact fun h0 => hzero h (UInt32.toNat_inj.1 h0)
    rwa [UInt64.ofNat_toNat] at hread
  cases s with
  | deviceId => exact hnumber (by decide) c.deviceId nofun
  | profiling => exact .flag (by decide) (.bool c.profiling)
  | untransformed => exact .flag (by decide) (.bool c.untransformed)
  | stream o =>
    cases o with
    | count => exact hnumber (by decide) c.streams.streams fun _ => hc
    | threads => exact hnumber (by decide) c.streams.threads nofun
    | threadsPerStream => exact hnumber (by decide) c.streams.threadsPerStream nofun

end Setting

end DevicePlugin
