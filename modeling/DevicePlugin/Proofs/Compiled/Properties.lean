import DevicePlugin.Compiled.Properties
import DevicePlugin.Proofs.Compiled.Cache
import DevicePlugin.Proofs.Property.Answers

/-!
# Who answers for a name

A compiled model answers seven names itself, whatever its configuration stores
under them; the configuration answers the others. An owner that is released takes
two answers with it. The names that are listed are answered, but a list of them
can repeat a name: what the streams executor reports is put after the names that a
host may set, as it is.
-/

namespace DevicePlugin

def PropertyValue.listed : PropertyValue → List String
  | .texts items => items
  | .names items => items.map PropertyName.name
  | _ => []

theorem Metric.ofName?_eq_none_iff {name : String} : Metric.ofName? name = none ↔ ∀ m : Metric, m.name ≠ name := by
  constructor
  · rintro h m rfl
    rw [Metric.ofName?_name] at h
    cases h
  · intro h
    cases hm : Metric.ofName? name with
    | none => rfl
    | some m =>
      have hname : m.name = name := by simpa using List.find?_some hm
      exact absurd hname (h m)

namespace CompiledModel

open Setting (Recognized)

def reserved : List String :=
  ["model_name", "supported_properties", "execution_devices", "loaded_from_cache",
    "optimal_number_of_infer_requests", "SUPPORTED_METRICS", "SUPPORTED_CONFIG_KEYS"]

def owned : List String := ["execution_devices", "SUPPORTED_CONFIG_KEYS"]

theorem mem_reserved_iff {name : String} : name ∈ reserved ↔ ∃ m : Metric, m.name = name := by
  have hall : reserved = Metric.all.map Metric.name := rfl
  rw [hall, List.mem_map]
  constructor
  · rintro ⟨m, -, hm⟩
    exact ⟨m, hm⟩
  · rintro ⟨m, hm⟩
    exact ⟨m, by cases m <;> decide, hm⟩

theorem not_mem_reserved_of_recognized {name : String} (h : Recognized name) : name ∉ reserved := by
  rw [Setting.recognized_iff] at h
  revert name
  decide

variable (c : CompiledModel) (plugin : Option Plugin)

theorem getProperty_metric (m : Metric) : c.getProperty plugin m.name = c.metric plugin m := by
  rw [getProperty, Metric.ofName?_name]

theorem getProperty_of_not_reserved {name : String} (h : name ∉ reserved) :
    c.getProperty plugin name = (c.config.get name).mapError Failure.property := by
  have hnone : Metric.ofName? name = none :=
    Metric.ofName?_eq_none_iff.2 fun m hm => h (mem_reserved_iff.2 ⟨m, hm⟩)
  rw [getProperty, hnone]

theorem getProperty_setting (s : Setting) : c.getProperty plugin s.name = .ok (c.config.setting s) := by
  rw [getProperty_of_not_reserved c plugin (not_mem_reserved_of_recognized ⟨s, rfl⟩), Configuration.get_name]
  rfl

/-! ## Where the answers come from -/

/-- Answers that fit together: what they say of the graph, the origin, the streams and the device is what the
compiled model and its owner are, and the lists name what is answered. -/
structure Describes (answer : String → Except Failure PropertyValue) : Prop where
  modelName : answer "model_name" = .ok (.text c.graph.friendlyName)
  fromCache : answer "loaded_from_cache" = .ok (.bool c.fromCache)
  requests : answer "optimal_number_of_infer_requests" = .ok (.ofNat32 c.config.streams.streams) ∧
    answer "optimal_number_of_infer_requests" = answer "num_streams"
  devices : ∃ number, answer "device_id" = .ok (.uint number) ∧
    answer "execution_devices" =
      plugin.elim (.error .pluginReleased) fun p => .ok (.text (p.device ++ "." ++ number.toNat.repr))
  properties : answer "supported_properties" = .ok (.names
    [.readOnly "model_name", .readOnly "supported_properties", .readOnly "execution_devices",
      .readOnly "loaded_from_cache", .readOnly "optimal_number_of_infer_requests",
      .readWrite "device_id", .readWrite "enable_profiling"])
  metrics : answer "SUPPORTED_METRICS" = .ok (.texts reserved)
  keys : answer "SUPPORTED_CONFIG_KEYS" =
    plugin.elim (.error .pluginReleased) fun p => .ok (.texts (["device_id", "enable_profiling"] ++ p.streamNames))

theorem describes : c.Describes plugin (c.getProperty plugin) where
  modelName := c.getProperty_metric plugin .modelName
  fromCache := c.getProperty_metric plugin .loadedFromCache
  requests :=
    ⟨c.getProperty_metric plugin .optimalRequests,
      (c.getProperty_metric plugin .optimalRequests).trans (c.getProperty_setting plugin (.stream .count)).symm⟩
  devices := by
    refine ⟨c.config.deviceId.toUInt64, c.getProperty_setting plugin .deviceId, ?_⟩
    rw [UInt32.toNat_toUInt64]
    cases plugin <;> rfl
  properties := c.getProperty_metric plugin .supportedProperties
  metrics := c.getProperty_metric plugin .supportedMetrics
  keys := by cases plugin <;> rfl

theorem getProperty_extra (extra : PropertyMap) {name : String} (h : name ∈ reserved) :
    ({ c with config.extra := extra } : CompiledModel).getProperty plugin name = c.getProperty plugin name := by
  obtain ⟨m, rfl⟩ := mem_reserved_iff.1 h
  rw [getProperty_metric, getProperty_metric]
  cases m <;> rfl

/-! ## Which names are answered -/

theorem metric_eq_error_iff {m : Metric} {failure : Failure} :
    c.metric plugin m = .error failure ↔ failure = .pluginReleased ∧ plugin = none ∧ m.name ∈ owned := by
  cases m with
  | executionDevices => cases plugin <;> simp [metric, owned, Metric.name, eq_comm]
  | supportedConfigKeys => cases plugin <;> simp [metric, owned, Metric.name, eq_comm]
  | modelName => simp [metric, owned, Metric.name]
  | supportedProperties => simp [metric, owned, Metric.name]
  | loadedFromCache => simp [metric, owned, Metric.name]
  | optimalRequests => simp [metric, owned, Metric.name]
  | supportedMetrics => simp [metric, owned, Metric.name]

theorem mapError_get_eq_error_iff {name : String} {failure : Failure} :
    (c.config.get name).mapError Failure.property = .error failure ↔
      failure = .property (.unknown name) ∧ ¬Recognized name ∧ c.config.extra.find? name = none := by
  have hget (fault : PropertyFault) :
      c.config.get name = .error fault ↔
        fault = .unknown name ∧ ¬Recognized name ∧ c.config.extra.find? name = none :=
    Configuration.get_eq_error_iff
  constructor
  · intro h
    cases hanswer : c.config.get name with
    | ok v =>
      rw [hanswer] at h
      cases h
    | error fault =>
      rw [hanswer] at h
      cases h
      obtain ⟨rfl, hunknown⟩ := (hget fault).1 hanswer
      exact ⟨rfl, hunknown⟩
  · rintro ⟨rfl, hunknown⟩
    rw [(hget (.unknown name)).2 ⟨rfl, hunknown⟩]
    rfl

theorem getProperty_eq_error_iff {name : String} {failure : Failure} :
    c.getProperty plugin name = .error failure ↔
      (failure = .property (.unknown name) ∧ name ∉ reserved ∧ ¬Recognized name ∧
        c.config.extra.find? name = none) ∨
      (failure = .pluginReleased ∧ plugin = none ∧ name ∈ owned) := by
  by_cases h : name ∈ reserved
  · obtain ⟨m, rfl⟩ := mem_reserved_iff.1 h
    rw [getProperty_metric, metric_eq_error_iff]
    simp only [h, not_true_eq_false, false_and, and_false, false_or]
  · have hsubset : owned ⊆ reserved := by decide
    have howned : name ∉ owned := fun hname => h (hsubset hname)
    rw [getProperty_of_not_reserved c plugin h, mapError_get_eq_error_iff]
    simp only [h, howned, not_false_eq_true, true_and, and_false, or_false]

theorem exists_answer_of_mem_reserved (p : Plugin) {name : String} (h : name ∈ reserved) :
    ∃ v, c.getProperty (some p) name = .ok v := by
  cases hanswer : c.getProperty (some p) name with
  | ok v => exact ⟨v, rfl⟩
  | error failure =>
    rcases (c.getProperty_eq_error_iff (some p)).1 hanswer with ⟨-, hname, -⟩ | ⟨-, hreleased, -⟩
    · exact absurd h hname
    · cases hreleased

theorem exists_answer_of_recognized {name : String} (h : Recognized name) : ∃ v, c.getProperty plugin name = .ok v := by
  obtain ⟨s, rfl⟩ := h
  exact ⟨_, c.getProperty_setting plugin s⟩

theorem recognized_of_mem_readWrite {name : String} (h : name ∈ ["device_id", "enable_profiling"]) :
    Recognized name := by
  rw [Setting.recognized_iff]
  revert name
  decide

theorem recognized_of_mem_supportedNames {name : String} (h : name ∈ StreamsConfig.supportedNames) :
    Recognized name := by
  rw [Setting.recognized_iff]
  exact List.mem_append_right _ h

/-- Every name is answered by the compiled model or by its configuration, no stored value comes before an answer
of the compiled model, and a name is refused only if nobody knows it or the owner that would answer is gone. With
its owner, a compiled model answers every name that it lists, also what a streams executor reports of its own
settings. -/
theorem getProperty_dispatch :
    let answer := c.getProperty plugin
    c.Describes plugin answer ∧
    (∀ (extra : PropertyMap), ∀ name ∈ reserved,
      ({ c with config.extra := extra } : CompiledModel).getProperty plugin name = answer name) ∧
    (∀ name ∉ reserved, answer name = (c.config.get name).mapError Failure.property) ∧
    (∀ name failure, answer name = .error failure ↔
      (failure = .property (.unknown name) ∧ name ∉ reserved ∧ ¬Recognized name ∧
        c.config.extra.find? name = none) ∨
      (failure = .pluginReleased ∧ plugin = none ∧ name ∈ owned)) ∧
    ∀ p, plugin = some p →
      (∀ list ∈ ["supported_properties", "SUPPORTED_METRICS"], ∃ v, answer list = .ok v ∧
        ∀ name ∈ v.listed, ∃ w, answer name = .ok w) ∧
      (p.streamNames ⊆ StreamsConfig.supportedNames → ∃ v, answer "SUPPORTED_CONFIG_KEYS" = .ok v ∧
        ∀ name ∈ v.listed, ∃ w, answer name = .ok w) := by
  intro answer
  have hdescribes : c.Describes plugin answer := c.describes plugin
  refine ⟨hdescribes, fun extra name h => c.getProperty_extra plugin extra h,
    fun name h => c.getProperty_of_not_reserved plugin h, fun name failure => c.getProperty_eq_error_iff plugin, ?_⟩
  rintro p rfl
  refine ⟨fun list hlist => ?_, fun hreport => ⟨_, hdescribes.keys, fun name hname => ?_⟩⟩
  · rcases List.mem_pair.1 hlist with rfl | rfl
    · refine ⟨_, hdescribes.properties, fun name hname => ?_⟩
      have hsplit : name ∈ reserved ∨ name ∈ ["device_id", "enable_profiling"] := by
        revert name
        decide
      rcases hsplit with h | h
      · exact c.exists_answer_of_mem_reserved p h
      · exact c.exists_answer_of_recognized (some p) (recognized_of_mem_readWrite h)
    · exact ⟨_, hdescribes.metrics, fun name hname => c.exists_answer_of_mem_reserved p hname⟩
  · rcases List.mem_append.1 hname with h | h
    · exact c.exists_answer_of_recognized (some p) (recognized_of_mem_readWrite h)
    · exact c.exists_answer_of_recognized (some p) (recognized_of_mem_supportedNames (hreport h))

/-- A relaxed reading stores values under two names that the compiled model answers. -/
theorem getProperty_dispatch_shadowed :
    let stored : PropertyMap := .ofList
      [("model_name", .uint 1), ("SUPPORTED_METRICS", .bool true), ("device_id", .text "+07"), ("vendor", .int (-1))]
    let config : Configuration :=
      { deviceId := 7
        extra := .ofList [("model_name", .uint 1), ("SUPPORTED_METRICS", .bool true), ("vendor", .int (-1))] }
    let c : CompiledModel := { StandardPlugin.kept with config }
    let p : Plugin := StandardPlugin.keeper.toPlugin
    ({} : Configuration).apply ⟨1⟩ stored false = .ok config ∧
      c.Describes (some p) (c.getProperty (some p)) ∧
      c.getProperty (some p) "model_name" = StandardPlugin.kept.getProperty (some p) "model_name" ∧
      c.getProperty (some p) "vendor" = .ok (.int (-1)) ∧
      c.getProperty none "SUPPORTED_CONFIG_KEYS" = .error .pluginReleased ∧
      c.getProperty none "nobody" = .error (.property (.unknown "nobody")) ∧
      ∃ v, c.getProperty (some p) "SUPPORTED_CONFIG_KEYS" = .ok v ∧
        ∀ name ∈ v.listed, ∃ w, c.getProperty (some p) name = .ok w := by
  intro stored config c p
  have hnobody : "nobody" ∉ reserved ∧ ¬Recognized "nobody" ∧ config.extra.find? "nobody" = none :=
    ⟨by decide, Setting.ofName?_eq_none_iff.1 (by decide), by decide +kernel⟩
  have hvendor : config.get "vendor" = .ok (.int (-1)) := by decide +kernel
  obtain ⟨hdescribes, hextra, hdelegated, -, hlists⟩ := c.getProperty_dispatch (some p)
  obtain ⟨-, -, -, hrefused, -⟩ := c.getProperty_dispatch none
  refine ⟨by decide +kernel, hdescribes, hdescribes.modelName, ?_, ?_, ?_, (hlists p rfl).2 (List.Subset.refl _)⟩
  · rw [hdelegated "vendor" (by decide), hvendor]
    rfl
  · exact (hrefused _ _).2 (.inr ⟨rfl, rfl, by decide⟩)
  · exact (hrefused _ _).2 (.inl ⟨rfl, hnobody⟩)

/-! ## Keys of hosts of the older kind -/

def settable (properties : List PropertyName) : List String :=
  (properties.filter PropertyName.isMutable).map PropertyName.name

/-- The keys are the names that may be set and those that the streams executor reports at the time, and no others.
But a key is listed once for being settable and as often again as it is reported, so that no key is listed twice
exactly when the report repeats nothing and has no settable name. -/
theorem supportedConfigKeys_members (p : Plugin) (report : List String) :
    let answer := c.getProperty (some { p with streamNames := report })
    ∃ properties keys, answer "supported_properties" = .ok (.names properties) ∧
      answer "SUPPORTED_CONFIG_KEYS" = .ok (.texts keys) ∧
      (∀ name, name ∈ keys ↔ name ∈ settable properties ∨ name ∈ report) ∧
      (∀ name, keys.count name = (if name ∈ settable properties then 1 else 0) + report.count name) ∧
      ((∀ name ∈ keys, keys.count name = 1) ↔ report.Nodup ∧ ∀ name ∈ report, name ∉ settable properties) := by
  intro answer
  have hdescribes := c.describes (some { p with streamNames := report })
  refine ⟨_, _, hdescribes.properties, hdescribes.keys, ?_⟩
  have hsettable : settable
      [.readOnly "model_name", .readOnly "supported_properties", .readOnly "execution_devices",
        .readOnly "loaded_from_cache", .readOnly "optimal_number_of_infer_requests",
        .readWrite "device_id", .readWrite "enable_profiling"] = ["device_id", "enable_profiling"] := by decide
  rw [hsettable]
  have hnodup : ["device_id", "enable_profiling"].Nodup := by decide
  generalize ["device_id", "enable_profiling"] = names at hnodup ⊢
  refine ⟨fun name => List.mem_append, fun name => ?_, ?_⟩
  · rw [List.count_append, List.Nodup.count hnodup]
  · -- A list counts each of its members once if and only if it repeats nothing.
    rw [← List.nodup_iff_count_eq_one, List.nodup_append]
    constructor
    · rintro ⟨-, hreport, hapart⟩
      exact ⟨hreport, fun name hname hnames => hapart name hnames name hname rfl⟩
    · rintro ⟨hreport, hapart⟩
      refine ⟨hnodup, hreport, ?_⟩
      rintro name hnames _ hname rfl
      exact hapart name hname hnames

/-- A streams executor that reports a settable name makes the compiled model list it twice. -/
theorem supportedConfigKeys_repeated :
    let p : Plugin := { StandardPlugin.keeper.toPlugin with streamNames := ["device_id"] }
    ∃ keys, StandardPlugin.kept.getProperty (some p) "SUPPORTED_CONFIG_KEYS" = .ok (.texts keys) ∧
      keys.count "device_id" = 2 :=
  ⟨["device_id", "enable_profiling", "device_id"], rfl, by decide⟩

end CompiledModel

end DevicePlugin
