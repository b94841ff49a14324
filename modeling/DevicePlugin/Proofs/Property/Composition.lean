import DevicePlugin.Proofs.Property.Layers

/-!
# Layers laid one after the other

Two layers that are accepted one after the other come to one layer, in which the
upper overrides the lower. So layers without a name in common may change places,
and a layer laid twice is a layer laid once.
-/

namespace DevicePlugin

namespace Dict

variable {α : Type}

def Disjoint (a b : Dict α) : Prop := ∀ name, a.find? name = none ∨ b.find? name = none

theorem disjoint_iff {a b : Dict α} : a.Disjoint b ↔ ∀ e ∈ a.entries, b.find? e.1 = none := by
  constructor
  · intro h e he
    refine (h e.1).resolve_left ?_
    rw [mem_entries_iff.1 he]
    nofun
  · intro h name
    cases ha : a.find? name with
    | none => exact .inl rfl
    | some v => exact .inr (h (name, v) (mem_entries_iff.2 ha))

instance (a b : Dict α) : Decidable (a.Disjoint b) := decidable_of_iff' _ disjoint_iff

theorem overriddenBy_comm {a b : Dict α} (h : a.Disjoint b) : a.overriddenBy b = b.overriddenBy a := by
  refine ext_find? fun name => ?_
  rw [find?_overriddenBy, find?_overriddenBy]
  rcases h name with h | h
  · rw [h, Option.or_none, Option.none_or]
  · rw [h, Option.or_none, Option.none_or]

theorem overriddenBy_self (a : Dict α) : a.overriddenBy a = a := by
  refine ext_find? fun name => ?_
  rw [find?_overriddenBy, Option.or_self]

end Dict

namespace Configuration

section
variable {host : Host} {strict : Bool} {a b : PropertyMap}

theorem accepts_of_apply {c next : Configuration} {properties : PropertyMap}
    (h : c.apply host properties strict = .ok next) :
    ∀ name v, properties.find? name = some v → Accepts host strict name v :=
  (apply_eq_ok_iff.1 h).1

/-- Layers are accepted over any configuration if they are over one. -/
theorem exists_apply_of_apply {c next : Configuration} {properties : PropertyMap}
    (h : c.apply host properties strict = .ok next) (d : Configuration) :
    ∃ other, d.apply host properties strict = .ok other := by
  obtain ⟨other, hother, -⟩ := apply_of_accepts (accepts_of_apply h) d
  exact ⟨other, hother⟩

theorem apply_of_apply_apply {c c₁ c₂ : Configuration} (h₁ : c.apply host a strict = .ok c₁)
    (h₂ : c₁.apply host b strict = .ok c₂) : c.apply host (a.overriddenBy b) strict = .ok c₂ := by
  obtain ⟨haccepts₁, hlayered₁⟩ := apply_eq_ok_iff.1 h₁
  obtain ⟨haccepts₂, hlayered₂⟩ := apply_eq_ok_iff.1 h₂
  have hgiven : (a.overriddenBy b).find? = fun name => (b.find? name).or (a.find? name) :=
    funext (a.find?_overriddenBy b)
  refine apply_eq_ok_iff.2 ⟨fun name v hv => ?_, ?_⟩
  · rw [Dict.find?_overriddenBy] at hv
    rcases Option.or_eq_some_iff.1 hv with hv | ⟨-, hv⟩
    · exact haccepts₂ name v hv
    · exact haccepts₁ name v hv
  · rw [hgiven]
    exact hlayered₁.trans hlayered₂

end

/-- What two layers make one after the other, the lower overridden by the upper makes at once. If no name stands
in both, they make the same in the other order, and a layer makes no more when it is laid again. -/
theorem apply_overriddenBy (host : Host) (strict : Bool) (a b : PropertyMap) (defaults : Configuration) :
    (∀ c₁ c₂, defaults.apply host a strict = .ok c₁ → c₁.apply host b strict = .ok c₂ →
      defaults.apply host (a.overriddenBy b) strict = .ok c₂ ∧
        (a.Disjoint b → ∃ c, defaults.apply host b strict = .ok c ∧ c.apply host a strict = .ok c₂)) ∧
    ∀ c, defaults.apply host a strict = .ok c → c.apply host a strict = .ok c := by
  constructor
  · intro c₁ c₂ h₁ h₂
    have hboth := apply_of_apply_apply h₁ h₂
    refine ⟨hboth, fun hdisjoint => ?_⟩
    obtain ⟨c, hc⟩ := exists_apply_of_apply h₂ defaults
    obtain ⟨last, hlast⟩ := exists_apply_of_apply h₁ c
    -- Either order comes to one layer, and disjoint layers are the same one in either order.
    have hswapped := apply_of_apply_apply hc hlast
    rw [← Dict.overriddenBy_comm hdisjoint] at hswapped
    cases hboth.symm.trans hswapped
    exact ⟨c, hc, hlast⟩
  · intro c h
    obtain ⟨again, hagain⟩ := exists_apply_of_apply h c
    have htwice := apply_of_apply_apply h hagain
    rw [Dict.overriddenBy_self] at htwice
    cases h.symm.trans htwice
    exact hagain

/-- The second layer overrides a setting and a stored name of the first, and the third leaves both alone. -/
theorem apply_overriddenBy_knobs :
    let host : Host := ⟨8⟩
    let first : PropertyMap := .ofList [("num_streams", .text "auto"), ("knob", .uint 1)]
    let second : PropertyMap := .ofList [("knob", .text "off"), ("num_streams", .text " 3")]
    let third : PropertyMap := .ofList [("device_id", .int 2)]
    let c₁ : Configuration := { streams := { streams := 8 }, extra := .ofList [("knob", .uint 1)] }
    let c₂ : Configuration := { streams := { streams := 3 }, extra := .ofList [("knob", .text "off")] }
    let c₃ : Configuration := { c₂ with deviceId := 2 }
    apply host {} first false = .ok c₁ ∧ c₁.apply host second false = .ok c₂ ∧ c₂.apply host third false = .ok c₃ ∧
      apply host {} (first.overriddenBy second) false = .ok c₂ ∧
      (second.Disjoint third ∧ ∃ c, c₁.apply host third false = .ok c ∧ c.apply host second false = .ok c₃) ∧
      c₂.apply host second false = .ok c₂ := by
  intro host first second third c₁ c₂ c₃
  have h₁ : apply host {} first false = .ok c₁ := by decide +kernel
  have h₂ : c₁.apply host second false = .ok c₂ := by decide +kernel
  have h₃ : c₂.apply host third false = .ok c₃ := by decide +kernel
  have hdisjoint : second.Disjoint third := by decide +kernel
  exact ⟨h₁, h₂, h₃, ((apply_overriddenBy host false first second {}).1 c₁ c₂ h₁ h₂).1,
    ⟨hdisjoint, ((apply_overriddenBy host false second third c₁).1 c₂ c₃ h₂ h₃).2 hdisjoint⟩,
    (apply_overriddenBy host false second third c₁).2 c₂ h₂⟩

end Configuration

end DevicePlugin
