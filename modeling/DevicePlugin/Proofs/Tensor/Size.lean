import DevicePlugin.Tensor.Descriptor
import Mathlib.Algebra.BigOperators.Ring.List
import Mathlib.Algebra.Ring.Nat
import Mathlib.Data.List.TakeWhile

/-!
# Sizes of tensors

Dimensions are multiplied from left to right, and the count gives up at the first
product that a word does not hold, even if a zero is still to come. Unless the
dimensions before a zero are that large, sizes are exact.
-/

namespace DevicePlugin

def word? (n : Nat) : Option Nat := if n < UInt64.size then some n else none

theorem word?_of_lt {n : Nat} (h : n < UInt64.size) : word? n = some n := if_pos h

theorem word?_of_le {n : Nat} (h : UInt64.size ≤ n) : word? n = none := if_neg (Nat.not_lt_of_le h)

namespace TensorDesc

def volume (shape : List UInt64) : Nat := (shape.map UInt64.toNat).prod

/-- The shape holds no elements, but the dimensions before its first zero are too large for a word. -/
def Overruns (shape : List UInt64) : Prop :=
  0 ∈ shape ∧ UInt64.size ≤ volume (shape.takeWhile fun d => d ≠ 0)

instance (shape : List UInt64) : Decidable (Overruns shape) :=
  inferInstanceAs (Decidable (_ ∧ _))

/-! ## Volumes -/

theorem volume_cons (d : UInt64) (shape : List UInt64) : volume (d :: shape) = d.toNat * volume shape := by
  rw [volume, List.map_cons, List.prod_cons, volume]

theorem volume_eq_zero_iff {shape : List UInt64} : volume shape = 0 ↔ 0 ∈ shape := by
  rw [volume, List.prod_eq_zero_iff, List.mem_map]
  constructor
  · rintro ⟨d, hd, hzero⟩
    rwa [UInt64.toNat_inj.mp (hzero.trans UInt64.toNat_zero.symm)] at hd
  · intro h
    exact ⟨0, h, UInt64.toNat_zero⟩

theorem volume_perm {shape shape' : List UInt64} (h : shape.Perm shape') : volume shape' = volume shape :=
  ((h.map UInt64.toNat).prod_eq).symm

theorem exists_eq_append_zero {shape : List UInt64} (h : 0 ∈ shape) :
    ∃ rest, shape = (shape.takeWhile fun d => d ≠ 0) ++ 0 :: rest := by
  induction shape with
  | nil => cases h
  | cons d shape ih =>
    by_cases hd : d = 0
    · subst hd
      exact ⟨shape, by simp⟩
    · obtain ⟨rest, hrest⟩ := ih ((List.mem_cons.mp h).resolve_left (Ne.symm hd))
      refine ⟨rest, ?_⟩
      rw [List.takeWhile_cons_of_pos (by simpa using hd), List.cons_append, ← hrest]

/-! ## Counting -/

theorem countFrom_append (count : Nat) (shape shape' : List UInt64) :
    countFrom count (shape ++ shape') = (countFrom count shape).bind fun next => countFrom next shape' := by
  induction shape generalizing count with
  | nil => rfl
  | cons d shape ih =>
    simp only [List.cons_append, countFrom]
    cases wordProduct? count d.toNat with
    | none => rfl
    | some next => exact ih next

theorem countFrom_zero (shape : List UInt64) : countFrom 0 shape = some 0 := by
  induction shape with
  | nil => rfl
  | cons d shape ih =>
    have hproduct : wordProduct? 0 d.toNat = some 0 := by
      rw [wordProduct?, Nat.zero_mul]
      rfl
    simp only [countFrom, hproduct, ih]

/-- Once a product is too large, dimensions that are not zero do not make it smaller. -/
theorem countFrom_of_not_mem {shape : List UInt64} (h : 0 ∉ shape) {count : Nat} (hpos : 0 < count)
    (hcount : count < UInt64.size) : countFrom count shape = word? (count * volume shape) := by
  induction shape generalizing count with
  | nil =>
    rw [volume, List.map_nil, List.prod_nil, Nat.mul_one, word?_of_lt hcount]
    rfl
  | cons d shape ih =>
    obtain ⟨hd, hshape⟩ := not_or.mp (mt List.mem_cons.mpr h)
    have hdpos : 0 < d.toNat := by
      refine Nat.pos_of_ne_zero fun hzero => hd ?_
      exact (UInt64.toNat_inj.mp (hzero.trans UInt64.toNat_zero.symm)).symm
    rw [volume_cons, ← Nat.mul_assoc]
    simp only [countFrom]
    by_cases hfits : count * d.toNat < UInt64.size
    · rw [wordProduct?, if_pos hfits]
      exact ih hshape (Nat.mul_pos hpos hdpos) hfits
    · have hvolume : 0 < volume shape := Nat.pos_of_ne_zero (mt volume_eq_zero_iff.mp hshape)
      have hlarge : UInt64.size ≤ count * d.toNat * volume shape :=
        Nat.le_trans (Nat.le_of_not_lt hfits) (Nat.le_mul_of_pos_right _ hvolume)
      rw [wordProduct?, if_neg hfits, word?_of_le hlarge]

theorem countFrom_one {shape : List UInt64} (h : 0 ∉ shape) : countFrom 1 shape = word? (volume shape) := by
  rw [countFrom_of_not_mem h Nat.one_pos (by decide), Nat.one_mul]

theorem elementCount_eq (desc : TensorDesc) :
    desc.elementCount = if Overruns desc.shape then none else word? (volume desc.shape) := by
  unfold elementCount
  by_cases hzero : 0 ∈ desc.shape
  · -- The count is down to the dimensions before the first zero, and after that it is zero.
    obtain ⟨rest, hsplit⟩ := exists_eq_append_zero hzero
    have hbefore : 0 ∉ desc.shape.takeWhile fun d => d ≠ 0 := fun hmem => by
      simpa using List.mem_takeWhile_imp hmem
    have hafter (count : Nat) : countFrom count (0 :: rest) = some 0 := by
      have hproduct : wordProduct? count (0 : UInt64).toNat = some 0 := by
        rw [UInt64.toNat_zero, wordProduct?, Nat.mul_zero]
        rfl
      simp only [countFrom, hproduct, countFrom_zero]
    have hcount : countFrom 1 desc.shape =
        (word? (volume (desc.shape.takeWhile fun d => d ≠ 0))).bind fun _ => some 0 := by
      conv_lhs => rw [hsplit]
      rw [countFrom_append, countFrom_one hbefore]
      simp only [hafter]
    rw [hcount, volume_eq_zero_iff.mpr hzero]
    by_cases hlarge : UInt64.size ≤ volume (desc.shape.takeWhile fun d => d ≠ 0)
    · rw [if_pos ⟨hzero, hlarge⟩, word?_of_le hlarge]
      rfl
    · rw [if_neg fun h => hlarge h.2, word?_of_lt (Nat.lt_of_not_le hlarge)]
      rfl
  · rw [if_neg fun h => hzero h.1]
    exact countFrom_one hzero

theorem byteSize_eq (desc : TensorDesc) :
    desc.byteSize =
      if Overruns desc.shape then none else word? (volume desc.shape * desc.elementType.width) := by
  unfold byteSize
  rw [elementCount_eq]
  by_cases hoverruns : Overruns desc.shape
  · rw [if_pos hoverruns, if_pos hoverruns]
  · rw [if_neg hoverruns, if_neg hoverruns]
    by_cases hfits : volume desc.shape < UInt64.size
    · rw [word?_of_lt hfits]
      rfl
    · have hlarge : UInt64.size ≤ volume desc.shape * desc.elementType.width :=
        Nat.le_trans (Nat.le_of_not_lt hfits) (Nat.le_mul_of_pos_right _ desc.elementType.width_pos)
      rw [word?_of_le (Nat.le_of_not_lt hfits), word?_of_le hlarge]

/-! ## Where sizes are exact -/

section
variable {shape : List UInt64} (h : Overruns shape) (elementType : ElementType)
include h

theorem Overruns.volume_eq_zero : volume shape = 0 := volume_eq_zero_iff.mpr h.1

theorem Overruns.elementCount_eq_none : elementCount ⟨elementType, shape⟩ = none := by
  rw [elementCount_eq, if_pos h]

theorem Overruns.byteSize_eq_none : byteSize ⟨elementType, shape⟩ = none := by
  rw [byteSize_eq, if_pos h]

end

/-- Counts and sizes are exact, or have no answer where a word does not hold them, for all shapes but those
that are too large before a zero; these have neither. So the order of the dimensions does not matter as
long as it does not lead into, or out of, such a shape. -/
theorem sizes_exact_iff (elementType : ElementType) (shape : List UInt64) :
    let count (shape : List UInt64) := elementCount ⟨elementType, shape⟩
    let size (shape : List UInt64) := byteSize ⟨elementType, shape⟩
    (count shape = word? (volume shape) ↔ ¬Overruns shape) ∧
    (size shape = word? (volume shape * elementType.width) ↔ ¬Overruns shape) ∧
    (Overruns shape → count shape = none ∧ size shape = none) ∧
    ∀ shape' : List UInt64, shape.Perm shape' →
      (count shape' = count shape ↔ (Overruns shape' ↔ Overruns shape)) ∧
      (size shape' = size shape ↔ (Overruns shape' ↔ Overruns shape)) := by
  intro count size
  have hcount (shape : List UInt64) : count shape = if Overruns shape then none else word? (volume shape) :=
    elementCount_eq ⟨elementType, shape⟩
  have hsize (shape : List UInt64) :
      size shape = if Overruns shape then none else word? (volume shape * elementType.width) :=
    byteSize_eq ⟨elementType, shape⟩
  have hnone : (none : Option Nat) ≠ word? 0 := by decide
  refine ⟨?_, ?_, fun h => ⟨h.elementCount_eq_none elementType, h.byteSize_eq_none elementType⟩, fun shape' hperm => ?_⟩
  · by_cases h : Overruns shape
    · simpa [hcount, h, h.volume_eq_zero] using hnone
    · simp [hcount, h]
  · by_cases h : Overruns shape
    · simpa [hsize, h, h.volume_eq_zero] using hnone
    · simp [hsize, h]
  · rw [hcount, hcount, hsize, hsize, volume_perm hperm]
    -- A shape that overruns has no elements, and neither has any other order of its dimensions.
    by_cases h : Overruns shape
    · by_cases h' : Overruns shape'
      · simp [h, h']
      · simpa [h, h', h.volume_eq_zero] using hnone.symm
    · by_cases h' : Overruns shape'
      · have hzero : volume shape = 0 := (volume_perm hperm).symm.trans h'.volume_eq_zero
        simpa [h, h', hzero] using hnone
      · simp [h, h']

/-- The zero may stand anywhere before the dimension that is too large for the others. -/
theorem sizes_exact_reordered :
    let shape : List UInt64 := [4, 0, 9223372036854775808]
    let shape' : List UInt64 := [0, 9223372036854775808, 4]
    shape.Perm shape' ∧ elementCount ⟨.f32, shape⟩ = some 0 ∧ elementCount ⟨.f32, shape'⟩ = some 0 := by
  intro shape shape'
  have hperm : shape.Perm shape' := by decide
  have hshape : ¬Overruns shape := by decide
  have hshape' : ¬Overruns shape' := by decide
  obtain ⟨hcount, -, -, horder⟩ := sizes_exact_iff .f32 shape
  have hfirst : elementCount ⟨.f32, shape⟩ = some 0 := hcount.mpr hshape
  exact ⟨hperm, hfirst, ((horder shape' hperm).1.mpr (iff_of_false hshape' hshape)).trans hfirst⟩

/-- A tensor without elements is said to have too many for a word, unless its zero comes first. -/
theorem elementCount_overrun :
    volume [9223372036854775808, 4, 0] = 0 ∧
      elementCount ⟨.u8, [9223372036854775808, 4, 0]⟩ = none ∧
      byteSize ⟨.u8, [9223372036854775808, 4, 0]⟩ = none ∧
      elementCount ⟨.u8, [0, 9223372036854775808, 4]⟩ = some 0 ∧
      byteSize ⟨.u8, [0, 9223372036854775808, 4]⟩ = some 0 := by
  decide

end TensorDesc

end DevicePlugin
