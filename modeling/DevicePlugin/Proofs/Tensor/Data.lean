import DevicePlugin.Bytes.Lemmas
import DevicePlugin.Proofs.Tensor.Size
import DevicePlugin.Tensor.Data

/-!
# Data of tensors

A tensor has as many bytes as the elements of its shape take, whichever way it was
made. So bit patterns of four bytes leave nothing over: packing and unpacking them
are inverse to each other on tensors of type `f32`.
-/

namespace DevicePlugin.Tensor

open TensorDesc (volume)

structure Exact (t : Tensor) : Prop where
  length_eq : t.data.length = volume t.desc.shape * t.desc.elementType.width
  length_lt : t.data.length < 2 ^ 64

theorem exact (t : Tensor) : t.Exact := by
  have hsized := t.sized
  rw [TensorDesc.byteSize_eq] at hsized
  by_cases hoverruns : TensorDesc.Overruns t.desc.shape
  · rw [if_pos hoverruns] at hsized
    cases hsized
  · rw [if_neg hoverruns] at hsized
    by_cases hfits : volume t.desc.shape * t.desc.elementType.width < UInt64.size
    · rw [word?_of_lt hfits] at hsized
      have hlength := (Option.some.inj hsized).symm
      exact ⟨hlength, hlength ▸ hfits⟩
    · rw [word?_of_le (Nat.le_of_not_lt hfits)] at hsized
      cases hsized

/-! ## Making tensors -/

theorem ofData_eq_ok_iff {desc : TensorDesc} {data : Bytes} {t : Tensor} :
    ofData desc data = .ok t ↔ t.desc = desc ∧ t.data = data := by
  constructor
  · intro h
    unfold ofData at h
    split at h
    · cases h
    · split at h <;> cases h
      exact ⟨rfl, rfl⟩
  · rintro ⟨rfl, rfl⟩
    unfold ofData
    split
    next hnone => exact absurd (t.sized.symm.trans hnone) (by simp)
    next needed hneeded =>
      rw [dif_pos (Option.some.inj (t.sized.symm.trans hneeded))]

theorem exists_ofData_iff {desc : TensorDesc} {data : Bytes} :
    (∃ t, ofData desc data = .ok t) ↔ desc.byteSize = some data.length := by
  constructor
  · rintro ⟨t, h⟩
    obtain ⟨rfl, rfl⟩ := ofData_eq_ok_iff.mp h
    exact t.sized
  · intro hsized
    exact ⟨⟨desc, data, hsized⟩, ofData_eq_ok_iff.mpr ⟨rfl, rfl⟩⟩

theorem of_zeros {desc : TensorDesc} {t : Tensor} (h : zeros desc = .ok t) :
    t.desc = desc ∧ t.data = List.replicate t.data.length 0 := by
  unfold zeros at h
  split at h <;> cases h
  exact ⟨rfl, by rw [List.length_replicate]⟩

theorem exists_zeros_iff {desc : TensorDesc} : (∃ t, zeros desc = .ok t) ↔ desc.byteSize.isSome := by
  constructor
  · rintro ⟨t, h⟩
    obtain ⟨rfl, -⟩ := of_zeros h
    exact Option.isSome_of_eq_some t.sized
  · intro hsome
    unfold zeros
    split
    next hnone => rw [hnone] at hsome; cases hsome
    next => exact ⟨_, rfl⟩

theorem ofF32_eq_ok_iff {shape : List UInt64} {bits : List UInt32} {t : Tensor} :
    ofF32 shape bits = .ok t ↔ t.desc = ⟨.f32, shape⟩ ∧ t.data = packBits bits :=
  ofData_eq_ok_iff

/-! ## Bit patterns -/

theorem packBits_cons (b : UInt32) (bits : List UInt32) :
    packBits (b :: bits) = Bytes.littleEndian 4 b.toNat ++ packBits bits := List.flatMap_cons

theorem unpackBits_append {chunk : Bytes} (h : chunk.length = 4) (rest : Bytes) :
    unpackBits (chunk ++ rest) = UInt32.ofNat (Bytes.toNat chunk) :: unpackBits rest := by
  match chunk, h with
  | [_, _, _, _], _ => rfl

theorem unpackBits_packBits : ∀ bits : List UInt32, unpackBits (packBits bits) = bits
  | [] => rfl
  | b :: bits => by
    have hb : Bytes.toNat (Bytes.littleEndian 4 b.toNat) = b.toNat := Bytes.toNat_littleEndian b.toNat_lt
    rw [packBits_cons, unpackBits_append (Bytes.length_littleEndian 4 b.toNat), hb, UInt32.ofNat_toNat,
      unpackBits_packBits bits]

theorem littleEndian_ofNat_toNat {chunk : Bytes} (h : chunk.length = 4) :
    Bytes.littleEndian 4 (UInt32.ofNat (Bytes.toNat chunk)).toNat = chunk := by
  have hbound : Bytes.toNat chunk < UInt32.size := (Bytes.toNat_lt chunk).trans_eq (by rw [h]; rfl)
  rw [UInt32.toNat_ofNat_of_lt' hbound, ← h, Bytes.littleEndian_toNat]

theorem packBits_unpackBits : ∀ data : Bytes, 4 ∣ data.length → packBits (unpackBits data) = data
  | [], _ => rfl
  | [_], h | [_, _], h | [_, _, _], h => absurd h (by norm_num)
  | b₀ :: b₁ :: b₂ :: b₃ :: rest, h => by
    have hrest : 4 ∣ rest.length := (Nat.dvd_add_left (Nat.dvd_refl 4)).mp h
    rw [unpackBits, packBits_cons, littleEndian_ofNat_toNat rfl, packBits_unpackBits rest hrest]
    rfl

theorem length_packBits : ∀ bits : List UInt32, (packBits bits).length = bits.length * 4
  | [] => rfl
  | b :: bits => by
    rw [packBits_cons, List.length_append, Bytes.length_littleEndian, length_packBits bits, List.length_cons]
    omega

theorem exists_ofF32_iff {shape : List UInt64} {bits : List UInt32} :
    (∃ t, ofF32 shape bits = .ok t) ↔ (TensorDesc.mk .f32 shape).byteSize = some (bits.length * 4) := by
  rw [← length_packBits]
  exact exists_ofData_iff

section
variable {t : Tensor}

theorem toF32_eq (h : t.desc.elementType = .f32) : t.toF32 = some (unpackBits t.data) := if_pos h

theorem packBits_data (h : t.desc.elementType = .f32) : packBits (unpackBits t.data) = t.data := by
  -- The size of a tensor is what keeps the last chunk from being cut off.
  refine packBits_unpackBits t.data ⟨volume t.desc.shape, ?_⟩
  rw [t.exact.length_eq, h, Nat.mul_comm]
  rfl

theorem length_unpackBits (h : t.desc.elementType = .f32) :
    (unpackBits t.data).length = volume t.desc.shape := by
  have hbytes : (unpackBits t.data).length * 4 = volume t.desc.shape * 4 := by
    rw [← length_packBits, packBits_data h, t.exact.length_eq, h]
    rfl
  exact Nat.mul_right_cancel (by decide) hbytes

end

/-- A tensor is made whenever a word can say how large it has to be and the data, if any is given, is as large.
Whichever way it is made, it is exactly as large as its descriptor asks for. Bit patterns come out of a tensor as
they went in, and go back into the tensor they came out of; tensors of other types have none. -/
theorem exact_and_f32_lossless :
    (∀ desc data, ((∃ t, ofData desc data = .ok t) ↔ desc.byteSize = some data.length) ∧
      ∀ t, ofData desc data = .ok t → t.desc = desc ∧ t.data = data ∧ t.Exact) ∧
    (∀ desc, ((∃ t, zeros desc = .ok t) ↔ desc.byteSize.isSome) ∧
      ∀ t, zeros desc = .ok t → t.desc = desc ∧ (∀ b ∈ t.data, b = 0) ∧ t.Exact) ∧
    (∀ shape bits,
      ((∃ t, ofF32 shape bits = .ok t) ↔ (TensorDesc.mk .f32 shape).byteSize = some (bits.length * 4)) ∧
      ∀ t, ofF32 shape bits = .ok t → t.desc = ⟨.f32, shape⟩ ∧ t.toF32 = some bits ∧ t.Exact) ∧
    (∀ t : Tensor, t.desc.elementType = .f32 →
      ∃ bits, t.toF32 = some bits ∧ bits.length = volume t.desc.shape ∧ ofF32 t.desc.shape bits = .ok t) ∧
    ∀ t : Tensor, t.desc.elementType ≠ .f32 → t.toF32 = none := by
  refine ⟨?ofData, ?zeros, ?ofF32, ?toF32, fun t h => if_neg h⟩
  case ofData =>
    refine fun desc data => ⟨exists_ofData_iff, fun t h => ?_⟩
    obtain ⟨hdesc, hdata⟩ := ofData_eq_ok_iff.mp h
    exact ⟨hdesc, hdata, t.exact⟩
  case zeros =>
    refine fun desc => ⟨exists_zeros_iff, fun t h => ?_⟩
    obtain ⟨hdesc, hdata⟩ := of_zeros h
    exact ⟨hdesc, fun b hb => List.eq_of_mem_replicate (hdata ▸ hb), t.exact⟩
  case ofF32 =>
    refine fun shape bits => ⟨exists_ofF32_iff, fun t h => ?_⟩
    obtain ⟨hdesc, hdata⟩ := ofF32_eq_ok_iff.mp h
    refine ⟨hdesc, ?_, t.exact⟩
    rw [toF32_eq (by rw [hdesc]), hdata, unpackBits_packBits]
  case toF32 =>
    intro t h
    refine ⟨unpackBits t.data, toF32_eq h, length_unpackBits h, ?_⟩
    exact ofF32_eq_ok_iff.mpr ⟨h ▸ rfl, (packBits_data h).symm⟩

/-- The payload of a NaN and the sign of a zero are kept. -/
theorem f32_lossless_nan :
    let bits : List UInt32 := [0x7fa00001, 0x80000000]
    ∃ t, ofF32 [2, 1] bits = .ok t ∧ t.toF32 = some bits ∧ t.data.length = 8 ∧
      ofF32 t.desc.shape bits = .ok t := by
  intro bits
  let t : Tensor := ⟨⟨.f32, [2, 1]⟩, packBits bits, by decide⟩
  have hmade : ofF32 [2, 1] bits = .ok t := ofF32_eq_ok_iff.mpr ⟨rfl, rfl⟩
  obtain ⟨-, -, hof, hto, -⟩ := exact_and_f32_lossless
  obtain ⟨-, hbits, hexact⟩ := (hof [2, 1] bits).2 t hmade
  obtain ⟨bits', hbits', -, hback⟩ := hto t rfl
  cases Option.some.inj (hbits.symm.trans hbits')
  exact ⟨t, hmade, hbits, hexact.length_eq, hback⟩

end DevicePlugin.Tensor
