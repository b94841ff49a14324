import DevicePlugin.Bytes
import Mathlib

/-!
# Bytes as numbers

`toNat` reads back what `littleEndian` writes, as long as the bytes are enough.
-/

namespace DevicePlugin.Bytes

theorem toNat_littleEndian {count number : Nat} (h : number < 256 ^ count) :
    toNat (littleEndian count number) = number := by
  induction count generalizing number with
  | zero => simp [littleEndian, toNat]; omega
  | succ count ih =>
    have hdiv : number / 256 < 256 ^ count := by
      rw [Nat.pow_succ] at h
      exact Nat.div_lt_of_lt_mul (by omega)
    simp only [littleEndian, toNat, ih hdiv, UInt8.toNat_ofNat']
    omega

theorem toNat_lt (bytes : Bytes) : toNat bytes < 256 ^ bytes.length := by
  induction bytes with
  | nil => simp [toNat]
  | cons b rest ih =>
    have hb := b.toNat_lt
    simp only [toNat, List.length_cons, Nat.pow_succ]
    omega

end DevicePlugin.Bytes
