import DevicePlugin.Json.Token
import Mathlib.Data.List.TakeDrop

/-!
# Numbers as they are written

Decimal digits are read back as the number they were made from. A number ends
where no byte follows that could carry it on (`Ends`).
-/

namespace DevicePlugin.Json

namespace Number

def decimal (n : Nat) : Bytes := Bytes.ofAscii (Nat.toDigits 10 n)

theorem decimal_of_lt {n : Nat} (h : n < 10) : decimal n = [UInt8.ofNat (48 + n)] := by
  simp [decimal, Bytes.ofAscii, Nat.toDigits_of_lt_base h, Nat.toNat_digitChar_of_lt_ten h]

theorem decimal_of_le {n : Nat} (h : 10 ≤ n) :
    decimal n = decimal (n / 10) ++ [UInt8.ofNat (48 + n % 10)] := by
  have hmod : n % 10 < 10 := Nat.mod_lt _ (by omega)
  simp [decimal, Bytes.ofAscii, Nat.toDigits_of_base_le (by omega) h,
    Nat.toNat_digitChar_of_lt_ten hmod]

theorem isDigit_digit {d : Nat} (h : d < 10) : isDigit (UInt8.ofNat (48 + d)) = true := by
  have : ∀ d < 10, isDigit (UInt8.ofNat (48 + d)) = true := by decide
  exact this d h

theorem digitValue_digit {d : Nat} (h : d < 10) : digitValue (UInt8.ofNat (48 + d)) = d := by
  have : ∀ d < 10, digitValue (UInt8.ofNat (48 + d)) = d := by decide
  exact this d h

theorem isDigit_of_mem_decimal (n : Nat) : ∀ b ∈ decimal n, isDigit b = true := by
  induction n using Nat.strongRecOn with
  | _ n ih =>
    intro b hb
    rcases Nat.lt_or_ge n 10 with h | h
    · rw [decimal_of_lt h, List.mem_singleton] at hb
      subst hb
      exact isDigit_digit h
    · rw [decimal_of_le h, List.mem_append, List.mem_singleton] at hb
      rcases hb with hb | rfl
      · exact ih (n / 10) (by omega) b hb
      · exact isDigit_digit (Nat.mod_lt _ (by omega))

/-- A zero leads only where it stands alone. -/
theorem decimal_eq_cons (n : Nat) : ∃ d ds, decimal n = d :: ds ∧ ¬(d = 0x30 ∧ ds ≠ []) := by
  induction n using Nat.strongRecOn with
  | _ n ih =>
    rcases Nat.lt_or_ge n 10 with h | h
    · exact ⟨_, [], decimal_of_lt h, by simp⟩
    · obtain ⟨d, ds, hd, hz⟩ := ih (n / 10) (by omega)
      refine ⟨d, ds ++ [UInt8.ofNat (48 + n % 10)], by rw [decimal_of_le h, hd]; rfl, ?_⟩
      rintro ⟨rfl, -⟩
      have hds : ds = [] := by simpa using hz
      subst hds
      rcases Nat.lt_or_ge (n / 10) 10 with h' | h'
      · rw [decimal_of_lt h', List.cons.injEq] at hd
        have := digitValue_digit h'
        rw [hd.1] at this
        simp [digitValue] at this
        omega
      · have := congrArg List.length hd
        rw [decimal_of_le h', decimal] at this
        simp [Bytes.ofAscii] at this

theorem accumulate_append {m k : Nat} {as : Bytes} (bs : Bytes) (h : accumulate m as = (k, 0)) :
    accumulate m (as ++ bs) = accumulate k bs := by
  induction as generalizing m with
  | nil =>
    simp only [accumulate, Prod.mk.injEq, and_true] at h
    simp [h]
  | cons a as ih =>
    simp only [accumulate] at h
    split at h
    · rename_i hlt
      simp only [List.cons_append, accumulate, if_pos hlt]
      exact ih h
    · simp at h

theorem accumulate_decimal {n : Nat} (h : n < UInt64.size) : accumulate 0 (decimal n) = (n, 0) := by
  induction n using Nat.strongRecOn with
  | _ n ih =>
    rcases Nat.lt_or_ge n 10 with hn | hn
    · have hv : 0 * 10 + digitValue (UInt8.ofNat (48 + n)) = n := by rw [digitValue_digit hn]; omega
      rw [decimal_of_lt hn]
      simp only [accumulate, hv, if_pos h]
    · rw [decimal_of_le hn, accumulate_append _ (ih (n / 10) (by omega) (by omega))]
      have hv : n / 10 * 10 + digitValue (UInt8.ofNat (48 + n % 10)) = n := by
        rw [digitValue_digit (Nat.mod_lt _ (by omega))]
        omega
      simp only [accumulate, hv, if_pos h]

/-- Nothing follows that could carry a number on. -/
def Ends (rest : Bytes) : Prop :=
  ∀ b ∈ rest.head?, isDigit b = false ∧ b ≠ 0x2e ∧ b ≠ 0x65 ∧ b ≠ 0x45

theorem span_decimal (n : Nat) {rest : Bytes} (h : Ends rest) :
    (decimal n ++ rest).span isDigit = (decimal n, rest) := by
  have hall := isDigit_of_mem_decimal n
  have hrest : rest.takeWhile isDigit = [] ∧ rest.dropWhile isDigit = rest := by
    cases rest with
    | nil => simp
    | cons b rest =>
      have hb := (h b (by simp)).1
      simp [hb]
  rw [List.span_eq_takeWhile_dropWhile, List.takeWhile_append_of_pos hall,
    List.dropWhile_append_of_pos hall, hrest.1, hrest.2, List.append_nil]

end Number

namespace Token

open Number

theorem readNumber_decimal (negative : Bool) (n : Nat) {rest : Bytes} (h : Ends rest) :
    readNumber negative (decimal n ++ rest) = (.number (whole? negative (decimal n)), rest) := by
  obtain ⟨d, ds, hd, hz⟩ := decimal_eq_cons n
  have hspan := span_decimal n h
  unfold readNumber
  rw [hspan, hd]
  simp only [if_neg hz]
  cases rest with
  | nil => rfl
  | cons b rest =>
    obtain ⟨-, hpoint, hlower, hupper⟩ := h b (by simp)
    simp [readAfterWhole, hpoint, hlower, hupper]

theorem readNumber_natural (v : UInt64) {rest : Bytes} (h : Ends rest) :
    readNumber false (decimal v.toNat ++ rest) = (.number (some (.natural v)), rest) := by
  rw [readNumber_decimal false _ h]
  simp [whole?, accumulate_decimal v.toNat_lt]

theorem readNumber_negative {v : Int64} (hv : v < 0) {rest : Bytes} (h : Ends rest) :
    readNumber true (decimal v.toInt.natAbs ++ rest) = (.number (some (.negative v)), rest) := by
  have hneg : v.toInt < 0 := by simpa [Int64.lt_iff_toInt_lt] using hv
  have hle := Int64.le_toInt v
  rw [readNumber_decimal true _ h]
  have hacc : accumulate 0 (decimal v.toInt.natAbs) = (v.toInt.natAbs, 0) :=
    accumulate_decimal (by simp only [UInt64.size]; omega)
  have hrange : ¬(v.toInt.natAbs = 0 ∨ UInt64.size / 2 < v.toInt.natAbs) := by
    simp only [UInt64.size]; omega
  have hback : Int64.ofInt (-(v.toInt.natAbs : Int)) = v := by
    rw [show -(v.toInt.natAbs : Int) = v.toInt by omega, Int64.ofInt_toInt]
  simp only [whole?, hacc, if_neg hrange, hback, Bool.not_true, Bool.false_eq_true, if_false]

end Token

end DevicePlugin.Json
