import DevicePlugin.Text.Numeral
import Mathlib.Data.List.DropRight
import Mathlib.Data.List.TakeWhile

/-!
# What a numeral is

A numeral is a run of decimal digits, perhaps after a plus sign, with blanks on
either side. Reading a text finds exactly the number that its numeral stands for,
however many zeros lead it, and nothing in a text that is no numeral.
-/

namespace DevicePlugin.Text

inductive Digits : List Char → Nat → Prop
  | one {d : Nat} : d < 10 → Digits [d.digitChar] d
  | snoc {cs : List Char} {n d : Nat} : Digits cs n → d < 10 → Digits (cs ++ [d.digitChar]) (10 * n + d)

inductive Signed : List Char → Nat → Prop
  | bare {cs : List Char} {n : Nat} : Digits cs n → Signed cs n
  | plus {cs : List Char} {n : Nat} : Digits cs n → Signed ('+' :: cs) n

inductive Numeral (s : String) (n : Nat) : Prop
  | mk {before middle after : List Char} : s.toList = before ++ middle ++ after →
      (∀ c ∈ before, isBlank c = true) → Signed middle n → (∀ c ∈ after, isBlank c = true) → Numeral s n

/-! ## Digits -/

theorem isDigit_digitChar {d : Nat} (h : d < 10) : d.digitChar.isDigit = true := by
  revert d
  decide

theorem exists_digitChar {c : Char} (h : c.isDigit = true) : ∃ d < 10, c = d.digitChar := by
  have hrange : 48 ≤ c.toNat ∧ c.toNat ≤ 57 := by simpa [Char.isDigit, UInt32.le_iff_toNat_le] using h
  have hchar : ∀ d < 10, Char.ofNat (d + 48) = d.digitChar := by decide
  refine ⟨c.toNat - 48, by omega, ?_⟩
  rw [← hchar (c.toNat - 48) (by omega), Nat.sub_add_cancel hrange.1, Char.ofNat_toNat]

theorem ofDigitChars_digitChar {d : Nat} (h : d < 10) (n : Nat) :
    Nat.ofDigitChars 10 [d.digitChar] n = 10 * n + d := by
  have hvalue : ∀ d < 10, d.digitChar.toNat - '0'.toNat = d := by decide
  rw [Nat.ofDigitChars_cons, hvalue d h, Nat.ofDigitChars_nil]

theorem Digits.isDigit {cs : List Char} {n : Nat} (h : Digits cs n) : ∀ c ∈ cs, c.isDigit = true := by
  induction h with
  | one hd => simpa using isDigit_digitChar hd
  | snoc _ hd ih =>
    intro c hc
    rcases List.mem_append.1 hc with hc | hc
    · exact ih c hc
    · rw [List.mem_singleton.1 hc]
      exact isDigit_digitChar hd

theorem Digits.ne_nil {cs : List Char} {n : Nat} (h : Digits cs n) : cs ≠ [] := by
  cases h <;> simp

theorem Digits.ofDigitChars {cs : List Char} {n : Nat} (h : Digits cs n) : Nat.ofDigitChars 10 cs 0 = n := by
  induction h with
  | one hd => rw [ofDigitChars_digitChar hd, Nat.mul_zero, Nat.zero_add]
  | snoc _ hd ih => rw [Nat.ofDigitChars_append, ih, ofDigitChars_digitChar hd]

theorem digits_of_isDigit {cs : List Char} (hne : cs ≠ []) (h : ∀ c ∈ cs, c.isDigit = true) :
    Digits cs (Nat.ofDigitChars 10 cs 0) := by
  induction cs using List.reverseRecOn with
  | nil => exact absurd rfl hne
  | append_singleton cs c ih =>
    obtain ⟨d, hd, rfl⟩ := exists_digitChar (h c (by simp))
    rw [Nat.ofDigitChars_append, ofDigitChars_digitChar hd]
    by_cases hnil : cs = []
    · subst hnil
      simpa using Digits.one hd
    · exact .snoc (ih hnil fun c hc => h c (List.mem_append_left _ hc)) hd

theorem digits?_eq_some_iff {cs : List Char} {n : Nat} : digits? cs = some n ↔ Digits cs n := by
  unfold digits?
  constructor
  · intro h
    split at h
    · rename_i hdigits
      cases h
      exact digits_of_isDigit hdigits.1 (List.all_eq_true.1 hdigits.2)
    · cases h
  · intro h
    rw [if_pos ⟨h.ne_nil, List.all_eq_true.2 h.isDigit⟩, h.ofDigitChars]

/-! ## Signs -/

theorem numeral?_eq_some_iff {cs : List Char} {n : Nat} : numeral? cs = some n ↔ Signed cs n := by
  unfold numeral?
  split
  · rename_i cs
    rw [digits?_eq_some_iff]
    constructor
    · exact .plus
    · intro h
      cases h with
      | bare h => exact absurd (h.isDigit '+' (List.mem_cons_self ..)) (by decide)
      | plus h => exact h
  · rename_i hplus
    rw [digits?_eq_some_iff]
    constructor
    · exact .bare
    · intro h
      cases h with
      | bare h => exact h
      | plus h => exact absurd rfl (hplus _)

theorem Signed.exists_digit {cs : List Char} {n : Nat} (h : Signed cs n) : ∃ c ∈ cs, c.isDigit = true := by
  have hdigit {cs : List Char} (h : Digits cs n) : ∃ c ∈ cs, c.isDigit = true := by
    obtain ⟨c, hc⟩ := List.exists_mem_of_ne_nil cs h.ne_nil
    exact ⟨c, hc, h.isDigit c hc⟩
  cases h with
  | bare h => exact hdigit h
  | plus h =>
    obtain ⟨c, hc, hdigit⟩ := hdigit h
    exact ⟨c, List.mem_cons_of_mem _ hc, hdigit⟩

theorem isBlank_of_isDigit {c : Char} (h : c.isDigit = true) : isBlank c = false := by
  obtain ⟨d, hd, rfl⟩ := exists_digitChar h
  revert d
  decide

theorem Signed.isBlank {cs : List Char} {n : Nat} (h : Signed cs n) : ∀ c ∈ cs, isBlank c = false := by
  cases h with
  | bare h => exact fun c hc => isBlank_of_isDigit (h.isDigit c hc)
  | plus h =>
    intro c hc
    rcases List.mem_cons.1 hc with rfl | hc
    · decide
    · exact isBlank_of_isDigit (h.isDigit c hc)

/-! ## Blanks at the ends -/

theorem trim_eq (cs : List Char) : trim cs = (cs.dropWhile isBlank).rdropWhile isBlank := rfl

theorem trim_append {before middle after : List Char} (hbefore : ∀ c ∈ before, isBlank c = true)
    (hmiddle : ∀ c ∈ middle, isBlank c = false) (hne : middle ≠ []) (hafter : ∀ c ∈ after, isBlank c = true) :
    trim (before ++ middle ++ after) = middle := by
  have hdrop : (before ++ middle ++ after).dropWhile isBlank = middle ++ after := by
    obtain ⟨c, rest, rfl⟩ := List.exists_cons_of_ne_nil hne
    rw [List.append_assoc, List.dropWhile_append_of_pos hbefore, List.cons_append, List.dropWhile_cons_of_neg]
    simp [hmiddle c (List.mem_cons_self ..)]
  have hrdrop : (middle ++ after).rdropWhile isBlank = middle.rdropWhile isBlank := by
    rw [List.rdropWhile, List.rdropWhile, List.reverse_append, List.dropWhile_append_of_pos]
    simpa using hafter
  rw [trim_eq, hdrop, hrdrop, List.rdropWhile_eq_self_iff]
  intro hne
  simp [hmiddle _ (List.getLast_mem hne)]

theorem exists_trim (cs : List Char) :
    ∃ before after, cs = before ++ trim cs ++ after ∧ (∀ c ∈ before, isBlank c = true) ∧
      ∀ c ∈ after, isBlank c = true := by
  refine ⟨cs.takeWhile isBlank, (cs.dropWhile isBlank).rtakeWhile isBlank, ?_, fun c => List.mem_takeWhile_imp,
    fun c => List.mem_rtakeWhile_imp⟩
  rw [trim_eq, List.append_assoc, List.rdropWhile_append_rtakeWhile, List.takeWhile_append_dropWhile]

/-! ## Numerals -/

theorem numeral?_trim_eq_some_iff {s : String} {n : Nat} : numeral? (trim s.toList) = some n ↔ Numeral s n := by
  rw [numeral?_eq_some_iff]
  constructor
  · intro h
    obtain ⟨before, after, hs, hbefore, hafter⟩ := exists_trim s.toList
    exact ⟨hs, hbefore, h, hafter⟩
  · rintro ⟨hs, hbefore, h, hafter⟩
    obtain ⟨c, hc, -⟩ := h.exists_digit
    rwa [hs, trim_append hbefore h.isBlank (List.ne_nil_of_mem hc) hafter]

theorem numeralBelow?_eq_some_iff {bound : Nat} {s : String} {n : Nat} :
    numeralBelow? bound s = some n ↔ Numeral s n ∧ n < bound := by
  rw [numeralBelow?, Option.filter_eq_some_iff, numeral?_trim_eq_some_iff, decide_eq_true_iff]

theorem Numeral.unique {s : String} {m n : Nat} (hm : Numeral s m) (hn : Numeral s n) : m = n := by
  rw [← numeral?_trim_eq_some_iff] at hm hn
  exact Option.some.inj (hm.symm.trans hn)

theorem Numeral.exists_digit {s : String} {n : Nat} (h : Numeral s n) : ∃ c ∈ s.toList, c.isDigit = true := by
  obtain ⟨hs, -, h, -⟩ := h
  obtain ⟨c, hc, hdigit⟩ := h.exists_digit
  refine ⟨c, ?_, hdigit⟩
  rw [hs]
  exact List.mem_append_left _ (List.mem_append_right _ hc)

end DevicePlugin.Text
