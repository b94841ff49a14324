import DevicePlugin.Proofs.Json.Numeral

/-!
# Reading back tokens

The tokens that a writer makes are read back one by one, as long as no number
stands right before another one.
-/

namespace DevicePlugin.Json.Token

/-! ## Text -/

theorem ofText_control {b : UInt8} (h : b < 0x20) :
    Bytes.ofText (String.singleton (Char.ofNat b.toNat)) = [b] := by
  have all : ∀ n < 32, Bytes.ofText (String.singleton (Char.ofNat n)) = [UInt8.ofNat n] := by decide +kernel
  simpa using all b.toNat (by simpa [UInt8.lt_iff_toNat_lt] using h)

theorem hex4_control {b : UInt8} (h : b < 0x20) :
    hex4? 0x30 0x30 (hexByte (b.toNat / 16)) (hexByte (b.toNat % 16)) = some b.toNat := by
  have all : ∀ n < 32, hex4? 0x30 0x30 (hexByte (n / 16)) (hexByte (n % 16)) = some n := by
    decide +kernel
  exact all b.toNat (by simpa [UInt8.lt_iff_toNat_lt] using h)

theorem readText_quote (read : Bytes) (rest : Bytes) :
    readText (.ok read) none (0x22 :: rest) = (.text (Bytes.toText? read.reverse), rest) := by
  rw [readText.eq_def]
  rfl

theorem readText_escaped (read : Bytes) {e byte : UInt8} (rest : Bytes) (hu : e ≠ 0x75)
    (he : unescape? e = some byte) :
    readText (.ok read) none (0x5c :: e :: rest) = readText (.ok (byte :: read)) none rest := by
  rw [readText.eq_def]
  simp [hu, he, Content.noHalf, Content.push, Except.map]

theorem readText_control (read : Bytes) {b : UInt8} (rest : Bytes) (h : b < 0x20) :
    readText (.ok read) none
        (0x5c :: 0x75 :: 0x30 :: 0x30 :: hexByte (b.toNat / 16) :: hexByte (b.toNat % 16) :: rest) =
      readText (.ok (b :: read)) none rest := by
  have hlt : b.toNat < 32 := by simpa [UInt8.lt_iff_toNat_lt] using h
  have hhigh : ¬(0xd800 ≤ b.toNat ∧ b.toNat ≤ 0xdbff) := by omega
  have hlow : ¬(0xdc00 ≤ b.toNat ∧ b.toNat ≤ 0xdfff) := by omega
  rw [readText.eq_def]
  simp [hex4_control h, Content.unit, hhigh, hlow, ofText_control h, Content.push, Except.map]

theorem readText_plain (read : Bytes) {b : UInt8} (rest : Bytes) (hq : b ≠ 0x22) (hs : b ≠ 0x5c)
    (hc : ¬b < 0x20) : readText (.ok read) none (b :: rest) = readText (.ok (b :: read)) none rest := by
  rw [readText.eq_def]
  simp [hq, hs, hc, Content.noHalf, Content.push, Except.map]

theorem readText_escapeByte (read : Bytes) (b : UInt8) (rest : Bytes) :
    readText (.ok read) none (escapeByte b ++ rest) = readText (.ok (b :: read)) none rest := by
  unfold escapeByte
  split
  · rename_i h; subst h; exact readText_escaped read rest (by decide) (by decide)
  split
  · rename_i h; subst h; exact readText_escaped read rest (by decide) (by decide)
  split
  · rename_i h; subst h; exact readText_escaped read rest (by decide) (by decide)
  split
  · rename_i h; subst h; exact readText_escaped read rest (by decide) (by decide)
  split
  · rename_i h; subst h; exact readText_escaped read rest (by decide) (by decide)
  split
  · rename_i h; subst h; exact readText_escaped read rest (by decide) (by decide)
  split
  · rename_i h; subst h; exact readText_escaped read rest (by decide) (by decide)
  split
  · rename_i h; exact readText_control read rest h
  · rename_i hq hs _ _ _ _ _ hc; exact readText_plain read rest hq hs hc

theorem readText_escaped_bytes (bytes read rest : Bytes) :
    readText (.ok read) none (bytes.flatMap escapeByte ++ 0x22 :: rest) =
      (.text (Bytes.toText? (read.reverse ++ bytes)), rest) := by
  induction bytes generalizing read with
  | nil => simpa using readText_quote read rest
  | cons b bytes ih =>
    rw [List.flatMap_cons, List.append_assoc, readText_escapeByte, ih]
    simp

/-! ## Single tokens -/

def IsWritten : Token → Prop
  | .number (some (.natural _)) => True
  | .number (some (.negative v)) => v < 0
  | .number _ => False
  | .text none => False
  | .brokenText .. => False
  | .broken .. => False
  | _ => True

def isNumber : Token → Bool
  | .number _ => true
  | _ => false

theorem ne_of_isDigit {b c : UInt8} (h : Number.isDigit b = true) (hc : Number.isDigit c = false) :
    b ≠ c := by
  rintro rfl
  rw [h] at hc
  cases hc

theorem read_digit {b : UInt8} (h : Number.isDigit b = true) (rest : Bytes) :
    read b rest = readNumber false (b :: rest) := by
  have hne {c : UInt8} : Number.isDigit c = false → b ≠ c := ne_of_isDigit h
  unfold read
  rw [if_neg (hne rfl), if_neg (hne rfl), if_neg (hne rfl), if_neg (hne rfl), if_neg (hne rfl),
    if_neg (hne rfl), if_neg (hne rfl), if_neg (hne rfl), if_pos h]

theorem isBlank_digit {b : UInt8} (h : Number.isDigit b = true) : isBlank b = false := by
  have hne {c : UInt8} : Number.isDigit c = false → b ≠ c := ne_of_isDigit h
  simp [isBlank, hne (c := 0x20) rfl, hne (c := 0x0a) rfl, hne (c := 0x09) rfl, hne (c := 0x0d) rfl]

/-- A written token starts with a byte that is no blank, and is read back. Only a number asks what
follows it. -/
theorem read_bytes {t : Token} (ht : t.IsWritten) (rest : Bytes)
    (hends : t.isNumber → Number.Ends rest) :
    ∃ b bs, t.bytes = b :: bs ∧ isBlank b = false ∧ read b (bs ++ rest) = (t, rest) := by
  cases t with
  | openBrace => exact ⟨0x7b, [], rfl, rfl, rfl⟩
  | closeBrace => exact ⟨0x7d, [], rfl, rfl, rfl⟩
  | openBracket => exact ⟨0x5b, [], rfl, rfl, rfl⟩
  | closeBracket => exact ⟨0x5d, [], rfl, rfl, rfl⟩
  | colon => exact ⟨0x3a, [], rfl, rfl, rfl⟩
  | comma => exact ⟨0x2c, [], rfl, rfl, rfl⟩
  | null => exact ⟨0x6e, [0x75, 0x6c, 0x6c], rfl, rfl, rfl⟩
  | bool value =>
    cases value with
    | true => exact ⟨0x74, [0x72, 0x75, 0x65], rfl, rfl, rfl⟩
    | false => exact ⟨0x66, [0x61, 0x6c, 0x73, 0x65], rfl, rfl, rfl⟩
  | number value =>
    have hrest : Number.Ends rest := hends rfl
    cases value with
    | none => exact ht.elim
    | some n =>
      cases n with
      | fraction => exact ht.elim
      | natural v =>
        obtain ⟨d, ds, hd, -⟩ := Number.decimal_eq_cons v.toNat
        have hdigit := Number.isDigit_of_mem_decimal v.toNat d (by simp [hd])
        have hread := readNumber_natural v hrest
        rw [hd] at hread
        refine ⟨d, ds, hd, isBlank_digit hdigit, ?_⟩
        rw [read_digit hdigit]
        exact hread
      | negative v =>
        refine ⟨0x2d, Number.decimal v.toInt.natAbs, rfl, rfl, ?_⟩
        exact readNumber_negative ht hrest
  | text content =>
    cases content with
    | none => exact ht.elim
    | some s =>
      refine ⟨0x22, (Bytes.ofText s).flatMap escapeByte ++ [0x22], rfl, rfl, ?_⟩
      have := readText_escaped_bytes (Bytes.ofText s) [] rest
      simpa [read] using this
  | brokenText careful skipping => exact ht.elim
  | broken careful skipping => exact ht.elim

/-! ## Lists of tokens -/

/-- Written tokens of which no two numbers stand side by side. -/
def Spaced : List Token → Prop
  | [] => True
  | t :: rest => t.IsWritten ∧ (t.isNumber → ∀ next ∈ rest.head?, next.isNumber = false) ∧ Spaced rest

theorem ends_of_head {rest : List Token} (hw : Spaced rest)
    (h : ∀ next ∈ rest.head?, next.isNumber = false) : Number.Ends (rest.flatMap bytes) := by
  cases rest with
  | nil => simp [Number.Ends]
  | cons t rest =>
    have hn : t.isNumber = false := h t (by simp)
    obtain ⟨b, bs, hb, -⟩ := read_bytes hw.1 [] (by simp [hn])
    intro c hc
    rw [List.flatMap_cons, hb, List.cons_append, List.head?_cons, Option.mem_some] at hc
    subst hc
    cases t with
    | number value => cases hn
    | text content => cases content with
      | none => exact hw.1.elim
      | some s =>
        cases hb
        decide
    | bool value => cases value <;> cases hb <;> decide
    | brokenText careful skipping => exact hw.1.elim
    | broken careful skipping => exact hw.1.elim
    | _ => cases hb; decide

/-- Blanks apart, every token takes one step of the fuel. -/
theorem readAll_bytes {tokens : List Token} (h : Spaced tokens) {fuel : Nat}
    (hf : tokens.length ≤ fuel) : readAll fuel (tokens.flatMap bytes) = tokens := by
  induction tokens generalizing fuel with
  | nil => cases fuel <;> rfl
  | cons t rest ih =>
    obtain ⟨ht, hnext, hrest⟩ := h
    obtain ⟨b, bs, hb, hblank, hread⟩ := read_bytes ht (rest.flatMap bytes)
      fun hn => ends_of_head hrest (hnext hn)
    cases fuel with
    | zero => simp at hf
    | succ fuel =>
      have : readAll fuel (rest.flatMap bytes) = rest := ih hrest (by simpa using hf)
      simp [hb, readAll, hblank, hread, this]

theorem length_le_bytes {tokens : List Token} (h : Spaced tokens) :
    tokens.length ≤ (tokens.flatMap bytes).length := by
  induction tokens with
  | nil => simp
  | cons t rest ih =>
    obtain ⟨ht, hnext, hrest⟩ := h
    obtain ⟨b, bs, hb, -⟩ := read_bytes ht (rest.flatMap bytes) fun hn => ends_of_head hrest (hnext hn)
    have := ih hrest
    simp only [List.length_cons, List.flatMap_cons, List.length_append, hb]
    omega

theorem ofBytes_bytes {tokens : List Token} (h : Spaced tokens) :
    ofBytes (tokens.flatMap bytes) = tokens :=
  readAll_bytes h (length_le_bytes h)

end DevicePlugin.Json.Token
