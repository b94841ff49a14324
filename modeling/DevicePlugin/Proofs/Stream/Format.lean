import DevicePlugin.Failure
import DevicePlugin.Proofs.Stream.Sequence

/-!
# What is a blob

Bytes start with a blob, or one of its blocks is not all there. In the first
case reading answers the only blob they start with; in the second it says which
block is missing what, and has read everything.
-/

namespace DevicePlugin.Blob

/-! ## Bytes that start with no blob -/

/-- Bytes that start with no block of this name, and what is said about them. -/
inductive Lacks (name : String) : Bytes → String → Prop
  | length {bytes : Bytes} (short : bytes.length < 8) :
    Lacks name bytes ("missing " ++ name ++ " block length")
  | content {declared : Nat} {present : Bytes} (hdeclared : declared < UInt64.size)
      (short : present.length < declared) :
    Lacks name (Bytes.word declared ++ present)
      (name ++ " block declares " ++ declared.repr ++ " bytes but only " ++ present.length.repr ++ " are present")

inductive Lacking : Bytes → String → Prop
  | document {bytes : Bytes} {text : String} (h : Lacks "structure" bytes text) : Lacking bytes text
  | constants {document rest : Bytes} {text : String} (hsize : document.length < UInt64.size)
      (h : Lacks "constants" rest text) : Lacking (blockBytes document ++ rest) text

theorem word_take {bytes : Bytes} (h : 8 ≤ bytes.length) :
    Bytes.word (Bytes.toNat (bytes.take 8)) = bytes.take 8 := by
  have hlength : (bytes.take 8).length = 8 := by simp [h]
  have hback := Bytes.littleEndian_toNat (bytes.take 8)
  rwa [hlength] at hback

theorem block_or_lacks (name : String) (bytes : Bytes) :
    (∃ content rest, content.length < UInt64.size ∧ bytes = blockBytes content ++ rest) ∨
      ∃ text, Lacks name bytes text := by
  by_cases hshort : bytes.length < 8
  · exact .inr ⟨_, .length hshort⟩
  have hword : Bytes.word (Bytes.toNat (bytes.take 8)) = bytes.take 8 := word_take (Nat.le_of_not_lt hshort)
  have hdeclared : Bytes.toNat (bytes.take 8) < UInt64.size := by
    have hlt := Bytes.toNat_lt (bytes.take 8)
    have hlength : (bytes.take 8).length = 8 := by simp; omega
    rwa [hlength] at hlt
  generalize Bytes.toNat (bytes.take 8) = declared at hword hdeclared
  have hsplit : bytes = Bytes.word declared ++ bytes.drop 8 := by rw [hword, List.take_append_drop]
  generalize bytes.drop 8 = present at hsplit
  subst hsplit
  by_cases hpresent : present.length < declared
  · exact .inr ⟨_, .content hdeclared hpresent⟩
  · have hlength : (present.take declared).length = declared := by simp; omega
    refine .inl ⟨present.take declared, present.drop declared, by rwa [hlength], ?_⟩
    rw [blockBytes, hlength, List.append_assoc, List.take_append_drop]

/-- Bytes start with a blob, or they are rejected. -/
theorem starts_or_lacking (bytes : Bytes) :
    (∃ b : Blob, b.Addressable ∧ ∃ rest, bytes = b.encode ++ rest) ∨ ∃ text, Lacking bytes text := by
  rcases block_or_lacks "structure" bytes with ⟨document, rest, hdocument, rfl⟩ | ⟨text, h⟩
  · rcases block_or_lacks "constants" rest with ⟨constants, rest, hconstants, rfl⟩ | ⟨text, h⟩
    · refine .inl ⟨⟨document, constants⟩, ⟨hdocument, hconstants⟩, rest, ?_⟩
      rw [encode_eq, List.append_assoc]
    · exact .inr ⟨text, .constants hdocument h⟩
  · exact .inr ⟨text, .document h⟩

/-! ## Reading them -/

section
variable {s : Stream.Source} (hs : s.Steady)
include hs

theorem readBlock_steady (block : Block) {bytes rest : Bytes} (hsize : bytes.length < UInt64.size)
    (hbytes : s.remaining = blockBytes bytes ++ rest) :
    ∃ interrupts, readBlock block s = (.ok bytes,
      { s with remaining := rest, cursor := ⟨s.cursor.position + (blockBytes bytes).length, interrupts⟩ }) := by
  apply readBlock_blockBytes block hsize hbytes
  apply hs.moves.mono (Nat.le_refl _)
  rw [hbytes, List.length_append]
  omega

theorem readBlock_of_lacks (block : Block) {text : String} (h : Lacks block.name s.remaining text) :
    ∃ form interrupts, FormFault.message form = text ∧ readBlock block s = (.error (.form form),
      { s with remaining := [], cursor := ⟨s.cursor.position + s.remaining.length, interrupts⟩ }) := by
  generalize hbytes : s.remaining = bytes at h
  cases h with
  | length hshort =>
    obtain ⟨interrupts, hfetch⟩ := hs.fetch_past_end (hbytes ▸ hshort)
    refine ⟨.missingLength block, interrupts, rfl, ?_⟩
    simp only [readBlock, hfetch, hbytes]
  | @content declared present hdeclared hshort =>
    obtain ⟨interrupts, hfirst⟩ := hs.fetch hbytes
    obtain ⟨interrupts', hsecond⟩ := (hs.rest hbytes interrupts).fetch_past_end hshort
    rw [length_word] at hfirst
    refine ⟨.shortBlock block declared present.length, interrupts', rfl, ?_⟩
    simp only [readBlock, hfirst, toNat_word hdeclared]
    rw [length_word] at hsecond
    rw [hsecond]
    simp only [List.length_append, length_word, Nat.add_assoc]

theorem read_of_lacking {text : String} (h : Lacking s.remaining text) :
    ∃ form interrupts, FormFault.message form = text ∧ read s = (.error (.form form),
      { s with remaining := [], cursor := ⟨s.cursor.position + s.remaining.length, interrupts⟩ }) := by
  generalize hbytes : s.remaining = bytes at h
  cases h with
  | document h =>
    subst hbytes
    obtain ⟨form, interrupts, hform, hread⟩ := readBlock_of_lacks hs .document h
    exact ⟨form, interrupts, hform, by simp only [read, hread]⟩
  | @constants document rest text hsize h =>
    obtain ⟨interrupts, hdocument⟩ := readBlock_steady hs .document hsize hbytes
    obtain ⟨form, interrupts', hform, hread⟩ := readBlock_of_lacks (hs.rest hbytes interrupts) .constants h
    refine ⟨form, interrupts', hform, ?_⟩
    simp only [read, hdocument]
    rw [hread]
    simp only [List.length_append, Nat.add_assoc]

theorem read_of_starts {b : Blob} (hb : b.Addressable) {rest : Bytes} (hbytes : s.remaining = b.encode ++ rest) :
    ∃ interrupts, read s = (.ok b,
      { s with remaining := rest, cursor := ⟨s.cursor.position + b.encode.length, interrupts⟩ }) := by
  apply read_encode hb hbytes
  apply hs.moves.mono (Nat.le_refl _)
  rw [hbytes, List.length_append]
  omega

theorem eq_of_starts {a b : Blob} (ha : a.Addressable) (hb : b.Addressable) {rest rest' : Bytes}
    (h : s.remaining = a.encode ++ rest) (h' : s.remaining = b.encode ++ rest') : a = b := by
  obtain ⟨interrupts, hfirst⟩ := read_of_starts hs ha h
  obtain ⟨interrupts', hsecond⟩ := read_of_starts hs hb h'
  have hanswer : (Except.ok a : Except ReadFault Blob) = .ok b :=
    congrArg Prod.fst (hfirst.symm.trans hsecond)
  cases hanswer
  rfl

/-- A source that ends without a failure is read in one of two ways. -/
theorem read_cases :
    (∃ b rest interrupts, b.Addressable ∧ s.remaining = encode b ++ rest ∧ read s = (.ok b,
      { s with remaining := rest, cursor := ⟨s.cursor.position + b.encode.length, interrupts⟩ })) ∨
    ∃ form interrupts, Lacking s.remaining (FormFault.message form) ∧ read s = (.error (.form form),
      { s with remaining := [], cursor := ⟨s.cursor.position + s.remaining.length, interrupts⟩ }) := by
  rcases starts_or_lacking s.remaining with ⟨b, hb, rest, hbytes⟩ | ⟨text, h⟩
  · obtain ⟨interrupts, hread⟩ := read_of_starts hs hb hbytes
    exact .inl ⟨b, rest, interrupts, hb, hbytes, hread⟩
  · obtain ⟨form, interrupts, rfl, hread⟩ := read_of_lacking hs h
    exact .inr ⟨form, interrupts, h, hread⟩

theorem starts_of_read {b : Blob} (h : (read s).1 = .ok b) :
    b.Addressable ∧ s.remaining = b.encode ++ (read s).2.remaining ∧
      (read s).2.cursor.position = s.cursor.position + b.encode.length := by
  rcases read_cases hs with ⟨b', rest, interrupts, hb, hbytes, hread⟩ | ⟨form, interrupts, -, hread⟩
  · rw [hread] at h ⊢
    cases h
    exact ⟨hb, hbytes, rfl⟩
  · rw [hread] at h
    cases h

theorem lacking_of_read {fault : ReadFault} (h : (read s).1 = .error fault) :
    ∃ form, fault = .form form ∧ Lacking s.remaining (FormFault.message form) ∧ (read s).2.remaining = [] ∧
      (read s).2.cursor.position = s.cursor.position + s.remaining.length := by
  rcases read_cases hs with ⟨b, rest, interrupts, -, -, hread⟩ | ⟨form, interrupts, hlacking, hread⟩
  · rw [hread] at h
    cases h
  · rw [hread] at h ⊢
    cases h
    exact ⟨form, rfl, hlacking, rfl, rfl⟩

theorem read_eq_ok_iff (b : Blob) :
    (read s).1 = .ok b ↔ b.Addressable ∧ ∃ rest, s.remaining = b.encode ++ rest := by
  constructor
  · intro h
    obtain ⟨hb, hbytes, -⟩ := starts_of_read hs h
    exact ⟨hb, _, hbytes⟩
  · rintro ⟨hb, rest, hbytes⟩
    obtain ⟨interrupts, hread⟩ := read_of_starts hs hb hbytes
    rw [hread]

theorem read_eq_error_iff (text : String) :
    (∃ fault, (read s).1 = .error fault ∧
      (Failure.ofReadFault fault).message = "Malformed model stream: " ++ text) ↔ Lacking s.remaining text := by
  constructor
  · rintro ⟨fault, h, hmessage⟩
    obtain ⟨form, rfl, hlacking, -⟩ := lacking_of_read hs h
    have htext : form.message = text := (String.append_right_inj _).1 hmessage
    rwa [← htext]
  · intro h
    obtain ⟨form, interrupts, rfl, hread⟩ := read_of_lacking hs h
    rw [hread]
    exact ⟨_, rfl, rfl⟩

end

/-- Nothing that starts with a blob starts with another one, since reading finds one only. -/
theorem encode_append_inj {a b : Blob} (ha : a.Addressable) (hb : b.Addressable) {rest rest' : Bytes}
    (h : a.encode ++ rest = b.encode ++ rest') : a = b ∧ rest = rest' := by
  -- Any source of these bytes will do.
  have hs : (⟨fun _ => .move 1, a.encode ++ rest, {}⟩ : Stream.Source).Steady :=
    ⟨fun _ _ _ => ⟨0, rfl⟩, 1, rfl⟩
  have hsame : a = b := eq_of_starts hs ha hb rfl h
  subst hsame
  exact ⟨rfl, List.append_cancel_left h⟩

theorem not_starts_of_broken_off {a b : Blob} (ha : a.Addressable) (hb : b.Addressable) {bytes more : Bytes}
    (h : b.encode = bytes ++ more) (hmore : more ≠ []) (rest : Bytes) : bytes ≠ a.encode ++ rest := by
  rintro rfl
  rw [List.append_assoc, ← List.append_nil b.encode] at h
  have hnil : rest ++ more = [] := (encode_append_inj hb ha h).2.symm
  exact hmore (List.append_eq_nil_iff.1 hnil).2

theorem layout (b : Blob) (rest : Bytes) :
    Bytes.word b.document.length ++ b.document ++ Bytes.word b.constants.length ++ b.constants ++ rest =
      b.encode ++ rest := by
  simp [encode, segments]

/-- Reading accepts the bytes that start with a blob, and no others. What it has taken then is what
writing the blob puts out. All other bytes it takes to their end, and says what they lack. -/
theorem read_accepts_format {s : Stream.Source} (hs : s.Steady) :
    let answer := (read s).1
    let next := (read s).2
    (∀ b : Blob, answer = .ok b ↔ b.Addressable ∧ ∃ rest, s.remaining =
      Bytes.word b.document.length ++ b.document ++ Bytes.word b.constants.length ++ b.constants ++ rest) ∧
    (∀ b : Blob, answer = .ok b →
      next.cursor.position + next.remaining.length = s.cursor.position + s.remaining.length ∧
      ∀ (sink : Stream.Behaviour) (cursor : Stream.Cursor),
        sink.Moves cursor.position (cursor.position + b.encode.length) →
          (b.write sink cursor).fault = none ∧ (b.write sink cursor).taken ++ next.remaining = s.remaining) ∧
    (∀ fault, answer = .error fault →
      (Failure.ofReadFault fault).kind = "MalformedStream" ∧ next.remaining = [] ∧
        next.cursor.position = s.cursor.position + s.remaining.length) ∧
    (∀ text, (∃ fault, answer = .error fault ∧
      (Failure.ofReadFault fault).message = "Malformed model stream: " ++ text) ↔ Lacking s.remaining text) ∧
    ∀ (b : Blob) (more : Bytes), b.Addressable → b.encode = s.remaining ++ more → more ≠ [] →
      ∃ fault, answer = .error fault := by
  intro answer next
  simp only [layout]
  refine ⟨read_eq_ok_iff hs, ?_, ?_, read_eq_error_iff hs, ?_⟩
  · intro b h
    obtain ⟨-, hbytes, hposition⟩ := starts_of_read hs h
    refine ⟨?_, ?_⟩
    · rw [hposition, hbytes, List.length_append, Nat.add_assoc]
    · intro sink cursor hsink
      have hfault : (b.write sink cursor).fault = none := sink.writeEach_of_moves b.segments cursor hsink
      exact ⟨hfault, by rw [taken_of_write hfault, hbytes]⟩
  · intro fault h
    obtain ⟨form, rfl, -, hnext, hposition⟩ := lacking_of_read hs h
    exact ⟨rfl, hnext, hposition⟩
  · intro b more hb hbytes hmore
    cases hanswer : answer with
    | error fault => exact ⟨fault, rfl⟩
    | ok b' =>
      obtain ⟨hb', rest, hstarts⟩ := (read_eq_ok_iff hs b').1 hanswer
      exact absurd hstarts (not_starts_of_broken_off hb' hb hbytes hmore rest)

/-- The second block breaks off, on a source that delivers three bytes in a call and interrupts two
of them. -/
theorem read_accepts_format_short :
    let s : Stream.Source :=
      ⟨fun _ => .move 3, Bytes.word 2 ++ [1, 2] ++ Bytes.word 18446744073709551615 ++ [9], ⟨0, [0, 4]⟩⟩
    ∃ fault, (read s).1 = .error fault ∧ (Failure.ofReadFault fault).message =
      "Malformed model stream: constants block declares 18446744073709551615 bytes but only 1 are present" ∧
      (read s).2.remaining = [] := by
  intro s
  have hs : s.Steady := ⟨fun _ _ _ => ⟨2, rfl⟩, 3, rfl⟩
  obtain ⟨-, -, hrejected, hlacking, -⟩ := read_accepts_format hs
  have hshort : Lacks "constants" (Bytes.word 18446744073709551615 ++ [9]) _ := .content (by decide) (by decide)
  have hbytes : Lacking s.remaining _ := @Lacking.constants [1, 2] _ _ (by decide) hshort
  obtain ⟨fault, hanswer, hmessage⟩ := (hlacking _).2 hbytes
  exact ⟨fault, hanswer, hmessage, (hrejected fault hanswer).2.1⟩

end DevicePlugin.Blob
