import DevicePlugin.Proofs.Stream.Format

/-!
# Sources that fail

A source may fail from some position on. A blob that ends before that position is
read as if it did not. A blob that does not, breaks off there: the failure is
reported as it is, but for an end of input where a length should stand.
-/

namespace DevicePlugin

namespace Stream

def Behaviour.MovesUpTo (b : Behaviour) (start stop : Nat) : Prop :=
  ∀ position, start ≤ position → position < stop →
    ∃ limit, b position = .move (limit + 1) ∧ position + (limit + 1) ≤ stop

theorem Behaviour.MovesUpTo.moves {b : Behaviour} {start stop : Nat} (h : b.MovesUpTo start stop) :
    b.Moves start stop := fun position hstart hstop =>
  let ⟨limit, hmove, _⟩ := h position hstart hstop
  ⟨limit, hmove⟩

theorem Behaviour.MovesUpTo.from {b : Behaviour} {start start' stop : Nat} (h : b.MovesUpTo start stop)
    (hstart : start ≤ start') : b.MovesUpTo start' stop :=
  fun position hp => h position (Nat.le_trans hstart hp)

/-- The bytes up to the failure are delivered, whether or not more of them were asked for in one call. -/
theorem Behaviour.fetch_to_fault (b : Behaviour) (fault : Fault) (rest : Bytes) :
    ∀ (bytes : Bytes) (count budget : Nat) (c : Cursor), bytes.length < count → budget ≤ bytes.length →
      b.MovesUpTo c.position (c.position + bytes.length) → b (c.position + bytes.length) = .fail fault →
        ∃ interrupts, b.fetch count budget c (bytes ++ rest) =
          ⟨bytes, rest, ⟨c.position + bytes.length, interrupts⟩, .failed fault⟩
  | [], count + 1, 0, c, _, _, _, hfails => by
    have hcall : b.call c = (.fail fault, { c with interrupts := pendingInterrupts c.position c.interrupts }) := by
      rw [call]
      exact congrArg (·, _) hfails
    refine ⟨pendingInterrupts c.position c.interrupts, ?_⟩
    cases rest <;> simp only [List.nil_append, fetch, hcall] <;> rfl
  -- The call before this byte has some of its budget left, so no call is made for it.
  | x :: xs, count + 1, budget + 1, c, hcount, hbudget, hmoves, hfails => by
    have hposition : c.advance.position + xs.length = c.position + (x :: xs).length := c.advance_add _
    obtain ⟨interrupts, hrest⟩ := fetch_to_fault b fault rest xs count budget c.advance
      (Nat.lt_of_succ_lt_succ hcount) (Nat.le_of_succ_le_succ hbudget)
      (by rw [hposition]; exact hmoves.from (Nat.le_succ _)) (by rwa [hposition])
    rw [hposition] at hrest
    exact ⟨interrupts, by simp only [List.cons_append, fetch, hrest, Fetched.push]⟩
  | x :: xs, count + 1, 0, c, hcount, _, hmoves, hfails => by
    obtain ⟨limit, hlimit, hstop⟩ := hmoves c.position (Nat.le_refl _) (by simp)
    let called : Cursor := { c with interrupts := pendingInterrupts c.position c.interrupts }
    have hcall : b.call c = (.move (limit + 1), called) := by rw [call, hlimit]
    have hposition : called.advance.position + xs.length = c.position + (x :: xs).length := called.advance_add _
    obtain ⟨interrupts, hrest⟩ := fetch_to_fault b fault rest xs count limit called.advance
      (Nat.lt_of_succ_lt_succ hcount) (by rw [List.length_cons] at hstop; omega)
      (by rw [hposition]; exact hmoves.from (Nat.le_succ _)) (by rwa [hposition])
    rw [hposition] at hrest
    exact ⟨interrupts, by simp only [List.cons_append, fetch, hcall, hrest, Fetched.push]⟩

/-- So many bytes come, in calls that do not reach any further, and then the source fails. -/
structure Source.FailsAfter (s : Source) (room : Nat) (fault : Fault) : Prop where
  moves : s.behaviour.MovesUpTo s.cursor.position (s.cursor.position + room)
  fails : ∀ position, s.cursor.position + room ≤ position → s.behaviour position = .fail fault

namespace Source.FailsAfter

variable {s : Source} {room : Nat} {fault : Fault}

/-- A source whose bytes end before it fails just ends. -/
theorem steady (h : s.FailsAfter room fault) (hshort : s.remaining.length < room) : s.Steady := by
  refine ⟨h.moves.moves.mono (Nat.le_refl _) (by omega), ?_⟩
  obtain ⟨limit, hlimit, -⟩ := h.moves (s.cursor.position + s.remaining.length) (by omega) (by omega)
  exact ⟨limit + 1, hlimit⟩

theorem rest {bytes : Bytes} (h : s.FailsAfter (bytes.length + room) fault) (rest : Bytes) (interrupts : List Nat) :
    ({ s with remaining := rest, cursor := ⟨s.cursor.position + bytes.length, interrupts⟩ } : Source).FailsAfter
      room fault := by
  obtain ⟨hmoves, hfails⟩ := h
  rw [← Nat.add_assoc] at hmoves hfails
  exact ⟨hmoves.from (Nat.le_add_right _ _), hfails⟩

theorem fetch {bytes rest : Bytes} (h : s.FailsAfter bytes.length fault) (hs : s.remaining = bytes ++ rest)
    {count : Nat} (hcount : bytes.length < count) :
    ∃ interrupts, s.fetch count = (bytes, .failed fault,
      { s with remaining := rest, cursor := ⟨s.cursor.position + bytes.length, interrupts⟩ }) := by
  obtain ⟨interrupts, hfetch⟩ := s.behaviour.fetch_to_fault fault rest bytes count 0 s.cursor hcount
    (Nat.zero_le _) h.moves (h.fails _ (Nat.le_refl _))
  exact ⟨interrupts, by rw [Source.fetch, hs, hfetch]⟩

end Source.FailsAfter

theorem Settings.failsAfter {settings : Settings} {failAt : Nat} (hchunk : settings.chunk ≠ some 0)
    (hfail : settings.failAt = some failAt) (hstop : settings.stopAt = none) (bytes : Bytes) :
    (settings.source bytes).FailsAfter failAt settings.fault := by
  have hlimit : 0 < settings.chunk.getD callLimit := by
    cases h : settings.chunk with
    | none => decide
    | some chunk => exact Nat.pos_of_ne_zero fun hzero => hchunk (hzero ▸ h)
  constructor
  · intro position _ hposition
    have hbefore : position < failAt := by simpa [source, cursor] using hposition
    have hmove : settings.behaviour position = .move (min (settings.chunk.getD callLimit) (failAt - position)) := by
      simp only [behaviour, hfail, hstop, if_neg (Nat.not_le_of_lt hbefore)]
    refine ⟨min (settings.chunk.getD callLimit) (failAt - position) - 1, ?_, ?_⟩
    · rw [Nat.sub_add_cancel (by omega)]
      exact hmove
    · simp only [source, cursor]
      omega
  · intro position hposition
    have hbehind : failAt ≤ position := by simpa [source, cursor] using hposition
    simp only [source, behaviour, hfail, if_pos hbehind]

/-! ## Sources of the same bytes -/

structure Source.Alike (s s' : Source) : Prop where
  left : s.Steady
  right : s'.Steady
  remaining_eq : s'.remaining = s.remaining

theorem Source.Alike.fetch {s s' : Source} (h : s.Alike s') (count : Nat) :
    (s'.fetch count).1 = (s.fetch count).1 ∧ (s'.fetch count).2.1 = (s.fetch count).2.1 ∧
      (s.fetch count).2.2.Alike (s'.fetch count).2.2 := by
  obtain ⟨hs, hs', hsame⟩ := h
  by_cases hcount : s.remaining.length < count
  · obtain ⟨interrupts, hfetch⟩ := hs.fetch_past_end hcount
    obtain ⟨interrupts', hfetch'⟩ := hs'.fetch_past_end (hsame ▸ hcount)
    rw [hfetch, hfetch']
    exact ⟨hsame, rfl, hs.rest (List.append_nil _).symm interrupts,
      hs'.rest (List.append_nil _).symm interrupts', rfl⟩
  · obtain ⟨bytes, rest, hsplit, rfl⟩ : ∃ bytes rest, s.remaining = bytes ++ rest ∧ bytes.length = count :=
      ⟨s.remaining.take count, s.remaining.drop count, (List.take_append_drop _ _).symm, by simp; omega⟩
    obtain ⟨interrupts, hfetch⟩ := hs.fetch hsplit
    obtain ⟨interrupts', hfetch'⟩ := hs'.fetch (hsame.trans hsplit)
    rw [hfetch, hfetch']
    exact ⟨rfl, rfl, hs.rest hsplit interrupts, hs'.rest (hsame.trans hsplit) interrupts', rfl⟩

end Stream

namespace Blob

/-! ## Where a block breaks off -/

def brokenBlock (block : Block) (offset : Nat) (fault : Stream.Fault) : ReadFault :=
  if fault.kind = .unexpectedEof ∧ offset < 8 then .form (.missingLength block) else .stream fault

theorem exists_eq_append_of_le {α : Type} {first first' more more' : List α} (h : first ++ more = first' ++ more')
    (hle : first.length ≤ first'.length) : ∃ between, first' = first ++ between ∧ more = between ++ more' := by
  obtain ⟨between, rfl⟩ := List.prefix_of_prefix_length_le (List.prefix_append first more)
    (h ▸ List.prefix_append first' more') hle
  rw [List.append_assoc, List.append_right_inj] at h
  exact ⟨between, rfl, h⟩

def lengthAt? (b : Blob) (offset : Nat) : Option Block :=
  if offset < 8 then some .document
  else if 8 + b.document.length ≤ offset ∧ offset < 8 + b.document.length + 8 then some .constants
  else none

/-- What is said of a failure at an offset: that of the source, but if it calls itself an end of input where
a length should stand, the length is missing. -/
def reported (b : Blob) (offset : Nat) (fault : Stream.Fault) : ReadFault :=
  match b.lengthAt? offset with
  | some block => if fault.kind = .unexpectedEof then .form (.missingLength block) else .stream fault
  | none => .stream fault

theorem brokenBlock_document {b : Blob} {offset : Nat} (h : offset < (blockBytes b.document).length)
    (fault : Stream.Fault) : brokenBlock .document offset fault = b.reported offset fault := by
  rw [length_blockBytes] at h
  unfold brokenBlock reported lengthAt?
  by_cases hshort : offset < 8
  · simp only [hshort, and_true, if_true]
  · rw [if_neg fun h => hshort h.2, if_neg hshort, if_neg (by omega)]

theorem brokenBlock_constants (b : Blob) (offset : Nat) (fault : Stream.Fault) :
    brokenBlock .constants offset fault = b.reported ((blockBytes b.document).length + offset) fault := by
  rw [length_blockBytes]
  unfold brokenBlock reported lengthAt?
  rw [if_neg (show ¬8 + b.document.length + offset < 8 by omega)]
  by_cases hshort : offset < 8
  · have hfield : 8 + b.document.length ≤ 8 + b.document.length + offset ∧
        8 + b.document.length + offset < 8 + b.document.length + 8 := by omega
    rw [if_pos hfield]
    simp only [hshort, and_true]
  · rw [if_neg fun h => hshort h.2, if_neg (by omega)]

section
variable {s : Stream.Source} {fault : Stream.Fault} {first rest more : Bytes} (hmore : more ≠ [])
  (hs : s.remaining = first ++ rest) (h : s.FailsAfter first.length fault)
include hmore hs h

theorem readBlock_of_broken (block : Block) {content : Bytes} (hsize : content.length < UInt64.size)
    (hblock : blockBytes content = first ++ more) :
    ∃ interrupts, readBlock block s = (.error (brokenBlock block first.length fault),
      { s with remaining := rest, cursor := ⟨s.cursor.position + first.length, interrupts⟩ }) := by
  by_cases hshort : first.length < 8
  · obtain ⟨interrupts, hfetch⟩ := h.fetch hs hshort
    refine ⟨interrupts, ?_⟩
    simp only [readBlock, hfetch, brokenBlock, hshort, and_true]
    split <;> rfl
  · -- The length is all there, and the failure stands behind it.
    have hreport : brokenBlock block first.length fault = .stream fault := if_neg fun h => hshort h.2
    rw [hreport]
    obtain ⟨present, rfl, rfl⟩ := exists_eq_append_of_le hblock (by rw [length_word]; omega)
    rw [List.append_assoc] at hs
    obtain ⟨interrupts, hlength⟩ := Stream.Source.fetch_of_moves hs
      (h.moves.moves.mono (Nat.le_refl _) (Nat.add_le_add_left (List.prefix_append _ _).length_le _))
    have hpos : 0 < more.length := List.length_pos_iff.mpr hmore
    have hshort : present.length < (present ++ more).length := by
      rw [List.length_append]
      omega
    rw [@List.length_append _ (Bytes.word _)] at h
    obtain ⟨interrupts', hpresent⟩ := (h.rest (present ++ rest) interrupts).fetch rfl hshort
    refine ⟨interrupts', ?_⟩
    rw [length_word] at hlength hpresent
    simp only [readBlock, hlength, toNat_word hsize]
    rw [hpresent]
    simp only [List.length_append, length_word, Nat.add_assoc]

theorem read_of_broken {b : Blob} (hb : b.Addressable) (hblob : b.encode = first ++ more) :
    ∃ interrupts, read s = (.error (b.reported first.length fault),
      { s with remaining := rest, cursor := ⟨s.cursor.position + first.length, interrupts⟩ }) := by
  rw [encode_eq] at hblob
  by_cases hdocument : first.length < (blockBytes b.document).length
  · obtain ⟨between, hblock, -⟩ := exists_eq_append_of_le hblob.symm (Nat.le_of_lt hdocument)
    have hbetween : between ≠ [] := by
      rintro rfl
      rw [hblock, List.append_nil] at hdocument
      exact Nat.lt_irrefl _ hdocument
    obtain ⟨interrupts, hread⟩ := readBlock_of_broken hbetween hs h .document hb.1 hblock
    rw [brokenBlock_document hdocument] at hread
    exact ⟨interrupts, by simp only [read, hread]⟩
  · -- The document is read in full, and the constants break off.
    obtain ⟨between, rfl, hblock⟩ := exists_eq_append_of_le hblob (Nat.le_of_not_lt hdocument)
    rw [List.append_assoc] at hs
    obtain ⟨interrupts, hfirst⟩ := readBlock_blockBytes .document hb.1 hs
      (h.moves.moves.mono (Nat.le_refl _) (Nat.add_le_add_left (List.prefix_append _ _).length_le _))
    rw [List.length_append] at h ⊢
    obtain ⟨interrupts', hsecond⟩ :=
      readBlock_of_broken hmore rfl (h.rest (between ++ rest) interrupts) .constants hb.2 hblock
    rw [brokenBlock_constants b] at hsecond
    refine ⟨interrupts', ?_⟩
    simp only [read, hfirst]
    rw [hsecond]
    simp only [Nat.add_assoc]

end

/-! ## What sources of the same bytes answer -/

theorem readBlock_alike (block : Block) {s s' : Stream.Source} (h : s.Alike s') :
    (readBlock block s').1 = (readBlock block s).1 ∧ (readBlock block s).2.Alike (readBlock block s').2 := by
  obtain ⟨hlength, hending, hafter⟩ := h.fetch 8
  unfold readBlock
  generalize s.fetch 8 = first at hlength hending hafter ⊢
  generalize s'.fetch 8 = first' at hlength hending hafter ⊢
  obtain ⟨length, ending, after⟩ := first
  obtain ⟨length', ending', after'⟩ := first'
  cases hlength
  cases hending
  cases ending with
  | ended => exact ⟨rfl, hafter⟩
  | failed fault =>
    by_cases heof : fault.kind = .unexpectedEof
    · simp only [heof, if_true]
      exact ⟨trivial, hafter⟩
    · simp only [heof, if_false]
      exact ⟨trivial, hafter⟩
  | full =>
    obtain ⟨hbytes, hending, hafter⟩ := hafter.fetch length.toNat
    dsimp only
    generalize after.fetch length.toNat = second at hbytes hending hafter ⊢
    generalize after'.fetch length.toNat = second' at hbytes hending hafter ⊢
    obtain ⟨bytes, ending, after⟩ := second
    obtain ⟨bytes', ending', after'⟩ := second'
    cases hbytes
    cases hending
    cases ending <;> exact ⟨rfl, hafter⟩

theorem read_alike {s s' : Stream.Source} (h : s.Alike s') :
    (read s').1 = (read s).1 ∧ (read s').2.remaining = (read s).2.remaining := by
  obtain ⟨hdocument, hafter⟩ := readBlock_alike .document h
  unfold read
  generalize readBlock .document s = first at hdocument hafter ⊢
  generalize readBlock .document s' = first' at hdocument hafter ⊢
  obtain ⟨answer, after⟩ := first
  obtain ⟨answer', after'⟩ := first'
  cases hdocument
  cases answer with
  | error fault => exact ⟨rfl, hafter.remaining_eq⟩
  | ok document =>
    obtain ⟨hconstants, hafter⟩ := readBlock_alike .constants hafter
    dsimp only
    generalize readBlock .constants after = second at hconstants hafter ⊢
    generalize readBlock .constants after' = second' at hconstants hafter ⊢
    obtain ⟨answer, after⟩ := second
    obtain ⟨answer', after'⟩ := second'
    cases hconstants
    cases answer <;> exact ⟨rfl, hafter.remaining_eq⟩

/-- The answer, and what is left in the source, are those of any source of the same bytes that does not fail. -/
def ReadsUnfailed (s : Stream.Source) : Prop :=
  ∀ s' : Stream.Source, s'.Steady → s'.remaining = s.remaining →
    (read s).1 = (read s').1 ∧ (read s).2.remaining = (read s').2.remaining

/-! ## Bytes that could go on to be a blob -/

theorem Lacks.exists_block {name : String} {bytes : Bytes} {text : String} (h : Lacks name bytes text) :
    ∃ content more, content.length < UInt64.size ∧ more ≠ [] ∧ blockBytes content = bytes ++ more := by
  cases h with
  | length hshort =>
    -- The length is filled up with zeros, and so is the content it asks for then.
    let missing : Bytes := List.replicate (8 - bytes.length) 0
    let content : Bytes := List.replicate (bytes ++ missing).toNat 0
    have hlength : (bytes ++ missing).length = 8 := by
      rw [List.length_append, List.length_replicate]
      omega
    have hbound := Bytes.toNat_lt (bytes ++ missing)
    have hword := Bytes.littleEndian_toNat (bytes ++ missing)
    rw [hlength] at hbound hword
    have hcontent : content.length = (bytes ++ missing).toNat := List.length_replicate
    refine ⟨content, missing ++ content, hcontent ▸ hbound, ?_, ?_⟩
    · refine List.append_ne_nil_of_left_ne_nil (List.ne_nil_of_length_pos ?_) _
      rw [List.length_replicate]
      omega
    · rw [blockBytes, hcontent, Bytes.word, hword, List.append_assoc]
  | @content declared present hdeclared hshort =>
    have hlength : (present ++ List.replicate (declared - present.length) (0 : UInt8)).length = declared := by
      rw [List.length_append, List.length_replicate]
      omega
    refine ⟨present ++ List.replicate (declared - present.length) 0, List.replicate (declared - present.length) 0,
      by rwa [hlength], List.ne_nil_of_length_pos ?_, ?_⟩
    · rw [List.length_replicate]
      omega
    · rw [blockBytes, hlength, List.append_assoc]

theorem Lacking.exists_blob {bytes : Bytes} {text : String} (h : Lacking bytes text) :
    ∃ b : Blob, ∃ more, b.Addressable ∧ more ≠ [] ∧ b.encode = bytes ++ more := by
  cases h with
  | document h =>
    obtain ⟨content, more, hsize, hmore, hblock⟩ := h.exists_block
    have hempty : ([] : Bytes).length < UInt64.size := by decide
    have hmissing : more ++ blockBytes [] ≠ [] := List.append_ne_nil_of_left_ne_nil hmore _
    refine ⟨⟨content, []⟩, more ++ blockBytes [], ⟨hsize, hempty⟩, hmissing, ?_⟩
    rw [encode_eq, hblock, List.append_assoc]
  | @constants document rest _ hsize h =>
    obtain ⟨content, more, hcontent, hmore, hblock⟩ := h.exists_block
    refine ⟨⟨document, content⟩, more, ⟨hsize, hcontent⟩, hmore, ?_⟩
    rw [encode_eq, hblock, List.append_assoc]

/-- Bytes start with a blob that ends in time, or break one off, or are themselves too few. -/
theorem starts_or_breaks_off (bytes : Bytes) (room : Nat) :
    (∃ b rest, Addressable b ∧ bytes = b.encode ++ rest ∧ b.encode.length ≤ room) ∨
    (∃ b more, Addressable b ∧ room ≤ bytes.length ∧ b.encode = bytes.take room ++ more ∧ more ≠ []) ∨
    bytes.length < room := by
  by_cases hshort : bytes.length < room
  · exact .inr (.inr hshort)
  have hlength : (bytes.take room).length = room := by
    rw [List.length_take]
    omega
  rcases starts_or_lacking (bytes.take room) with ⟨b, hb, rest, hbytes⟩ | ⟨text, h⟩
  · refine .inl ⟨b, rest ++ bytes.drop room, hb, ?_, ?_⟩
    · rw [← List.append_assoc, ← hbytes, List.take_append_drop]
    · rw [← hlength, hbytes, List.length_append]
      exact Nat.le_add_right _ _
  · obtain ⟨b, more, hb, hmore, hblob⟩ := h.exists_blob
    exact .inr (.inl ⟨b, more, hb, Nat.le_of_not_lt hshort, hblob, hmore⟩)

/-! ## Reading where a source may fail -/

section
variable {s : Stream.Source} {room : Nat} {fault : Stream.Fault} (hs : s.FailsAfter room fault)
include hs

theorem read_within {b : Blob} (hb : b.Addressable) {rest : Bytes} (hbytes : s.remaining = b.encode ++ rest)
    (hroom : b.encode.length ≤ room) :
    (read s).1 = .ok b ∧ (read s).2.remaining = rest ∧
      (read s).2.cursor.position = s.cursor.position + b.encode.length ∧ ReadsUnfailed s := by
  obtain ⟨interrupts, hread⟩ := read_encode hb hbytes
    (hs.moves.moves.mono (Nat.le_refl _) (Nat.add_le_add_left hroom _))
  rw [hread]
  refine ⟨rfl, rfl, rfl, fun s' hs' hsame => ?_⟩
  obtain ⟨interrupts', hread'⟩ := read_of_starts hs' hb (hsame.trans hbytes)
  rw [hread, hread']
  exact ⟨rfl, rfl⟩

theorem read_beyond {b : Blob} (hb : b.Addressable) {more : Bytes} (hroom : room ≤ s.remaining.length)
    (hblob : b.encode = s.remaining.take room ++ more) (hmore : more ≠ []) :
    (read s).1 = .error (b.reported room fault) ∧ (read s).2.remaining = s.remaining.drop room ∧
      (read s).2.cursor.position = s.cursor.position + room := by
  have hlength : (s.remaining.take room).length = room := by rw [List.length_take, Nat.min_eq_left hroom]
  obtain ⟨interrupts, hread⟩ := read_of_broken hmore (List.take_append_drop room s.remaining).symm
    (by rwa [hlength]) hb hblob
  rw [hread, hlength]
  exact ⟨rfl, rfl, rfl⟩

theorem readsUnfailed_of_short (hshort : s.remaining.length < room) : ReadsUnfailed s :=
  fun _ hs' hsame => read_alike ⟨hs', hs.steady hshort, hsame.symm⟩

theorem exists_consumed :
    ∃ consumed, s.remaining = consumed ++ (read s).2.remaining ∧ consumed.length ≤ room ∧
      (read s).2.cursor.position = s.cursor.position + consumed.length := by
  rcases starts_or_breaks_off s.remaining room with
    ⟨b, rest, hb, hbytes, hroom⟩ | ⟨b, more, hb, hroom, hblob, hmore⟩ | hshort
  · obtain ⟨-, hrest, hposition, -⟩ := read_within hs hb hbytes hroom
    exact ⟨b.encode, by rw [hrest, hbytes], hroom, hposition⟩
  · obtain ⟨-, hrest, hposition⟩ := read_beyond hs hb hroom hblob hmore
    have hlength : (s.remaining.take room).length = room := by rw [List.length_take, Nat.min_eq_left hroom]
    exact ⟨s.remaining.take room, by rw [hrest, List.take_append_drop], Nat.le_of_eq hlength,
      by rw [hposition, hlength]⟩
  · rcases read_cases (hs.steady hshort) with ⟨b, rest, _, -, hbytes, hread⟩ | ⟨form, _, -, hread⟩
    · rw [hread]
      rw [hbytes, List.length_append] at hshort
      exact ⟨b.encode, hbytes, by omega, rfl⟩
    · rw [hread]
      exact ⟨s.remaining, (List.append_nil _).symm, Nat.le_of_lt hshort, rfl⟩

/-- A blob that ends before the source fails is read as if it did not fail, and so are bytes that end before
that without one. A blob that breaks off there is reported with the failure as it is, unless that calls
itself an end of input where a length should stand. There are no other cases, and nothing behind the failure
is ever read. -/
theorem read_from_failing_source :
    let answer := (read s).1
    let next := (read s).2
    (∀ b rest, Addressable b → s.remaining = b.encode ++ rest → b.encode.length ≤ room →
      answer = .ok b ∧ next.remaining = rest ∧ next.cursor.position = s.cursor.position + b.encode.length ∧
        ReadsUnfailed s) ∧
    (∀ b more, Addressable b → room ≤ s.remaining.length →
      b.encode = s.remaining.take room ++ more → more ≠ [] →
      answer = .error (b.reported room fault) ∧ next.remaining = s.remaining.drop room ∧
        next.cursor.position = s.cursor.position + room) ∧
    (s.remaining.length < room → ReadsUnfailed s) ∧
    ((∃ b rest, Addressable b ∧ s.remaining = b.encode ++ rest ∧ b.encode.length ≤ room) ∨
      (∃ b more, Addressable b ∧ room ≤ s.remaining.length ∧
        b.encode = s.remaining.take room ++ more ∧ more ≠ []) ∨
      s.remaining.length < room) ∧
    ∃ consumed, s.remaining = consumed ++ next.remaining ∧ consumed.length ≤ room ∧
      next.cursor.position = s.cursor.position + consumed.length := by
  intro answer next
  refine ⟨?within, ?beyond, readsUnfailed_of_short hs, starts_or_breaks_off _ _, exists_consumed hs⟩
  case within => exact fun b rest hb hbytes hroom => read_within hs hb hbytes hroom
  case beyond => exact fun b more hb hroom hblob hmore => read_beyond hs hb hroom hblob hmore

end

/-- The source interrupts a call and says that it has ended, four bytes before the length of the constants
is complete. -/
theorem read_from_failing_source_length :
    let b : Blob := ⟨[1, 2], [3]⟩
    let settings : Stream.Settings :=
      { chunk := some 3, interruptAt := some 4, failAt := some 14, fault := ⟨.unexpectedEof, "gone"⟩ }
    let s := settings.source b.encode
    s.FailsAfter 14 ⟨.unexpectedEof, "gone"⟩ ∧
      ∃ report, (read s).1 = .error report ∧
        (Failure.ofReadFault report).message = "Malformed model stream: missing constants block length" ∧
        (read s).2.remaining = [0, 0, 0, 0, 3] := by
  intro b settings s
  have hchunk : settings.chunk ≠ some 0 := by decide
  have hs : s.FailsAfter 14 ⟨.unexpectedEof, "gone"⟩ := Stream.Settings.failsAfter hchunk rfl rfl b.encode
  obtain ⟨-, hbeyond, -⟩ := read_from_failing_source hs
  obtain ⟨hanswer, hremaining, -⟩ := hbeyond b (b.encode.drop 14) (by decide) (by decide)
    (List.take_append_drop 14 b.encode).symm (by decide)
  exact ⟨hs, _, hanswer, by decide, hremaining.trans (by decide)⟩

end Blob

end DevicePlugin
