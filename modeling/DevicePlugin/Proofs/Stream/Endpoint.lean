import DevicePlugin.Stream.Endpoint

/-!
# Streams that move

A stream that moves at every position it is asked at delivers all the bytes that
are asked of it, however few each call moves and however often it is interrupted.
A sink that reports no fault has taken all that it was offered.
-/

namespace DevicePlugin.Stream

theorem Cursor.advance_add (c : Cursor) (n : Nat) : c.advance.position + n = c.position + (n + 1) := by
  simp only [advance]
  omega

namespace Behaviour

def Moves (b : Behaviour) (start stop : Nat) : Prop :=
  ∀ position, start ≤ position → position < stop → ∃ limit, b position = .move (limit + 1)

theorem Moves.mono {b : Behaviour} {start stop start' stop' : Nat} (h : b.Moves start stop)
    (hstart : start ≤ start') (hstop : stop' ≤ stop) : b.Moves start' stop' :=
  fun position hp hq => h position (Nat.le_trans hstart hp) (Nat.lt_of_lt_of_le hq hstop)

theorem fetch_of_moves (b : Behaviour) (rest : Bytes) : ∀ (bytes : Bytes) (budget : Nat) (c : Cursor),
    b.Moves c.position (c.position + bytes.length) →
      ∃ interrupts, b.fetch bytes.length budget c (bytes ++ rest) =
        ⟨bytes, rest, ⟨c.position + bytes.length, interrupts⟩, .full⟩
  | [], budget, c, _ => by
    refine ⟨c.interrupts, ?_⟩
    cases budget <;> rfl
  | x :: xs, budget + 1, c, h => by
    obtain ⟨interrupts, hrest⟩ := fetch_of_moves b rest xs budget c.advance
      (h.mono (Nat.le_succ _) (Nat.le_of_eq (c.advance_add _)))
    refine ⟨interrupts, ?_⟩
    simp only [List.length_cons, List.cons_append, fetch, hrest, Fetched.push, Cursor.advance_add]
  | x :: xs, 0, c, h => by
    obtain ⟨limit, hlimit⟩ := h c.position (Nat.le_refl _) (by simp)
    let called : Cursor := { c with interrupts := pendingInterrupts c.position c.interrupts }
    obtain ⟨interrupts, hrest⟩ := fetch_of_moves b rest xs limit called.advance
      (h.mono (Nat.le_succ _) (Nat.le_of_eq (called.advance_add _)))
    have hcall : b.call c = (.move (limit + 1), called) := by rw [call, hlimit]
    refine ⟨interrupts, ?_⟩
    simp only [List.length_cons, List.cons_append, fetch, hcall, hrest, Fetched.push, Cursor.advance_add]
    rfl

theorem write_of_moves (b : Behaviour) : ∀ (bytes : Bytes) (budget : Nat) (c : Cursor),
    b.Moves c.position (c.position + bytes.length) →
      ∃ interrupts, b.write budget c bytes = ⟨bytes, ⟨c.position + bytes.length, interrupts⟩, none⟩
  | [], budget, c, _ => by
    refine ⟨c.interrupts, ?_⟩
    cases budget <;> rfl
  | x :: xs, budget + 1, c, h => by
    obtain ⟨interrupts, hrest⟩ := write_of_moves b xs budget c.advance
      (h.mono (Nat.le_succ _) (Nat.le_of_eq (c.advance_add _)))
    refine ⟨interrupts, ?_⟩
    simp only [List.length_cons, write, hrest, Written.push, Cursor.advance_add]
  | x :: xs, 0, c, h => by
    obtain ⟨limit, hlimit⟩ := h c.position (Nat.le_refl _) (by simp)
    let called : Cursor := { c with interrupts := pendingInterrupts c.position c.interrupts }
    obtain ⟨interrupts, hrest⟩ := write_of_moves b xs limit called.advance
      (h.mono (Nat.le_succ _) (Nat.le_of_eq (called.advance_add _)))
    have hcall : b.call c = (.move (limit + 1), called) := by rw [call, hlimit]
    refine ⟨interrupts, ?_⟩
    simp only [List.length_cons, write, hcall, hrest, Written.push, Cursor.advance_add]
    rfl

theorem writeEach_of_moves (b : Behaviour) : ∀ (segments : List Bytes) (c : Cursor),
    b.Moves c.position (c.position + segments.flatten.length) → (b.writeEach c segments).fault = none
  | [], _, _ => rfl
  | bytes :: rest, c, h => by
    rw [List.flatten_cons, List.length_append] at h
    obtain ⟨interrupts, hfirst⟩ := write_of_moves b bytes 0 c (h.mono (Nat.le_refl _) (by omega))
    have hrest := writeEach_of_moves b rest ⟨c.position + bytes.length, interrupts⟩
      (h.mono (Nat.le_add_right _ _) (by simp only; omega))
    simp only [writeEach, hfirst, hrest]

theorem taken_of_write (b : Behaviour) : ∀ (bytes : Bytes) (budget : Nat) (c : Cursor),
    (b.write budget c bytes).fault = none → (b.write budget c bytes).taken = bytes
  | [], budget, c, _ => by cases budget <;> rfl
  | x :: xs, budget + 1, c, h => by
    simp only [write, Written.push] at h ⊢
    rw [taken_of_write b xs budget c.advance h]
  | x :: xs, 0, c, h => by
    simp only [write] at h ⊢
    split at h
    · cases h
    · cases h
    · rename_i limit cursor hcall
      simp only [Written.push] at h ⊢
      rw [taken_of_write b xs limit cursor.advance h]

theorem taken_of_writeEach (b : Behaviour) : ∀ (segments : List Bytes) (c : Cursor),
    (b.writeEach c segments).fault = none → (b.writeEach c segments).taken = segments.flatten
  | [], _, _ => rfl
  | bytes :: rest, c, h => by
    have hfirst := taken_of_write b bytes 0 c
    simp only [writeEach] at h ⊢
    generalize b.write 0 c bytes = first at h hfirst ⊢
    obtain ⟨taken, cursor, fault⟩ := first
    cases fault with
    | some fault => cases h
    | none =>
      have hrest := taken_of_writeEach b rest cursor h
      have htaken : taken = bytes := hfirst rfl
      simp only [List.flatten_cons, hrest, htaken]

end Behaviour

/-- How a source ends that is asked where no bytes are left. -/
def Response.ending : Response → Ending
  | .move _ => .ended
  | .fail fault => .failed fault

theorem Behaviour.fetch_past_end (b : Behaviour) : ∀ (bytes : Bytes) (count budget : Nat) (c : Cursor),
    bytes.length < count → b.Moves c.position (c.position + bytes.length) →
      ∃ interrupts, b.fetch count budget c bytes =
        ⟨bytes, [], ⟨c.position + bytes.length, interrupts⟩, (b (c.position + bytes.length)).ending⟩
  | [], count + 1, budget, c, _, _ => by
    refine ⟨pendingInterrupts c.position c.interrupts, ?_⟩
    simp only [fetch, call]
    cases b c.position <;> simp [Response.ending]
  | x :: xs, count + 1, budget + 1, c, hcount, h => by
    obtain ⟨interrupts, hrest⟩ := fetch_past_end b xs count budget c.advance (Nat.lt_of_succ_lt_succ hcount)
      (h.mono (Nat.le_succ _) (Nat.le_of_eq (c.advance_add _)))
    refine ⟨interrupts, ?_⟩
    simp only [fetch, hrest, Fetched.push, Cursor.advance_add, List.length_cons]
  | x :: xs, count + 1, 0, c, hcount, h => by
    obtain ⟨limit, hlimit⟩ := h c.position (Nat.le_refl _) (by simp)
    let called : Cursor := { c with interrupts := pendingInterrupts c.position c.interrupts }
    obtain ⟨interrupts, hrest⟩ := fetch_past_end b xs count limit called.advance (Nat.lt_of_succ_lt_succ hcount)
      (h.mono (Nat.le_succ _) (Nat.le_of_eq (called.advance_add _)))
    have hcall : b.call c = (.move (limit + 1), called) := by rw [call, hlimit]
    refine ⟨interrupts, ?_⟩
    simp only [fetch, hcall, hrest, Fetched.push, Cursor.advance_add, List.length_cons]
    rfl

/-- A source that moves over bytes delivers them, and stands right behind them. -/
theorem Source.fetch_of_moves {s : Source} {bytes rest : Bytes} (hs : s.remaining = bytes ++ rest)
    (h : s.behaviour.Moves s.cursor.position (s.cursor.position + bytes.length)) :
    ∃ interrupts, s.fetch bytes.length =
      (bytes, .full, { s with remaining := rest, cursor := ⟨s.cursor.position + bytes.length, interrupts⟩ }) := by
  obtain ⟨interrupts, hfetch⟩ := s.behaviour.fetch_of_moves rest bytes 0 s.cursor h
  exact ⟨interrupts, by rw [fetch, hs, hfetch]⟩

structure Source.Steady (s : Source) : Prop where
  moves : s.behaviour.Moves s.cursor.position (s.cursor.position + s.remaining.length)
  ends : ∃ limit, s.behaviour (s.cursor.position + s.remaining.length) = .move limit

namespace Source.Steady

variable {s : Source}

theorem rest (h : s.Steady) {bytes rest : Bytes} (hs : s.remaining = bytes ++ rest) (interrupts : List Nat) :
    ({ s with remaining := rest, cursor := ⟨s.cursor.position + bytes.length, interrupts⟩ } : Source).Steady := by
  obtain ⟨hmoves, hends⟩ := h
  rw [hs, List.length_append, ← Nat.add_assoc] at hmoves hends
  exact ⟨hmoves.mono (Nat.le_add_right _ _) (Nat.le_refl _), hends⟩

theorem fetch (h : s.Steady) {bytes rest : Bytes} (hs : s.remaining = bytes ++ rest) :
    ∃ interrupts, s.fetch bytes.length =
      (bytes, .full, { s with remaining := rest, cursor := ⟨s.cursor.position + bytes.length, interrupts⟩ }) := by
  apply Source.fetch_of_moves hs
  apply h.moves.mono (Nat.le_refl _)
  rw [hs, List.length_append]
  omega

theorem fetch_past_end (h : s.Steady) {count : Nat} (hcount : s.remaining.length < count) :
    ∃ interrupts, s.fetch count =
      (s.remaining, .ended,
        { s with remaining := [], cursor := ⟨s.cursor.position + s.remaining.length, interrupts⟩ }) := by
  obtain ⟨limit, hends⟩ := h.ends
  obtain ⟨interrupts, hfetch⟩ := s.behaviour.fetch_past_end s.remaining count 0 s.cursor hcount h.moves
  rw [hends] at hfetch
  exact ⟨interrupts, by rw [Source.fetch, hfetch]; rfl⟩

end Source.Steady

end DevicePlugin.Stream
