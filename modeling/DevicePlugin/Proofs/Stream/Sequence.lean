import DevicePlugin.Proofs.Stream.Blob

/-!
# Blobs one after another

Several blobs on one stream. Nothing separates them, so each read has to stop
exactly where its blob ends. A sink and a source may move as few bytes in a call
as they like, and may interrupt calls as often as they like.
-/

namespace DevicePlugin

namespace Stream.Behaviour

/-- A call as it is made once: interrupted if that is due, and else answered. -/
def attempt (b : Behaviour) (c : Cursor) : Option Response × Cursor :=
  match c.interrupts with
  | [] => (some (b c.position), c)
  | due :: later =>
    if due ≤ c.position then (none, { c with interrupts := later }) else (some (b c.position), c)

theorem call_eq_attempt (b : Behaviour) (c : Cursor) :
    b.call c =
      match b.attempt c with
      | (none, interrupted) => b.call interrupted
      | (some response, answered) => (response, answered) := by
  obtain ⟨position, interrupts⟩ := c
  cases interrupts with
  | nil => rfl
  | cons due later =>
    by_cases hdue : due ≤ position
    · simp [call, attempt, pendingInterrupts, hdue]
    · simp [call, attempt, pendingInterrupts, hdue]

theorem writeEach_append (b : Behaviour) : ∀ (first second : List Bytes) (c : Cursor),
    b.writeEach c (first ++ second) =
      match b.writeEach c first with
      | ⟨taken, cursor, some fault⟩ => ⟨taken, cursor, some fault⟩
      | ⟨taken, cursor, none⟩ =>
        match b.writeEach cursor second with
        | ⟨taken', cursor, fault⟩ => ⟨taken ++ taken', cursor, fault⟩
  | [], second, c => rfl
  | bytes :: rest, second, c => by
    simp only [List.cons_append, writeEach]
    obtain ⟨taken, cursor, fault⟩ := b.write 0 c bytes
    cases fault with
    | some fault => rfl
    | none =>
      simp only [writeEach_append b rest second cursor]
      obtain ⟨taken', cursor', fault'⟩ := b.writeEach cursor rest
      cases fault' with
      | some fault' => rfl
      | none => simp [List.append_assoc]

end Stream.Behaviour

namespace Blob

def writeAll (sink : Stream.Behaviour) (cursor : Stream.Cursor) : List Blob → Stream.Written
  | [] => ⟨[], cursor, none⟩
  | b :: rest =>
    match b.write sink cursor with
    | ⟨taken, cursor, some fault⟩ => ⟨taken, cursor, some fault⟩
    | ⟨taken, cursor, none⟩ =>
      match writeAll sink cursor rest with
      | ⟨taken', cursor, fault⟩ => ⟨taken ++ taken', cursor, fault⟩

def Delivers : Stream.Source → List Blob → Stream.Source → Prop
  | s, [], last => last = s
  | s, b :: rest, last =>
    ∃ next, read s = (.ok b, next) ∧
      next.cursor.position = s.cursor.position + (16 + b.document.length + b.constants.length) ∧
      s.remaining = b.encode ++ next.remaining ∧
      Delivers next rest last

theorem length_encode (b : Blob) : b.encode.length = 16 + b.document.length + b.constants.length := by
  rw [encode_eq, List.length_append, length_blockBytes, length_blockBytes]
  omega

theorem writeAll_eq (sink : Stream.Behaviour) : ∀ (blobs : List Blob) (cursor : Stream.Cursor),
    writeAll sink cursor blobs = sink.writeEach cursor (blobs.flatMap segments)
  | [], _ => rfl
  | b :: rest, cursor => by
    rw [List.flatMap_cons, sink.writeEach_append, writeAll, write]
    obtain ⟨taken, cursor', fault⟩ := sink.writeEach cursor b.segments
    cases fault with
    | some fault => rfl
    | none => simp only [writeAll_eq sink rest cursor']

theorem flatten_segments (blobs : List Blob) : (blobs.flatMap segments).flatten = blobs.flatMap encode := by
  induction blobs with
  | nil => rfl
  | cons b rest ih => rw [List.flatMap_cons, List.flatten_append, ih, List.flatMap_cons, encode]

theorem writeAll_of_moves {sink : Stream.Behaviour} {cursor : Stream.Cursor} {blobs : List Blob}
    (h : sink.Moves cursor.position (cursor.position + (blobs.flatMap encode).length)) :
    (writeAll sink cursor blobs).fault = none ∧ (writeAll sink cursor blobs).taken = blobs.flatMap encode := by
  rw [← flatten_segments] at h ⊢
  rw [writeAll_eq]
  have hfault := sink.writeEach_of_moves (blobs.flatMap segments) cursor h
  exact ⟨hfault, sink.taken_of_writeEach _ cursor hfault⟩

theorem delivers_of_moves {blobs : List Blob} (hb : ∀ b ∈ blobs, b.Addressable) {s : Stream.Source} {rest : Bytes}
    (hs : s.remaining = blobs.flatMap encode ++ rest)
    (hm : s.behaviour.Moves s.cursor.position (s.cursor.position + (blobs.flatMap encode).length)) :
    ∃ last, Delivers s blobs last ∧ last.remaining = rest := by
  induction blobs generalizing s with
  | nil => exact ⟨s, rfl, hs⟩
  | cons b blobs ih =>
    rw [List.flatMap_cons, List.append_assoc] at hs
    rw [List.flatMap_cons, List.length_append] at hm
    have hfirst : s.behaviour.Moves s.cursor.position (s.cursor.position + b.encode.length) :=
      hm.mono (Nat.le_refl _) (by omega)
    obtain ⟨interrupts, hread⟩ := read_encode (hb b List.mem_cons_self) hs hfirst
    let next : Stream.Source :=
      { s with
        remaining := blobs.flatMap encode ++ rest
        cursor := ⟨s.cursor.position + b.encode.length, interrupts⟩ }
    have hrest : next.behaviour.Moves next.cursor.position
        (next.cursor.position + (blobs.flatMap encode).length) :=
      hm.mono (Nat.le_add_right _ _) (by simp only [next]; omega)
    obtain ⟨last, hlast, hremaining⟩ := ih (fun b' hb' => hb b' (List.mem_cons_of_mem _ hb')) rfl hrest
    refine ⟨last, ⟨next, hread, ?_, hs, hlast⟩, hremaining⟩
    rw [← length_encode]

/-- Blobs that are written in turn stand on the sink side by side, each block behind its length, and a
source that delivers these bytes gives the blobs back in turn. What stands behind the last one stays in
the source. -/
theorem delivers_writeAll {blobs : List Blob} (hb : ∀ b ∈ blobs, b.Addressable) {sink : Stream.Behaviour}
    {cursor : Stream.Cursor}
    (hsink : sink.Moves cursor.position (cursor.position + (blobs.flatMap encode).length)) (rest : Bytes) :
    let written := writeAll sink cursor blobs
    (written.fault = none ∧
      written.taken = blobs.flatMap fun b =>
        Bytes.word b.document.length ++ b.document ++ Bytes.word b.constants.length ++ b.constants) ∧
    ∀ source : Stream.Source, source.remaining = written.taken ++ rest →
      source.behaviour.Moves source.cursor.position (source.cursor.position + written.taken.length) →
      ∃ last, Delivers source blobs last ∧ last.remaining = rest := by
  intro written
  obtain ⟨hfault, htaken⟩ := writeAll_of_moves hsink
  have hlayout : (fun b : Blob =>
      Bytes.word b.document.length ++ b.document ++ Bytes.word b.constants.length ++ b.constants) = encode := by
    funext b
    simp [encode, segments]
  refine ⟨⟨hfault, by rw [hlayout]; exact htaken⟩, ?_⟩
  intro source hsource hmoves
  simp only [written, htaken] at hsource hmoves
  exact delivers_of_moves hb hsource hmoves

/-- The sink takes three bytes in a call and the source delivers two. Both interrupt some calls, the
first one twice. -/
theorem delivers_writeAll_pair :
    let blobs : List Blob := [⟨[1, 2, 3, 4, 5], [6]⟩, ⟨[], []⟩]
    let written := writeAll (fun _ => .move 3) ⟨0, [0, 0, 9]⟩ blobs
    written.taken.length = 38 ∧
      ∃ last, Delivers ⟨fun _ => .move 2, written.taken ++ [7, 8], ⟨0, [0, 0, 4, 30]⟩⟩ blobs last ∧
        last.remaining = [7, 8] := by
  intro blobs written
  have hb : ∀ b ∈ blobs, b.Addressable := by decide
  obtain ⟨⟨-, htaken⟩, hdelivers⟩ :=
    @delivers_writeAll blobs hb (fun _ => .move 3) ⟨0, [0, 0, 9]⟩ (fun _ _ _ => ⟨2, rfl⟩) [7, 8]
  refine ⟨by simp only [written, htaken]; rfl, ?_⟩
  exact hdelivers ⟨fun _ => .move 2, written.taken ++ [7, 8], ⟨0, [0, 0, 4, 30]⟩⟩ rfl (fun _ _ _ => ⟨1, rfl⟩)

end Blob

end DevicePlugin
