import DevicePlugin.Bytes.Lemmas
import DevicePlugin.Proofs.Stream.Endpoint
import DevicePlugin.Stream.Blob

/-!
# Blobs on streams

What a sink takes of a blob without a fault is its form on a stream, and a source
that moves over that form gives the blob back and keeps what comes after it.
-/

namespace DevicePlugin.Blob

/-- The lengths of both blocks are 64-bit words, as the length of any block in memory is. -/
def Addressable (b : Blob) : Prop :=
  b.document.length < UInt64.size ∧ b.constants.length < UInt64.size

instance (b : Blob) : Decidable b.Addressable :=
  inferInstanceAs (Decidable (b.document.length < UInt64.size ∧ b.constants.length < UInt64.size))

def blockBytes (bytes : Bytes) : Bytes := Bytes.word bytes.length ++ bytes

theorem encode_eq (b : Blob) : b.encode = blockBytes b.document ++ blockBytes b.constants := by
  simp [encode, segments, blockBytes]

theorem length_word (n : Nat) : (Bytes.word n).length = 8 := Bytes.length_littleEndian 8 n

theorem length_blockBytes (bytes : Bytes) : (blockBytes bytes).length = 8 + bytes.length := by
  rw [blockBytes, List.length_append, length_word]

theorem toNat_word {n : Nat} (h : n < UInt64.size) : (Bytes.word n).toNat = n :=
  Bytes.toNat_littleEndian h

theorem taken_of_write {b : Blob} {sink : Stream.Behaviour} {cursor : Stream.Cursor}
    (h : (b.write sink cursor).fault = none) : (b.write sink cursor).taken = b.encode :=
  sink.taken_of_writeEach b.segments cursor h

/-- A block is read in two fetches, of its length and of its bytes. -/
theorem readBlock_blockBytes (block : Block) {s : Stream.Source} {bytes rest : Bytes} (hsize : bytes.length < UInt64.size)
    (hs : s.remaining = blockBytes bytes ++ rest)
    (hm : s.behaviour.Moves s.cursor.position (s.cursor.position + (blockBytes bytes).length)) :
    ∃ interrupts, readBlock block s = (.ok bytes,
      { s with remaining := rest, cursor := ⟨s.cursor.position + (blockBytes bytes).length, interrupts⟩ }) := by
  rw [length_blockBytes] at hm ⊢
  rw [blockBytes, List.append_assoc] at hs
  obtain ⟨interrupts, hfirst⟩ := s.fetch_of_moves hs
    (hm.mono (Nat.le_refl _) (by rw [length_word]; omega))
  rw [length_word] at hfirst
  let after : Stream.Source :=
    { s with remaining := bytes ++ rest, cursor := ⟨s.cursor.position + 8, interrupts⟩ }
  obtain ⟨interrupts', hsecond⟩ := after.fetch_of_moves rfl
    (hm.mono (Nat.le_add_right _ _) (by simp only [after]; omega))
  refine ⟨interrupts', ?_⟩
  simp only [readBlock, hfirst, toNat_word hsize]
  rw [hsecond]
  simp only [after, Nat.add_assoc]

/-- Reading a written blob gives it back and stops right behind it. -/
theorem read_encode {b : Blob} (hb : b.Addressable) {s : Stream.Source} {rest : Bytes}
    (hs : s.remaining = b.encode ++ rest)
    (hm : s.behaviour.Moves s.cursor.position (s.cursor.position + b.encode.length)) :
    ∃ interrupts, read s = (.ok b,
      { s with remaining := rest, cursor := ⟨s.cursor.position + b.encode.length, interrupts⟩ }) := by
  rw [encode_eq, List.append_assoc] at hs
  rw [encode_eq, List.length_append] at hm ⊢
  obtain ⟨interrupts, hdocument⟩ := readBlock_blockBytes .document hb.1 hs
    (hm.mono (Nat.le_refl _) (by omega))
  let after : Stream.Source :=
    { s with
      remaining := blockBytes b.constants ++ rest
      cursor := ⟨s.cursor.position + (blockBytes b.document).length, interrupts⟩ }
  obtain ⟨interrupts', hconstants⟩ := @readBlock_blockBytes .constants after _ _ hb.2 rfl
    (hm.mono (Nat.le_add_right _ _) (by simp only [after]; omega))
  refine ⟨interrupts', ?_⟩
  simp only [read, hdocument]
  rw [hconstants]
  simp only [after, Nat.add_assoc]

end DevicePlugin.Blob
