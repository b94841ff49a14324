/-!
# Bytes

Byte strings, the bytes of text, and 64-bit words with the least byte first.
-/

namespace DevicePlugin

abbrev Bytes := List UInt8

namespace Bytes

def ofText (s : String) : Bytes := s.toUTF8.data.toList

def toText? (bytes : Bytes) : Option String := String.fromUTF8? ⟨bytes.toArray⟩

@[simp] theorem toText?_ofText (s : String) : toText? (ofText s) = some s := by
  have h : (⟨(ofText s).toArray⟩ : ByteArray) = s.toByteArray := by
    simp [ofText, String.toUTF8]
  rw [toText?, h, String.fromUTF8?, dif_pos s.isValidUTF8]
  rfl

/-- The bytes of characters that are all ASCII. -/
def ofAscii (cs : List Char) : Bytes := cs.map fun c => UInt8.ofNat c.toNat

/-- `count` bytes of a number, the least first. -/
def littleEndian : (count : Nat) → (number : Nat) → Bytes
  | 0, _ => []
  | count + 1, number => UInt8.ofNat (number % 256) :: littleEndian count (number / 256)

def toNat : Bytes → Nat
  | [] => 0
  | b :: rest => b.toNat + 256 * toNat rest

@[simp] theorem length_littleEndian (count number : Nat) :
    (littleEndian count number).length = count := by
  induction count generalizing number with
  | zero => rfl
  | succ count ih => simp [littleEndian, ih]

theorem littleEndian_toNat (bytes : Bytes) : littleEndian bytes.length (toNat bytes) = bytes := by
  induction bytes with
  | nil => rfl
  | cons b rest ih =>
    have hb := b.toNat_lt
    have hmod : (b.toNat + 256 * toNat rest) % 256 = b.toNat := by omega
    have hdiv : (b.toNat + 256 * toNat rest) / 256 = toNat rest := by omega
    simp only [List.length_cons, littleEndian, toNat, hmod, hdiv, ih]
    simp

def word (number : Nat) : Bytes := littleEndian 8 number

end Bytes

end DevicePlugin
